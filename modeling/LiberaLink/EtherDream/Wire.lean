import Mathlib.Data.List.Forall2
import LiberaLink.EtherDream.Device

/-!
# The byte stream of a client

The device reads its client's bytes in pieces whose size it knows beforehand: a command byte, then what
the command asks for.  A read is complete when so many bytes have come, however they were cut on their
way, and ticks come in between.

* `Reader.byte`, `Session.step`   one byte more, and the session it belongs to;
* `readAll_encode`                a command is read as it was written, whatever the device makes of it;
* `decode_carries`                a decoded command carries the payload of its frame, point by point;
* `session_reads`                 the session reads as the reader alone would, and answers each command;
* `session_runs`                  a session of bytes is a run of the device;
* `stream_decodes`                **each command is run with the payload that was sent, and answered once**.
-/

namespace LiberaLink.EtherDream

/-- What comes from the libera library: how numbers are read and written, and the bytes of the states.
A number is read as it was written. -/
structure ByteCodec where
  readLe16 : List UInt8 → Nat
  readLe32 : List UInt8 → Nat
  appendUInt16 : Nat → List UInt8
  appendUInt32 : Nat → List UInt8
  lightEngineByte : LightEngineState → UInt8
  playbackByte : PlaybackState → UInt8
  appendUInt16_length : ∀ n, (appendUInt16 n).length = 2
  appendUInt32_length : ∀ n, (appendUInt32 n).length = 4
  readLe16_append : ∀ n < 2 ^ 16, readLe16 (appendUInt16 n) = n
  readLe32_append : ∀ n < 2 ^ 32, readLe32 (appendUInt32 n) = n

/-! ## points -/

def toInt16 (value : Nat) : Int := if value < 2 ^ 15 then value else (value : Int) - 2 ^ 16

def coordFromEd (value : Int) : ℚ :=
  if value = -32768 then -1 else Numeric.clamp ((value : ℚ) / 32767) (-1) 1

def channelFromEd (value : Nat) : ℚ := (value : ℚ) / 65535

/-- one point, from its 18 bytes -/
def decodePoint (codec : ByteCodec) (bytes : List UInt8) : BufferedPoint :=
  let word (i : Nat) : Nat := codec.readLe16 ((bytes.drop (2 * i)).take 2)
  { control := .ofNat (word 0)
    point := {
      x := coordFromEd (toInt16 (word 1))
      y := coordFromEd (toInt16 (word 2))
      r := channelFromEd (word 3)
      g := channelFromEd (word 4)
      b := channelFromEd (word 5)
      i := if 0 < word 6 then channelFromEd (word 6)
        else if word 3 ≠ 0 ∨ word 4 ≠ 0 ∨ word 5 ≠ 0 then 1 else 0
      u1 := channelFromEd (word 7)
      u2 := channelFromEd (word 8) } }

def decodePoints (codec : ByteCodec) : Nat → List UInt8 → List BufferedPoint
  | 0, _ => []
  | n + 1, bytes => decodePoint codec (bytes.take 18) :: decodePoints codec n (bytes.drop 18)

/-! ## commands as bytes -/

def charByte (c : Char) : UInt8 := .ofNat c.toNat

/-- a command with the bytes that follow it, as the handlers get them -/
inductive Frame where
  | plain (command : UInt8)
  | begin (update : Bool) (bytes : List UInt8)
  | rateChange (bytes : List UInt8)
  | data (pointCount : Nat) (bytes : List UInt8)
  deriving DecidableEq

/-- the byte that a client sends first -/
def Frame.command : Frame → UInt8
  | .plain command => command
  | .begin update _ => if update then charByte 'u' else charByte 'b'
  | .rateChange _ => charByte 'q'
  | .data _ _ => charByte 'd'

/-- the bytes that a client sends -/
def Frame.encode (codec : ByteCodec) (f : Frame) : List UInt8 :=
  f.command :: match f with
    | .plain _ => []
    | .begin _ bytes => bytes
    | .rateChange bytes => bytes
    | .data pointCount bytes => codec.appendUInt16 pointCount ++ bytes

/-- each command has the bytes that it asks for -/
def Frame.WellFormed : Frame → Prop
  | .plain command => command ∉ [charByte 'b', charByte 'u', charByte 'q', charByte 'd']
  | .begin _ bytes => bytes.length = 6
  | .rateChange bytes => bytes.length = 4
  | .data pointCount bytes => pointCount < 2 ^ 16 ∧ bytes.length = 18 * pointCount

/-- the command that a frame stands for -/
def Frame.decode (codec : ByteCodec) : Frame → Command
  | .plain command =>
    if command = charByte '?' then .query
    else if command = charByte 'v' then .version
    else if command = charByte 'p' then .prepare
    else if command = charByte 's' then .stop
    else if command = charByte 'c' then .clear
    else .emergencyStop command
  | .begin update bytes => .begin update (codec.readLe32 (bytes.drop 2))
  | .rateChange bytes => .rateChange (codec.readLe32 bytes)
  | .data pointCount bytes => .data (decodePoints codec pointCount bytes)

/-! ## what a command carries -/

/-- the word `i` of the point `k` in the bytes of a data command -/
def payloadWord (codec : ByteCodec) (bytes : List UInt8) (k i : Nat) : Nat :=
  codec.readLe16 ((bytes.drop (18 * k + 2 * i)).take 2)

/-- a point as its nine words say it -/
structure PointOfWords (word : Nat → Nat) (p : BufferedPoint) : Prop where
  control : p.control = .ofNat (word 0)
  x : p.point.x = coordFromEd (toInt16 (word 1))
  y : p.point.y = coordFromEd (toInt16 (word 2))
  r : p.point.r = channelFromEd (word 3)
  g : p.point.g = channelFromEd (word 4)
  b : p.point.b = channelFromEd (word 5)
  i : 0 < word 6 → p.point.i = channelFromEd (word 6)
  lit : word 6 = 0 → p.point.i = if word 3 = 0 ∧ word 4 = 0 ∧ word 5 = 0 then 0 else 1
  u1 : p.point.u1 = channelFromEd (word 7)
  u2 : p.point.u2 = channelFromEd (word 8)

/-- the commands of one byte that are no emergency stop -/
def plainCommands : List (Char × Command) :=
  [('?', .query), ('v', .version), ('p', .prepare), ('s', .stop), ('c', .clear)]

/-- The command has the payload of the frame: its rate, or its points, each with its own nine words. -/
def Frame.CarriedBy (codec : ByteCodec) : Frame → Command → Prop
  | .plain command, c =>
    (∀ q ∈ plainCommands, command = charByte q.1 → c = q.2) ∧
      ((∀ q ∈ plainCommands, command ≠ charByte q.1) → c = .emergencyStop command)
  | .begin update bytes, c => c = .begin update (codec.readLe32 (bytes.drop 2))
  | .rateChange bytes, c => c = .rateChange (codec.readLe32 bytes)
  | .data pointCount bytes, c => ∃ points, c = .data points ∧ points.length = pointCount ∧
      ∀ k p, points[k]? = some p → PointOfWords (payloadWord codec bytes k) p

section
variable (codec : ByteCodec)

theorem decodePoints_length (n : Nat) (bytes : List UInt8) :
    (decodePoints codec n bytes).length = n := by
  induction n generalizing bytes with
  | zero => rfl
  | succ n ih =>
    rw [decodePoints, List.length_cons, ih]

theorem decodePoints_getElem? (n k : Nat) (bytes : List UInt8) (hk : k < n) :
    (decodePoints codec n bytes)[k]? =
      some (decodePoint codec ((bytes.drop (18 * k)).take 18)) := by
  induction n generalizing k bytes with
  | zero => omega
  | succ n ih =>
    cases k with
    | zero => rfl
    | succ k =>
      rw [decodePoints, List.getElem?_cons_succ, ih k _ (by omega), List.drop_drop]
      congr 4
      omega

theorem PointOfWords.congr {word word' : Nat → Nat} {p : BufferedPoint} (h : PointOfWords word p)
    (hword : ∀ i < 9, word i = word' i) : PointOfWords word' p where
  control := hword 0 (by decide) ▸ h.control
  x := hword 1 (by decide) ▸ h.x
  y := hword 2 (by decide) ▸ h.y
  r := hword 3 (by decide) ▸ h.r
  g := hword 4 (by decide) ▸ h.g
  b := hword 5 (by decide) ▸ h.b
  i := hword 6 (by decide) ▸ h.i
  lit := by
    rw [← hword 3 (by decide), ← hword 4 (by decide), ← hword 5 (by decide), ← hword 6 (by decide)]
    exact h.lit
  u1 := hword 7 (by decide) ▸ h.u1
  u2 := hword 8 (by decide) ▸ h.u2

theorem decodePoint_words (bytes : List UInt8) :
    PointOfWords (payloadWord codec bytes 0) (decodePoint codec bytes) := by
  suffices h : PointOfWords (fun i => codec.readLe16 ((bytes.drop (2 * i)).take 2))
      (decodePoint codec bytes) by
    refine h.congr fun i _ => ?_
    unfold payloadWord
    rw [Nat.mul_zero, Nat.zero_add]
  refine ⟨rfl, rfl, rfl, rfl, rfl, rfl, ?_, ?_, rfl, rfl⟩
  · intro hi
    exact if_pos hi
  · intro hi
    unfold decodePoint
    simp only at hi ⊢
    rw [hi, if_neg (Nat.lt_irrefl 0)]
    split
    · rename_i hlit
      rw [if_neg (by omega)]
    · rename_i hdark
      rw [if_pos (by omega)]

/-- the words of a point are words of the payload -/
theorem payloadWord_take (bytes : List UInt8) (k : Nat) {i : Nat} (hi : i < 9) :
    payloadWord codec ((bytes.drop (18 * k)).take 18) 0 i = payloadWord codec bytes k i := by
  unfold payloadWord
  rw [Nat.mul_zero, Nat.zero_add, List.drop_take, List.take_take, List.drop_drop,
    Nat.min_eq_left (by omega)]

/-- **A decoded command carries the payload of its frame.** -/
theorem decode_carries (f : Frame) : f.CarriedBy codec (f.decode codec) := by
  cases f with
  | begin update bytes => rfl
  | rateChange bytes => rfl
  | data pointCount bytes =>
    refine ⟨decodePoints codec pointCount bytes, rfl, decodePoints_length codec _ _, ?_⟩
    intro k p hp
    have hk : k < pointCount := by
      have hlength := (List.getElem?_eq_some_iff.mp hp).1
      rwa [decodePoints_length] at hlength
    rw [decodePoints_getElem? codec _ _ _ hk, Option.some_inj] at hp
    rw [← hp]
    exact (decodePoint_words codec _).congr fun i hi => payloadWord_take codec bytes k hi
  | plain command =>
    constructor
    · intro q hq hcommand
      rw [hcommand]
      simp only [plainCommands, List.mem_cons, List.not_mem_nil, or_false] at hq
      obtain rfl | rfl | rfl | rfl | rfl := hq <;> rfl
    · intro hother
      show (if _ then _ else _ : Command) = _
      rw [if_neg (hother ('?', .query) (by simp [plainCommands])),
        if_neg (hother ('v', .version) (by simp [plainCommands])),
        if_neg (hother ('p', .prepare) (by simp [plainCommands])),
        if_neg (hother ('s', .stop) (by simp [plainCommands])),
        if_neg (hother ('c', .clear) (by simp [plainCommands]))]

end

/-! ## reading -/

/-- the read that a session waits for -/
inductive PendingRead where
  | command
  | begin (update : Bool)
  | rateChange
  | dataHeader
  | dataPayload (pointCount : Nat)
  deriving DecidableEq

def PendingRead.size : PendingRead → Nat
  | .command => 1
  | .begin _ => 6
  | .rateChange => 4
  | .dataHeader => 2
  | .dataPayload pointCount => pointCount * 18

/-- What a read leads to when all of its bytes are there: the next read, and perhaps a command.  A read
of no bytes is complete at once. -/
def PendingRead.complete (codec : ByteCodec) (bytes : List UInt8) :
    PendingRead → PendingRead × Option Frame
  | .command =>
    let command := bytes.headD 0
    if command = charByte 'b' then (.begin false, none)
    else if command = charByte 'u' then (.begin true, none)
    else if command = charByte 'q' then (.rateChange, none)
    else if command = charByte 'd' then (.dataHeader, none)
    else (.command, some (.plain command))
  | .begin update => (.command, some (.begin update bytes))
  | .rateChange => (.command, some (.rateChange bytes))
  | .dataHeader =>
    let pointCount := codec.readLe16 bytes
    if pointCount * 18 = 0 then (.command, some (.data pointCount []))
    else (.dataPayload pointCount, none)
  | .dataPayload pointCount => (.command, some (.data pointCount bytes))

structure Reader where
  pending : PendingRead := .command
  received : List UInt8 := []
  deriving DecidableEq

/-- one byte more -/
def Reader.byte (codec : ByteCodec) (r : Reader) (b : UInt8) : Reader × Option Frame :=
  let received := r.received ++ [b]
  if received.length < r.pending.size then ({ r with received := received }, none)
  else
    let next := r.pending.complete codec received
    ({ pending := next.1 }, next.2)

/-- the reads of a list of bytes -/
def readAll (codec : ByteCodec) : Reader → List UInt8 → Reader × List Frame
  | r, [] => (r, [])
  | r, b :: bytes =>
    let next := r.byte codec b
    let rest := readAll codec next.1 bytes
    (rest.1, next.2.toList ++ rest.2)

/-! ## the session -/

structure Session where
  device : Device := {}
  reader : Reader := {}
  /-- the commands that were handled, in order -/
  handled : List Frame := []

inductive Input where
  | connect
  | disconnect
  | byte (b : UInt8)
  | tick (now : Int)

def Session.step (codec : ByteCodec) (options : HostOptions) (x : Session) : Input → Session
  | .connect =>
    { x with
      device := x.device.step options .connect
      reader := if x.device.connected then x.reader else {} }
  | .disconnect => { x with device := x.device.step options .disconnect }
  | .tick now => { x with device := x.device.step options (.tick now) }
  | .byte b =>
    if x.device.connected then
      let next := x.reader.byte codec b
      { device := match next.2 with
          | some frame => x.device.step options (.command (frame.decode codec))
          | none => x.device
        reader := next.1
        handled := x.handled ++ next.2.toList }
    else x

/-! ## what is sent -/

def Response.byte : Response → UInt8
  | .ack => charByte 'a'
  | .full => charByte 'F'
  | .invalid => charByte 'I'

/-- the second byte of a response -/
def Command.byte : Command → UInt8
  | .query => charByte '?'
  | .version => charByte 'v'
  | .prepare => charByte 'p'
  | .begin update _ => if update then charByte 'u' else charByte 'b'
  | .rateChange _ => charByte 'q'
  | .data _ => charByte 'd'
  | .stop => charByte 's'
  | .clear => charByte 'c'
  | .emergencyStop byte => byte

def Status.bytes (codec : ByteCodec) (status : Status) : List UInt8 :=
  [0, codec.lightEngineByte status.lightEngineState, codec.playbackByte status.playbackState, 0] ++
    codec.appendUInt16 status.lightEngineFlags.toNat ++ codec.appendUInt16 status.playbackFlags.toNat ++
    codec.appendUInt16 0 ++ codec.appendUInt16 status.bufferFullness ++
    codec.appendUInt32 status.pointRate ++ codec.appendUInt32 status.pointCount.toNat

def versionBlock : List UInt8 := "r3 libera-link".toList.map charByte ++ List.replicate 18 0

/-- the bytes that an output sends to the client -/
def Output.bytes (codec : ByteCodec) : Output → Option (List UInt8)
  | .response command code status => some ([code.byte, command.byte] ++ status.bytes codec)
  | .version => some versionBlock
  | .call _ => none

/-- what was sent to the client, message by message -/
def sent (codec : ByteCodec) (outputs : List Output) : List (List UInt8) :=
  outputs.filterMap (Output.bytes codec)

/-! ## a command is read as it was written -/

section
variable (codec : ByteCodec)

theorem readAll_append (r : Reader) (a b : List UInt8) :
    readAll codec r (a ++ b) =
      ((readAll codec (readAll codec r a).1 b).1,
        (readAll codec r a).2 ++ (readAll codec (readAll codec r a).1 b).2) := by
  induction a generalizing r with
  | nil => rfl
  | cons byte a ih =>
    rw [List.cons_append, readAll, readAll, ih]
    simp only [List.append_assoc]

theorem readAll_concat (r : Reader) (bytes : List UInt8) (b : UInt8) :
    readAll codec r (bytes ++ [b]) =
      (((readAll codec r bytes).1.byte codec b).1,
        (readAll codec r bytes).2 ++ ((readAll codec r bytes).1.byte codec b).2.toList) := by
  rw [readAll_append]
  simp only [readAll, List.append_nil]

/-- the bytes that fill a read complete it -/
theorem readAll_fill (pending : PendingRead) (received bytes : List UInt8) (hbytes : bytes ≠ [])
    (hsize : received.length + bytes.length = pending.size) :
    readAll codec ⟨pending, received⟩ bytes =
      (⟨(pending.complete codec (received ++ bytes)).1, []⟩,
        (pending.complete codec (received ++ bytes)).2.toList) := by
  induction bytes generalizing received with
  | nil => exact absurd rfl hbytes
  | cons b bytes ih =>
    rw [List.length_cons] at hsize
    unfold readAll Reader.byte
    simp only [List.length_append, List.length_singleton]
    cases bytes with
    | nil =>
      rw [if_neg (by rw [List.length_nil] at hsize; omega)]
      simp only [readAll, List.append_nil]
    | cons b' bytes =>
      rw [if_pos (by rw [List.length_cons] at hsize; omega)]
      simp only [Option.toList_none, List.nil_append]
      have hrest : (received ++ [b]).length + (b' :: bytes).length = pending.size := by
        rw [List.length_append, List.length_singleton]
        omega
      rw [ih (received ++ [b]) (by simp) hrest, List.append_assoc]
      rfl

theorem readAll_first (b : UInt8) : readAll codec {} [b] =
    (⟨(PendingRead.command.complete codec [b]).1, []⟩,
      (PendingRead.command.complete codec [b]).2.toList) :=
  readAll_fill codec .command [] [b] (by simp) rfl

theorem readAll_header {pointCount : Nat} (h : pointCount < 2 ^ 16) :
    readAll codec ⟨.dataHeader, []⟩ (codec.appendUInt16 pointCount) =
      if pointCount * 18 = 0 then ({}, [.data pointCount []])
      else (⟨.dataPayload pointCount, []⟩, []) := by
  have hlength := codec.appendUInt16_length pointCount
  have hne : codec.appendUInt16 pointCount ≠ [] := by
    intro hnil
    rw [hnil] at hlength
    cases hlength
  rw [readAll_fill codec .dataHeader [] _ hne (by rw [hlength]; rfl), List.nil_append]
  unfold PendingRead.complete
  simp only
  rw [codec.readLe16_append pointCount h]
  split <;> rfl

/-- **A command is read as it was written.** -/
theorem readAll_encode {f : Frame} (hf : f.WellFormed) :
    readAll codec {} (f.encode codec) = ({}, [f]) := by
  cases f with
  | plain command =>
    show readAll codec {} [command] = _
    unfold Frame.WellFormed at hf
    simp only [List.mem_cons, List.not_mem_nil, or_false, not_or] at hf
    obtain ⟨hb, hu, hq, hd⟩ := hf
    have hread : PendingRead.command.complete codec [command] =
        (.command, some (.plain command)) := by
      show (if command = _ then _ else if command = _ then _ else if command = _ then _
        else if command = _ then _ else (PendingRead.command, some (Frame.plain command))) = _
      rw [if_neg hb, if_neg hu, if_neg hq, if_neg hd]
    rw [readAll_first, hread]
    rfl
  | begin update bytes =>
    have hfirst : readAll codec {} [(Frame.begin update bytes).command] =
        (⟨.begin update, []⟩, []) := by
      rw [readAll_first]
      cases update with
      | true => rfl
      | false => rfl
    have hlength : bytes.length = 6 := hf
    have hne : bytes ≠ [] := by
      intro hnil
      rw [hnil] at hlength
      cases hlength
    show readAll codec {} ([_] ++ bytes) = _
    rw [readAll_append, hfirst, readAll_fill codec (.begin update) [] bytes hne (by simp [hlength,
      PendingRead.size])]
    rfl
  | rateChange bytes =>
    have hfirst : readAll codec {} [(Frame.rateChange bytes).command] =
        (⟨.rateChange, []⟩, []) := by
      rw [readAll_first]
      rfl
    have hlength : bytes.length = 4 := hf
    have hne : bytes ≠ [] := by
      intro hnil
      rw [hnil] at hlength
      cases hlength
    show readAll codec {} ([_] ++ bytes) = _
    rw [readAll_append, hfirst, readAll_fill codec .rateChange [] bytes hne (by simp [hlength,
      PendingRead.size])]
    rfl
  | data pointCount bytes =>
    have hfirst : readAll codec {} [(Frame.data pointCount bytes).command] =
        (⟨.dataHeader, []⟩, []) := by
      rw [readAll_first]
      rfl
    obtain ⟨hcount, hlength⟩ : pointCount < 2 ^ 16 ∧ bytes.length = 18 * pointCount := hf
    show readAll codec {} ([_] ++ (codec.appendUInt16 pointCount ++ bytes)) = _
    rw [readAll_append, hfirst, readAll_append, readAll_header codec hcount]
    by_cases hzero : pointCount * 18 = 0
    · obtain rfl : bytes = [] := List.length_eq_zero_iff.mp (by omega)
      rw [if_pos hzero]
      rfl
    · have hne : bytes ≠ [] := by
        intro hnil
        rw [hnil, List.length_nil] at hlength
        omega
      rw [if_neg hzero, readAll_fill codec (.dataPayload pointCount) [] bytes hne (by
        show 0 + bytes.length = pointCount * 18
        omega)]
      rfl

theorem readAll_encodes {frames : List Frame} (hframes : ∀ f ∈ frames, f.WellFormed) :
    readAll codec {} (frames.flatMap (Frame.encode codec)) = ({}, frames) := by
  induction frames with
  | nil => rfl
  | cons f frames ih =>
    rw [List.flatMap_cons, readAll_append, readAll_encode codec (hframes f List.mem_cons_self),
      ih fun g hg => hframes g (List.mem_cons_of_mem _ hg)]
    rfl

end

/-! ## a session reads what its reader reads -/

/-- a byte or a tick -/
def Input.Live : Input → Prop
  | .byte _ => True
  | .tick _ => True
  | .connect => False
  | .disconnect => False

instance : DecidablePred Input.Live
  | .byte _ => .isTrue trivial
  | .tick _ => .isTrue trivial
  | .connect => .isFalse not_false
  | .disconnect => .isFalse not_false

/-- the bytes of a list of inputs -/
def bytesOf (inputs : List Input) : List UInt8 :=
  inputs.filterMap fun i => match i with
    | .byte b => some b
    | _ => none

/-- The answer to a command: the version block, or a response that repeats the command. -/
def Frame.Answered (f : Frame) (bytes : List UInt8) : Prop :=
  if f.command = charByte 'v' then bytes = versionBlock
  else bytes.length = 22 ∧ bytes[1]? = some f.command

section
variable (codec : ByteCodec) {options : HostOptions}

theorem Status.bytes_length (status : Status) : (status.bytes codec).length = 20 := by
  unfold Status.bytes
  simp only [List.length_append, codec.appendUInt16_length, codec.appendUInt32_length,
    List.length_cons, List.length_nil]

/-- a response names the byte of its command -/
theorem decode_byte (f : Frame) : (f.decode codec).byte = f.command := by
  cases f with
  | begin update bytes => rfl
  | rateChange bytes => rfl
  | data pointCount bytes => rfl
  | plain command =>
    show (if _ then _ else _ : Command).byte = command
    split
    · rename_i h
      exact h.symm
    · split
      · rename_i h
        exact h.symm
      · split
        · rename_i h
          exact h.symm
        · split
          · rename_i h
            exact h.symm
          · split
            · rename_i h
              exact h.symm
            · rfl

theorem decode_version {f : Frame} : f.decode codec = .version ↔ f.command = charByte 'v' := by
  constructor
  · intro h
    rw [← decode_byte codec f, h]
    rfl
  · intro h
    cases f with
    | plain command =>
      obtain rfl : command = charByte 'v' := h
      rfl
    | begin update bytes =>
      cases update with
      | true => exact absurd h (show charByte 'u' ≠ charByte 'v' by decide)
      | false => exact absurd h (show charByte 'b' ≠ charByte 'v' by decide)
    | rateChange bytes => exact absurd h (show charByte 'q' ≠ charByte 'v' by decide)
    | data pointCount bytes => exact absurd h (show charByte 'd' ≠ charByte 'v' by decide)

/-- one command sends one message -/
theorem outputs_sent (f : Frame) (done : Done) :
    ∃ bytes, sent codec (done.outputs (f.decode codec)) = [bytes] ∧ f.Answered bytes := by
  have hcalls : sent codec (done.outputs (f.decode codec)) =
      sent codec [(f.decode codec).answer done.response done.state] := by
    unfold Done.outputs sent
    rw [List.filterMap_append]
    cases done.resets with
    | true => rfl
    | false => rfl
  rw [hcalls]
  by_cases hversion : f.decode codec = .version
  · refine ⟨versionBlock, by rw [hversion]; rfl, ?_⟩
    unfold Frame.Answered
    rw [if_pos ((decode_version codec).mp hversion)]
  · refine ⟨_, by rw [answer_of_ne hversion]; rfl, ?_⟩
    unfold Frame.Answered
    rw [if_neg fun h => hversion ((decode_version codec).mpr h)]
    refine ⟨?_, ?_⟩
    · rw [List.length_append, Status.bytes_length]
      rfl
    · show some (f.decode codec).byte = _
      rw [decode_byte]

theorem sent_append (a b : List Output) : sent codec (a ++ b) = sent codec a ++ sent codec b :=
  List.filterMap_append

/-- What a session has read and answered since `x`, when its reader alone would have read `r`. -/
structure Follows (x y : Session) (r : Reader × List Frame) : Prop where
  connected : y.device.connected = true
  reader : y.reader = r.1
  handled : y.handled = x.handled ++ r.2
  answers : ∃ replies, sent codec y.device.log = sent codec x.device.log ++ replies ∧
    List.Forall₂ Frame.Answered r.2 replies

/-- one byte or one tick -/
theorem step_follows {x y : Session} {bytes : List UInt8}
    (h : Follows codec x y (readAll codec x.reader bytes)) {i : Input} (hi : i.Live) :
    Follows codec x (y.step codec options i) (readAll codec x.reader (bytes ++ bytesOf [i])) := by
  obtain ⟨replies, hsent, hanswered⟩ := h.answers
  cases i with
  | connect => exact hi.elim
  | disconnect => exact hi.elim
  | tick now =>
    show Follows codec x _ (readAll codec x.reader (bytes ++ []))
    rw [List.append_nil]
    refine ⟨h.connected, h.reader, h.handled, replies, ?_, hanswered⟩
    show sent codec (y.device.log ++ _) = _
    rw [sent_append, hsent]
    have hsilent : sent codec ((playbackSubmission options (playbackSection y.device.state now).1.pointRate
        (playbackSection y.device.state now).2).map Output.call).toList = [] := by
      unfold playbackSubmission
      split <;> rfl
    rw [hsilent, List.append_nil]
  | byte b =>
    show Follows codec x _ (readAll codec x.reader (bytes ++ [b]))
    rw [readAll_concat, ← h.reader]
    unfold Session.step
    simp only
    rw [if_pos h.connected]
    cases hread : (y.reader.byte codec b).2 with
    | none =>
      refine ⟨h.connected, rfl, ?_, replies, hsent, ?_⟩
      · show y.handled ++ [] = _
        rw [List.append_nil, Option.toList_none, List.append_nil]
        exact h.handled
      · rw [Option.toList_none, List.append_nil]
        exact hanswered
    | some frame =>
      obtain ⟨message, hmessage, hframe⟩ :=
        outputs_sent codec frame ((frame.decode codec).run options y.device.state)
      refine ⟨?_, rfl, ?_, replies ++ [message], ?_, ?_⟩
      · show (y.device.step options (.command (frame.decode codec))).connected = true
        rw [step_command h.connected]
        exact h.connected
      · show y.handled ++ [frame] = _
        rw [h.handled, List.append_assoc]
        rfl
      · show sent codec (y.device.step options (.command (frame.decode codec))).log = _
        rw [step_command h.connected]
        show sent codec (y.device.log ++ _) = _
        rw [sent_append, hsent, hmessage, List.append_assoc]
      · exact List.rel_append hanswered (.cons hframe .nil)

theorem session_reads (x : Session) (hconnected : x.device.connected = true) {inputs : List Input}
    (hlive : ∀ i ∈ inputs, i.Live) :
    Follows codec x (inputs.foldl (Session.step codec options) x)
      (readAll codec x.reader (bytesOf inputs)) := by
  induction inputs using List.reverseRecOn with
  | nil =>
    exact ⟨hconnected, rfl, (List.append_nil _).symm, [], (List.append_nil _).symm, .nil⟩
  | append_singleton inputs i ih =>
    have hsplit : bytesOf (inputs ++ [i]) = bytesOf inputs ++ bytesOf [i] := List.filterMap_append
    rw [List.foldl_append, hsplit]
    exact step_follows codec (ih fun j hj => hlive j (List.mem_append_left _ hj))
      (hlive i (List.mem_append_right _ List.mem_cons_self))

end

/-! ## the bytes of a run are commands of a run -/

def Event.command? : Event → Option Command
  | .command c => some c
  | _ => none

/-- what an input is to the device, apart from the bytes -/
def Input.event? : Input → Option Event
  | .connect => some .connect
  | .disconnect => some .disconnect
  | .tick now => some (.tick now)
  | .byte _ => none

/-- The device of `y` is that of `x` after a run of events: the commands that the session has handled
since, each as it was decoded, and between them what else came. -/
def DecodedRun (codec : ByteCodec) (options : HostOptions) (x y : Session) (inputs : List Input) : Prop :=
  ∃ events : List Event, y.device = events.foldl (Device.step options) x.device ∧
    events.filter (fun e => e.command?.isNone) = inputs.filterMap Input.event? ∧
    ∃ frames, y.handled = x.handled ++ frames ∧
      events.filterMap Event.command? = frames.map (Frame.decode codec)

section
variable {codec : ByteCodec} {options : HostOptions} {x y : Session} {inputs : List Input}

/-- an input that is an event, but no command, of the device -/
theorem DecodedRun.event (h : DecodedRun codec options x y inputs) {i : Input} {e : Event}
    (hi : i.event? = some e) (he : e.command? = none) {y' : Session}
    (hdevice : y'.device = y.device.step options e) (hhandled : y'.handled = y.handled) :
    DecodedRun codec options x y' (inputs ++ [i]) := by
  obtain ⟨events, hrun, hothers, frames, hframes, hcommands⟩ := h
  refine ⟨events ++ [e], ?_, ?_, frames, hhandled.trans hframes, ?_⟩
  · rw [hdevice, hrun, List.foldl_append]
    rfl
  · rw [List.filter_append, List.filterMap_append, hothers, List.filter_cons, he,
      List.filterMap_cons, hi]
    rfl
  · rw [List.filterMap_append, hcommands, List.filterMap_cons, he]
    exact List.append_nil _

/-- a byte that completes no command -/
theorem DecodedRun.quiet (h : DecodedRun codec options x y inputs) {b : UInt8} {y' : Session}
    (hdevice : y'.device = y.device) (hhandled : y'.handled = y.handled) :
    DecodedRun codec options x y' (inputs ++ [.byte b]) := by
  obtain ⟨events, hrun, hothers, frames, hframes, hcommands⟩ := h
  refine ⟨events, hdevice.trans hrun, ?_, frames, hhandled.trans hframes, hcommands⟩
  rw [List.filterMap_append, hothers]
  exact (List.append_nil _).symm

/-- a byte that completes a command -/
theorem DecodedRun.command (h : DecodedRun codec options x y inputs) {b : UInt8} {frame : Frame}
    {y' : Session}
    (hdevice : y'.device = y.device.step options (.command (frame.decode codec)))
    (hhandled : y'.handled = y.handled ++ [frame]) :
    DecodedRun codec options x y' (inputs ++ [.byte b]) := by
  obtain ⟨events, hrun, hothers, frames, hframes, hcommands⟩ := h
  refine ⟨events ++ [.command (frame.decode codec)], ?_, ?_, frames ++ [frame], ?_, ?_⟩
  · rw [hdevice, hrun, List.foldl_append]
    rfl
  · rw [List.filter_append, List.filterMap_append, hothers]
    rfl
  · rw [hhandled, hframes, List.append_assoc]
  · rw [List.filterMap_append, hcommands, List.map_append]
    rfl

end

/-- **A session of bytes is a run of the device**, from any state and whatever comes. -/
theorem session_runs (codec : ByteCodec) (options : HostOptions) (x : Session) (inputs : List Input) :
    DecodedRun codec options x (inputs.foldl (Session.step codec options) x) inputs := by
  induction inputs using List.reverseRecOn with
  | nil => exact ⟨[], rfl, rfl, [], (List.append_nil _).symm, rfl⟩
  | append_singleton inputs i ih =>
    rw [List.foldl_append]
    show DecodedRun codec options x (Session.step codec options _ i) _
    generalize inputs.foldl (Session.step codec options) x = y at ih ⊢
    cases i with
    | connect => exact ih.event rfl rfl rfl rfl
    | disconnect => exact ih.event rfl rfl rfl rfl
    | tick now => exact ih.event rfl rfl rfl rfl
    | byte b =>
      unfold Session.step
      simp only
      split
      · cases (y.reader.byte codec b).2 with
        | none => exact ih.quiet rfl (List.append_nil _)
        | some frame => exact ih.command rfl rfl
      · exact ih.quiet rfl rfl

/-- **Each command is run with the payload that was sent, and answered once.**  From any state of the
device, with ticks anywhere between the bytes, the device goes through a run of events: the ticks that
came, and the commands of the stream in order, each with the payload of its own bytes.  The messages
sent are one answer for each of them in the same order, whether they are acknowledged or refused. -/
theorem stream_decodes (codec : ByteCodec) (options : HostOptions) (x : Session)
    (hconnected : x.device.connected = true) (hreader : x.reader = {}) (frames : List Frame)
    (hframes : ∀ f ∈ frames, f.WellFormed) (inputs : List Input) (hlive : ∀ i ∈ inputs, i.Live)
    (hbytes : bytesOf inputs = frames.flatMap (Frame.encode codec)) :
    let y := inputs.foldl (Session.step codec options) x
    (∃ events : List Event, y.device = events.foldl (Device.step options) x.device ∧
      events.filter (fun e => e.command?.isNone) = inputs.filterMap Input.event? ∧
      events.filterMap Event.command? = frames.map (Frame.decode codec) ∧
      List.Forall₂ (Frame.CarriedBy codec) frames (events.filterMap Event.command?)) ∧
    y.handled = x.handled ++ frames ∧ y.reader = {} ∧
      ∃ replies, sent codec y.device.log = sent codec x.device.log ++ replies ∧
        List.Forall₂ Frame.Answered frames replies := by
  intro y
  have h : Follows codec x y _ := session_reads codec x hconnected hlive
  rw [hreader, hbytes, readAll_encodes codec hframes] at h
  refine ⟨?_, h.handled, h.reader, h.answers⟩
  obtain ⟨events, hdevice, hothers, handled, hhandled, hcommands⟩ :
      DecodedRun codec options x y inputs := session_runs codec options x inputs
  obtain rfl : handled = frames := List.append_cancel_left (hhandled.symm.trans h.handled)
  refine ⟨events, hdevice, hothers, hcommands, ?_⟩
  rw [hcommands, List.forall₂_map_right_iff, List.forall₂_same]
  intro f _
  exact decode_carries codec f

/-- numbers with their low byte first -/
def littleEndian : ByteCodec where
  readLe16 := List.foldr (fun b n => b.toNat + 256 * n) 0
  readLe32 := List.foldr (fun b n => b.toNat + 256 * n) 0
  appendUInt16 n := [.ofNat n, .ofNat (n / 256)]
  appendUInt32 n := [.ofNat n, .ofNat (n / 256), .ofNat (n / 65536), .ofNat (n / 16777216)]
  lightEngineByte s := match s with
    | .ready => 0
    | .estop => 3
  playbackByte s := match s with
    | .idle => 0
    | .prepared => 1
    | .playing => 2
  appendUInt16_length _ := rfl
  appendUInt32_length _ := rfl
  readLe16_append n hn := by
    simp only [List.foldr_cons, List.foldr_nil, UInt8.toNat_ofNat']
    omega
  readLe32_append n hn := by
    simp only [List.foldr_cons, List.foldr_nil, UInt8.toNat_ofNat']
    omega

/-- A prepare, a point, a begin, a rate change, data without points, and a byte that is no command. -/
def sixFrames : List Frame :=
  [.plain (charByte 'p'),
    .data 1 [0, 0x80, 0xff, 0x7f, 0x00, 0x80, 0xff, 0xff, 0, 0, 0, 0, 0, 0, 0, 0, 0, 0],
    .begin false [0, 0, 0xe8, 0x03, 0, 0], .rateChange [0xd0, 0x07, 0, 0], .data 0 [], .plain 0x7f]

/-- their bytes, with a tick within the first point, and one within the rate -/
def sixInputs : List Input :=
  let bytes := (sixFrames.flatMap (Frame.encode littleEndian)).map Input.byte
  bytes.take 9 ++ [.tick 5] ++ (bytes.drop 9).take 18 ++ [.tick 1000005] ++ bytes.drop 27

theorem stream_decodes_six :
    let x : Session := Session.step littleEndian (makeHostOptions ⟨7765, 7654⟩ ⟨0, ∅⟩) {} .connect
    let y := sixInputs.foldl
      (Session.step littleEndian (makeHostOptions ⟨7765, 7654⟩ ⟨0, ∅⟩)) x
    (∃ events : List Event, y.device =
        events.foldl (Device.step (makeHostOptions ⟨7765, 7654⟩ ⟨0, ∅⟩)) x.device ∧
      events.filterMap Event.command? = [.prepare, .data [⟨⟨1, -1, 1, 0, 0, 1, 0, 0⟩, 0x8000⟩],
        .begin false 1000, .rateChange 2000, .data [], .emergencyStop 0x7f]) ∧
    y.handled = sixFrames ∧ y.reader = {} := by
  intro x y
  have h := stream_decodes littleEndian (makeHostOptions ⟨7765, 7654⟩ ⟨0, ∅⟩) x rfl rfl sixFrames
    (by simp [sixFrames, Frame.WellFormed, charByte]) sixInputs
    (by decide +kernel) (by decide +kernel)
  obtain ⟨⟨events, hdevice, _, hcommands, _⟩, hhandled, hreader, _⟩ := h
  refine ⟨⟨events, hdevice, hcommands.trans ?_⟩, hhandled, hreader⟩
  decide +kernel

end LiberaLink.EtherDream
