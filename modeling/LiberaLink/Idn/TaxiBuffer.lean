import LiberaLink.Idn.Decoder

/-!
# The buffers that carry a datagram through the IDN server

A datagram is received into a block of memory of its own.  What the server makes of it is a window on
the block, which is moved forward header by header, and a chain to the blocks of other datagrams when
fragments are put together.  The window is kept as a pointer and 16 bits of length: nothing stops it
at the end of the block.

* `Fragment`, `TaxiBuffer`      a block with its window, a chain of blocks;
* `TaxiBuffer.adjustFront`, `TaxiBuffer.concat`, `TaxiBuffer.getTotalLen`   the operations;
* `channelMessage…`, `channelConfig…`, `sampleChunk…`   the headers, read where the window stands;
* `Fragment.Inside`             the window is inside the block.

A read behind the block finds whatever bytes are there and goes on, as it may in the code too; the
inlets do not rule it out (`openChunk_inside`).
-/

namespace LiberaLink.Idn

/-- The block of one datagram.  Its memory goes on behind its payload, and what is there is not its
own; `id` says which block it is. -/
structure Fragment where
  id : Nat
  memory : Nat → UInt8
  blockLen : Nat
  /-- where `payloadPtr` stands in the block -/
  front : Nat
  payloadLen : UInt16
  sourceRefTime : UInt32

/-- a block and the chain of blocks behind it -/
structure TaxiBuffer where
  head : Fragment
  next : List Fragment

namespace Fragment

def byte (f : Fragment) (i : Nat) : UInt8 := f.memory (f.front + i)

def payload (f : Fragment) : List UInt8 := (List.range f.payloadLen.toNat).map f.byte

/-- the window ends where the block does, or before -/
def Inside (f : Fragment) : Prop := f.front + f.payloadLen.toNat ≤ f.blockLen

/-- The window without its first bytes.  The length is a number of 16 bits. -/
def drop (f : Fragment) (count : Nat) : Fragment :=
  { f with front := f.front + count, payloadLen := f.payloadLen - UInt16.ofNat count }

theorem length_payload (f : Fragment) : f.payload.length = f.payloadLen.toNat := by
  rw [payload, List.length_map, List.length_range]

theorem payloadLen_drop (f : Fragment) {count : Nat} (hcount : count ≤ f.payloadLen.toNat) :
    (f.drop count).payloadLen.toNat = f.payloadLen.toNat - count := by
  have hlen := f.payloadLen.toNat_lt
  have hnat : (UInt16.ofNat count).toNat = count :=
    UInt16.toNat_ofNat_of_lt' (by show count < 65536; omega)
  show (f.payloadLen - UInt16.ofNat count).toNat = _
  rw [UInt16.toNat_sub_of_le, hnat]
  show (UInt16.ofNat count).toNat ≤ _
  rw [hnat]
  exact hcount

theorem payload_drop (f : Fragment) {count : Nat} (hcount : count ≤ f.payloadLen.toNat) :
    (f.drop count).payload = f.payload.drop count := by
  apply List.ext_getElem
  · rw [length_payload, payloadLen_drop f hcount, List.length_drop, length_payload]
  · intro i _ _
    simp [payload, drop, byte, Nat.add_assoc]

/-- Bytes that the window has can be taken from it; others take it out of the block. -/
theorem inside_drop (f : Fragment) (hinside : f.Inside) (hblock : f.blockLen < 65536) {count : Nat}
    (hcount : count < 65536) : (f.drop count).Inside ↔ count ≤ f.payloadLen.toNat := by
  have hnat : (UInt16.ofNat count).toNat = count := UInt16.toNat_ofNat_of_lt' hcount
  have hlen := f.payloadLen.toNat_lt
  rw [Inside] at hinside ⊢
  show f.front + count + (f.payloadLen - UInt16.ofNat count).toNat ≤ f.blockLen ↔ _
  rw [UInt16.toNat_sub, hnat]
  -- a length that is too small goes round to one beyond every block
  omega

end Fragment

namespace TaxiBuffer

/-- a datagram that was just received -/
def received (id : Nat) (memory : Nat → UInt8) (len : Nat) (sourceRefTime : UInt32) : TaxiBuffer where
  head := ⟨id, memory, len, 0, UInt16.ofNat len, sourceRefTime⟩
  next := []

def fragments (t : TaxiBuffer) : List Fragment := t.head :: t.next

/-- the blocks that the chain holds -/
def ids (t : TaxiBuffer) : List Nat := t.fragments.map Fragment.id

/-- the payload of the whole chain -/
def payload (t : TaxiBuffer) : List UInt8 := t.fragments.flatMap Fragment.payload

def getTotalLen (t : TaxiBuffer) : Nat := (t.fragments.map fun f => f.payloadLen.toNat).sum

/-- only the first block is looked at -/
def coalesce (t : TaxiBuffer) (len : Nat) : Bool := len ≤ t.head.payloadLen.toNat

/-- Drops a header from the first block.  (The code passes minus the length of the header.) -/
def adjustFront (t : TaxiBuffer) (header : Nat) : TaxiBuffer := { t with head := t.head.drop header }

def cropPayload (t : TaxiBuffer) (len : Nat) : TaxiBuffer :=
  { t with head := { t.head with payloadLen := UInt16.ofNat len } }

/-- another chain is put behind this one -/
def concat (t other : TaxiBuffer) : TaxiBuffer := { t with next := t.next ++ other.fragments }

@[simp] theorem adjustFront_ids (t : TaxiBuffer) (header : Nat) :
    (t.adjustFront header).ids = t.ids := rfl

@[simp] theorem cropPayload_ids (t : TaxiBuffer) (len : Nat) : (t.cropPayload len).ids = t.ids := rfl

@[simp] theorem concat_ids (t other : TaxiBuffer) : (t.concat other).ids = t.ids ++ other.ids := by
  simp [ids, fragments, concat]

theorem concat_payload (t other : TaxiBuffer) :
    (t.concat other).payload = t.payload ++ other.payload := by
  simp [payload, fragments, concat]

theorem length_payload (t : TaxiBuffer) : t.payload.length = t.getTotalLen := by
  simp only [payload, getTotalLen, List.length_flatMap, Fragment.length_payload]

end TaxiBuffer

/-! ## the headers -/

def be32 (b0 b1 b2 b3 : UInt8) : UInt32 :=
  (be16 b0 b1).toUInt32 <<< 16 ||| (be16 b2 b3).toUInt32

namespace Fragment

def word16 (f : Fragment) (i : Nat) : UInt16 := be16 (f.byte i) (f.byte (i + 1))

def word32 (f : Fragment) (i : Nat) : UInt32 :=
  be32 (f.byte i) (f.byte (i + 1)) (f.byte (i + 2)) (f.byte (i + 3))

end Fragment

/-- the sizes of the headers -/
def packetHeaderSize : Nat := 4

def channelMessageSize : Nat := 8

def channelConfigSize : Nat := 4

def sampleChunkSize : Nat := 4

namespace TaxiBuffer

/-! The channel message header stands at the window. -/

def totalSize (t : TaxiBuffer) : UInt16 := t.head.word16 0

def contentID (t : TaxiBuffer) : UInt16 := t.head.word16 2

def timestamp (t : TaxiBuffer) : UInt32 := t.head.word32 4

def chunkType (t : TaxiBuffer) : UInt16 := t.contentID &&& 0x00FF

def channelID (t : TaxiBuffer) : Nat := ((t.contentID &&& 0x3F00) >>> 8).toNat

/-- the flag that says a configuration follows, or that a fragment is the last one -/
def configOrLast (t : TaxiBuffer) : Bool := t.contentID &&& 0x4000 ≠ 0

def hasConfig (t : TaxiBuffer) : Bool := t.chunkType ≤ 0xBF && t.configOrLast

/-! The configuration header stands behind it. -/

def wordCount (t : TaxiBuffer) : UInt8 := t.head.byte 8

def configFlags (t : TaxiBuffer) : UInt8 := t.head.byte 9

def configServiceID (t : TaxiBuffer) : UInt8 := t.head.byte 10

def configServiceMode (t : TaxiBuffer) : UInt8 := t.head.byte 11

/-- the configuration words, byte by byte -/
def configWords (t : TaxiBuffer) : List UInt8 :=
  (List.range (t.wordCount.toNat * 4)).map fun i => t.head.byte (12 + i)

/-- The content id is written back to the first block. -/
def setContentID (t : TaxiBuffer) (contentID : UInt16) : TaxiBuffer :=
  { t with
    head := { t.head with
      memory := fun i =>
        if i = t.head.front + 2 then (contentID >>> 8).toUInt8
        else if i = t.head.front + 3 then contentID.toUInt8
        else t.head.memory i } }

@[simp] theorem setContentID_ids (t : TaxiBuffer) (contentID : UInt16) :
    (t.setContentID contentID).ids = t.ids := rfl

end TaxiBuffer

/-! The sample chunk header stands at the window when the others have been dropped. -/

def TaxiBuffer.flagsDuration (t : TaxiBuffer) : UInt32 := t.head.word32 0

end LiberaLink.Idn
