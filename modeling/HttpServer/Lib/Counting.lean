import Mathlib.Algebra.BigOperators.Group.Finset.Basic
import Mathlib.Data.Fintype.Card
import Mathlib.Data.Finset.Card

/-!
# Counting threads by their state

`countIn f p` is how many of finitely many threads are in a state with `p`. A step of one
thread moves the count by at most one: it enters, leaves or stays. `total f weight` is the sum
of what the states weigh, in any commutative monoid; a step of one thread exchanges one
summand.
-/

namespace HttpServer.Lib
variable {ι σ : Type*} [Fintype ι]

/-- How many threads are in a state with `p`. -/
def countIn (f : ι → σ) (p : σ → Bool) : Nat := (Finset.univ.filter fun i => p (f i) = true).card

variable [DecidableEq ι] {f : ι → σ} {p : σ → Bool} {i : ι} {b : σ}

/-- The count is that of one thread and that of the others. -/
theorem countIn_split (f : ι → σ) (p : σ → Bool) (i : ι) :
    countIn f p = (p (f i)).toNat + ((Finset.univ.erase i).filter fun j => p (f j) = true).card := by
  unfold countIn
  rw [← Finset.insert_erase (Finset.mem_univ i), Finset.filter_insert, Finset.erase_insert (Finset.notMem_erase _ _)]
  split
  · rename_i here
    rw [Finset.card_insert_of_notMem (by simp), here, Bool.toNat_true, Nat.add_comm]
  · rename_i elsewhere
    rw [Bool.eq_false_iff.mpr elsewhere, Bool.toNat_false, Nat.zero_add]

theorem countIn_update (f : ι → σ) (p : σ → Bool) (i : ι) (b : σ) :
    countIn (Function.update f i b) p + (p (f i)).toNat = countIn f p + (p b).toNat := by
  have others : ((Finset.univ.erase i).filter fun j => p (Function.update f i b j) = true) =
      (Finset.univ.erase i).filter fun j => p (f j) = true := by
    apply Finset.filter_congr
    intro j mem
    rw [Function.update_of_ne (Finset.ne_of_mem_erase mem)]
  rw [countIn_split _ p i, countIn_split f p i, others, Function.update_self]
  omega

/-- A thread that stays in or out keeps the count. -/
theorem countIn_stay (same : p b = p (f i)) : countIn (Function.update f i b) p = countIn f p := by
  have balance := countIn_update f p i b
  rw [same] at balance
  omega

/-- A thread that enters adds one. -/
theorem countIn_enter (before : p (f i) = false) (after : p b = true) :
    countIn (Function.update f i b) p = countIn f p + 1 := by
  have balance := countIn_update f p i b
  rw [before, after] at balance
  exact balance

/-- A thread that leaves takes one away. -/
theorem countIn_leave (before : p (f i) = true) (after : p b = false) :
    countIn (Function.update f i b) p + 1 = countIn f p := by
  have balance := countIn_update f p i b
  rw [before, after] at balance
  exact balance

/-- A thread that does not leave takes nothing away. -/
theorem countIn_le (remains : p (f i) = true → p b = true) : countIn f p ≤ countIn (Function.update f i b) p := by
  have balance := countIn_update f p i b
  cases before : p (f i) with
  | true =>
    rw [before, remains before] at balance
    omega
  | false =>
    rw [before, Bool.toNat_false] at balance
    omega

/-- Whatever one thread does takes away at most one. -/
theorem countIn_le_update (f : ι → σ) (p : σ → Bool) (i : ι) (b : σ) :
    countIn f p ≤ countIn (Function.update f i b) p + 1 := by
  have balance := countIn_update f p i b
  have small := Bool.toNat_le (p (f i))
  omega

/-! ## Weights -/

section Total
variable {M : Type*} [AddCommMonoid M]

/-- What all threads weigh together. -/
def total (f : ι → σ) (weight : σ → M) : M := ∑ i, weight (f i)

/-- What a step of one thread exchanges. -/
theorem total_update (f : ι → σ) (weight : σ → M) (i : ι) (b : σ) :
    total (Function.update f i b) weight + weight (f i) = total f weight + weight b := by
  have others : ∑ j ∈ Finset.univ.erase i, weight (Function.update f i b j) =
      ∑ j ∈ Finset.univ.erase i, weight (f j) := by
    apply Finset.sum_congr rfl
    intro j mem
    rw [Function.update_of_ne (Finset.ne_of_mem_erase mem)]
  unfold total
  rw [← Finset.add_sum_erase _ _ (Finset.mem_univ i), others, Function.update_self,
    ← Finset.add_sum_erase _ (fun j => weight (f j)) (Finset.mem_univ i)]
  ac_rfl

end Total

end HttpServer.Lib
