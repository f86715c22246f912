import Mathlib.Data.List.Basic

/-!
# Pipes

A pipe hands bytes on in order and makes a writer wait for room. When there is room is the
kernel's affair: `room` may look at all the accesses so far, and an empty pipe has some. A
pipe may count bytes (`Pipe.bytes`), or fill pages and get a page back only once it is wholly
read (`Pipe.pages`), or use more room for many small writes than for one. `Holds` says what
is left of all that for a writer of `n` bytes whose reader stops after `r`.
-/

namespace HttpServer.Lib

/-- A byte put into a pipe, or taken out of it. -/
inductive Access where
  | put
  | take
  deriving DecidableEq, Repr

namespace Access

/-- How many bytes were put in. -/
def puts (past : List Access) : Nat := past.countP fun access => access = .put

/-- How many bytes were taken out. -/
def takes (past : List Access) : Nat := past.countP fun access => access = .take

@[simp] theorem puts_put (past : List Access) : puts (.put :: past) = puts past + 1 := by simp [puts]

@[simp] theorem puts_take (past : List Access) : puts (.take :: past) = puts past := by simp [puts]

@[simp] theorem takes_put (past : List Access) : takes (.put :: past) = takes past := by simp [takes]

@[simp] theorem takes_take (past : List Access) : takes (.take :: past) = takes past + 1 := by simp [takes]

@[simp] theorem puts_replicate (k : Nat) : puts (List.replicate k .put) = k := by simp [puts, List.countP_replicate]

@[simp] theorem takes_replicate (k : Nat) : takes (List.replicate k .put) = 0 := by simp [takes, List.countP_replicate]

/-- Accesses none of which takes a byte. -/
theorem eq_replicate_of_takes {past : List Access} (none : takes past = 0) :
    past = List.replicate (puts past) .put := by
  induction past with
  | nil => rfl
  | cons access past ih =>
    cases access with
    | put =>
      rw [puts_put, List.replicate_succ]
      exact congrArg _ (ih none)
    | take =>
      rw [takes_take] at none
      omega

end Access

open Access

/-- When a pipe has room for one more byte, by the accesses so far, the last one first. -/
structure Pipe where
  room : List Access → Bool
  empty : ∀ past, puts past = takes past → room past = true

namespace Pipe

/-- A pipe of `K` bytes, each of which is free again once it is read. -/
def bytes (K : Nat) (pos : 0 < K) : Pipe where
  room past := decide (puts past < takes past + K)
  empty past emptied := by
    apply decide_eq_true
    omega

/-- A pipe of `N` pages of `P` bytes, filled one after the other, each of which is free again
once all of it is read. -/
def pages (N P : Nat) (pos : 0 < N) (bytes : 0 < P) : Pipe where
  room past := decide (puts past < (takes past / P + N) * P)
  empty past emptied := by
    apply decide_eq_true
    have read := Nat.div_add_mod (takes past) P
    have part := Nat.mod_lt (takes past) bytes
    have page := Nat.mul_le_mul_right P pos
    rw [emptied, Nat.add_mul, Nat.mul_comm _ P]
    omega

variable (p : Pipe)

/-- Every byte put in found room, and every byte taken out was there. -/
def Possible : List Access → Prop
  | [] => True
  | .put :: past => p.room past = true ∧ Possible past
  | .take :: past => takes past < puts past ∧ Possible past

/-- The pipe is unread, and byte number `k` is the first that finds no room. -/
structure FullAt (k : Nat) : Prop where
  before : ∀ j < k, p.room (List.replicate j .put) = true
  full : p.room (List.replicate k .put) = false

/-- Once `r` bytes are taken out, the rest of `n` bytes finds room, whatever the order the
bytes were put in and taken out. -/
def Holds (n r : Nat) : Prop :=
  ∀ past, p.Possible past → takes past = r → puts past < n → p.room past = true

variable {p}

/-- A pipe filled with nothing taken out had room all along. -/
theorem Possible.before {k : Nat} (possible : p.Possible (List.replicate k .put)) :
    ∀ j < k, p.room (List.replicate j .put) = true := by
  induction k with
  | zero => omega
  | succ k ih =>
    rw [List.replicate_succ] at possible
    intro j lt
    rcases Nat.lt_succ_iff_lt_or_eq.mp lt with lt | rfl
    · exact ih possible.2 j lt
    · exact possible.1

/-! ## Pipes that count -/

/-- There are at most `limit r` bytes put in before byte number `r` is taken out (from zero). -/
def Counts (p : Pipe) (limit : Nat → Nat) : Prop := ∀ past, p.room past = decide (puts past < limit (takes past))

variable {limit : Nat → Nat}

/-- Bytes put in and taken out one by one. -/
theorem exists_level (p : Pipe) (r : Nat) : ∃ past, p.Possible past ∧ puts past = r ∧ takes past = r := by
  induction r with
  | zero => exact ⟨[], trivial, rfl, rfl⟩
  | succ r ih =>
    obtain ⟨past, possible, puts, takes⟩ := ih
    refine ⟨.take :: .put :: past, ⟨?_, p.empty past (puts.trans takes.symm), possible⟩, ?_, ?_⟩
    · rw [takes_put, puts_put]
      omega
    · rw [puts_take, puts_put, puts]
    · rw [takes_take, takes_put, takes]

theorem Counts.progress (counts : p.Counts limit) (r : Nat) : r < limit r := by
  obtain ⟨past, -, puts, takes⟩ := p.exists_level r
  have room := p.empty past (puts.trans takes.symm)
  rw [counts, puts, takes] at room
  exact of_decide_eq_true room

/-- A pipe that counts is filled up to its limit. -/
theorem Counts.exists_filled (counts : p.Counts limit) {r m : Nat} (ahead : r ≤ m) (room : m ≤ limit r) :
    ∃ past, p.Possible past ∧ puts past = m ∧ takes past = r := by
  induction m with
  | zero =>
    obtain rfl := Nat.le_zero.mp ahead
    exact p.exists_level 0
  | succ m ih =>
    rcases Nat.lt_succ_iff_lt_or_eq.mp (Nat.lt_succ_of_le ahead) with lt | rfl
    · obtain ⟨past, possible, puts, takes⟩ := ih (by omega) (by omega)
      refine ⟨.put :: past, ⟨?_, possible⟩, ?_, ?_⟩
      · rw [counts, puts, takes]
        exact decide_eq_true room
      · rw [puts_put, puts]
      · rw [takes_put, takes]
    · exact p.exists_level (m + 1)

/-- What a pipe that counts can hold. -/
theorem Counts.holds_iff (counts : p.Counts limit) (n r : Nat) : p.Holds n r ↔ n ≤ limit r := by
  constructor
  · intro holds
    by_contra short
    have progress := counts.progress r
    obtain ⟨past, possible, puts, takes⟩ := counts.exists_filled (Nat.le_of_lt progress) (Nat.le_refl _)
    have room := holds past possible takes (by omega)
    rw [counts, puts, takes, decide_eq_true_eq] at room
    omega
  · intro fits past _ read unsent
    rw [counts, read, decide_eq_true_eq]
    omega

theorem Counts.fullAt_iff (counts : p.Counts limit) (k : Nat) : p.FullAt k ↔ k = limit 0 := by
  have unread : ∀ j, p.room (List.replicate j .put) = decide (j < limit 0) := by
    intro j
    rw [counts, puts_replicate, takes_replicate]
  constructor
  · rintro ⟨before, full⟩
    rw [unread, decide_eq_false_iff_not] at full
    by_contra other
    have room := before (limit 0) (by omega)
    rw [unread, decide_eq_true_eq] at room
    omega
  · rintro rfl
    constructor
    · intro j lt
      rw [unread]
      exact decide_eq_true lt
    · rw [unread, decide_eq_false_iff_not]
      omega

theorem counts_bytes (K : Nat) (pos : 0 < K) : (bytes K pos).Counts fun r => r + K := fun _ => rfl

theorem counts_pages (N P : Nat) (pos : 0 < N) (bytes : 0 < P) :
    (pages N P pos bytes).Counts fun r => (r / P + N) * P := fun _ => rfl

end Pipe

end HttpServer.Lib
