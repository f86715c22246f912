import HttpServer.Lib.Refinement
import Mathlib.Algebra.BigOperators.Group.List.Basic
import Mathlib.Algebra.Ring.Nat
import Mathlib.Data.List.Induction

/-!
# A sequence cut into groups as it comes

Items arrive one by one. A group is closed when the next item comes and its weight has reached
the limit; the item then opens a new group. `Rolled.Partitions` says what this yields: the
groups in order are the items in order, every closed group has reached the limit, and no
group goes beyond it by more than its heaviest item.
-/

namespace HttpServer.Lib

/-- The groups closed so far, and the one that is open. -/
structure Rolled (α : Type*) where
  closed : List (List α)
  current : List α

namespace Rolled
variable {α : Type*} (size : α → Nat) (limit : Nat)

/-- The weight of a group. -/
def weight (group : List α) : Nat := (group.map size).sum

/-- One open group, still empty. -/
def new : Rolled α := ⟨[], []⟩

/-- All groups, in order. -/
def groups (r : Rolled α) : List (List α) := r.closed ++ [r.current]

/-- An item comes. -/
def put (r : Rolled α) (a : α) : Rolled α :=
  if limit ≤ weight size r.current then ⟨r.closed ++ [r.current], [a]⟩ else { r with current := r.current ++ [a] }

/-- The groups as a machine that takes items. -/
def machine : Machine (Rolled α) α := ⟨new, fun r a => some (r.put size limit a)⟩

@[simp] theorem weight_nil : weight size ([] : List α) = 0 := by simp [weight]

@[simp] theorem weight_append (first second : List α) :
    weight size (first ++ second) = weight size first + weight size second := by simp [weight]

@[simp] theorem weight_singleton (a : α) : weight size [a] = size a := by simp [weight]

/-- The groups are those of these items. -/
structure Partitions (items : List α) (r : Rolled α) : Prop where
  all : r.groups.flatten = items
  full : ∀ g ∈ r.closed, limit ≤ weight size g
  bounded : ∀ bound, (∀ a ∈ items, size a ≤ bound) → ∀ g ∈ r.groups, weight size g ≤ limit + bound

variable {size limit} {items : List α} {r : Rolled α}

theorem partitions_new : Partitions size limit [] (new : Rolled α) := by
  constructor
  case all => simp [groups, new]
  case full => simp [new]
  case bounded => simp [groups, new]

theorem Partitions.put (parts : Partitions size limit items r) (a : α) :
    Partitions size limit (items ++ [a]) (r.put size limit a) := by
  obtain ⟨all, full, bounded⟩ := parts
  have within {bound : Nat} (most : ∀ b ∈ items ++ [a], size b ≤ bound) :
      size a ≤ bound ∧ ∀ g ∈ r.groups, weight size g ≤ limit + bound :=
    ⟨most a (by simp), bounded bound fun b mem => most b (List.mem_append_left _ mem)⟩
  unfold Rolled.put
  split
  · rename_i reached
    constructor
    case all =>
      rw [← all]
      simp [groups]
    case full =>
      intro g mem
      rcases List.mem_append.mp mem with mem | mem
      · exact full g mem
      · rw [List.mem_singleton.mp mem]
        exact reached
    case bounded =>
      intro bound most g mem
      obtain ⟨last, before⟩ := within most
      rcases List.mem_append.mp mem with mem | mem
      · exact before g mem
      · rw [List.mem_singleton.mp mem, weight_singleton]
        omega
  · rename_i room
    constructor
    case all =>
      rw [← all]
      simp [groups]
    case full => exact full
    case bounded =>
      intro bound most g mem
      obtain ⟨last, before⟩ := within most
      rcases List.mem_append.mp mem with mem | mem
      · exact before g (List.mem_append_left _ mem)
      · rw [List.mem_singleton.mp mem, weight_append, weight_singleton]
        omega

/-- Every run yields the groups of the items it has taken. -/
theorem partitions_of_exec {items : List α} (run : (machine size limit).exec new items = some r) :
    Partitions size limit items r := by
  induction items using List.reverseRecOn generalizing r with
  | nil =>
    cases run
    exact partitions_new
  | append_singleton items a ih =>
    rw [Machine.exec_append] at run
    obtain ⟨r', ran, last⟩ := Option.bind_eq_some_iff.mp run
    cases last
    exact (ih ran).put a

end Rolled

end HttpServer.Lib
