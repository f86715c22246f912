import Mathlib.Data.List.Induction
import Mathlib.Tactic.Ring

/-!
# Lexical resolution of path segments

A relative path is a list of segments: skipped ones (empty or `.`), climbs (`..`) and
names. `resolve` is the usual stack pass, top first; a climb from the empty stack stays
at the bottom as `none`, for ever. `bottom_resolve_iff` says where a path ends up by
counting alone: the bottom of the stack is the name `a` exactly if some segment `a`
stands at height zero, nothing before it climbed below the start, and nothing after it
climbs below `a`.
-/

namespace HttpServer.Lib

/-- A path segment, by its effect on the directory the path denotes. -/
inductive Seg (α : Type*) where
  | skip
  | up
  | name (a : α)
  deriving DecidableEq, Repr

namespace Seg

variable {α : Type*}

/-- How far a segment moves away from the start of the path. -/
def rise : Seg α → Int
  | .skip => 0
  | .up => -1
  | .name _ => 1

/-- The height reached after all segments: names less climbs. -/
def height (path : List (Seg α)) : Int := (path.map rise).sum

/-- No prefix of the path has more climbs than names. -/
def StaysUp (path : List (Seg α)) : Prop := ∀ n, 0 ≤ height (path.take n)

@[simp] theorem height_nil : height ([] : List (Seg α)) = 0 := rfl

@[simp] theorem height_append (p q : List (Seg α)) : height (p ++ q) = height p + height q := by
  simp [height]

@[simp] theorem height_singleton (s : Seg α) : height [s] = s.rise := by simp [height]

theorem staysUp_nil : StaysUp ([] : List (Seg α)) := fun n => by simp

theorem StaysUp.height_nonneg {p : List (Seg α)} (up : StaysUp p) : 0 ≤ height p := by
  simpa using up p.length

theorem StaysUp.snoc {p : List (Seg α)} {s : Seg α} (up : StaysUp p) (last : 0 ≤ height p + s.rise) :
    StaysUp (p ++ [s]) := by
  intro n
  rcases Nat.lt_or_ge p.length n with beyond | within
  · rw [List.take_of_length_le (by simp; omega), height_append, height_singleton]
    exact last
  · rw [List.take_append_of_le_length within]
    exact up n

theorem StaysUp.init {p q : List (Seg α)} (up : StaysUp (p ++ q)) : StaysUp p := by
  intro n
  have here := up (min n p.length)
  rwa [List.take_append_of_le_length (Nat.min_le_right _ _), ← List.take_eq_take_min] at here

/-- One segment of the stack pass, top first. -/
def push : List (Option α) → Seg α → List (Option α)
  | st, .skip => st
  | some _ :: st, .up => st
  | st, .up => none :: st
  | st, .name a => some a :: st

/-- The stack pass over a whole path. -/
def resolve (path : List (Seg α)) : List (Option α) := path.foldl push []

@[simp] theorem resolve_nil : resolve ([] : List (Seg α)) = [] := rfl

theorem resolve_snoc (p : List (Seg α)) (s : Seg α) : resolve (p ++ [s]) = push (resolve p) s := by
  simp [resolve]

/-- A path that stays up resolves to names only, one for each unit of height. -/
theorem resolve_of_staysUp {p : List (Seg α)} (up : StaysUp p) :
    (∀ x ∈ resolve p, x ≠ none) ∧ ((resolve p).length : Int) = height p := by
  induction p using List.reverseRecOn with
  | nil => simp
  | append_singleton p s ih =>
    obtain ⟨names, size⟩ := ih up.init
    have last := up.height_nonneg
    rw [height_append, height_singleton] at last ⊢
    rw [resolve_snoc]
    cases s with
    | skip => simpa [push, rise] using ⟨names, size⟩
    | name a =>
      refine ⟨?_, by simp [push, rise, ← size]⟩
      intro x mem
      rcases List.mem_cons.mp mem with rfl | mem
      · simp
      · exact names x mem
    | up =>
      cases stack : resolve p with
      | nil => rw [stack] at size; simp [rise] at last size; omega
      | cons top rest =>
        rw [stack] at names size
        cases top with
        | none => exact absurd rfl (names none (by simp))
        | some b =>
          simp only [List.length_cons, Nat.cast_add, Nat.cast_one] at size
          exact ⟨fun x mem => names x (List.mem_cons_of_mem _ mem), by simp only [push, rise]; omega⟩

/-- A path that climbs below its start keeps an unresolved climb at the bottom. -/
theorem bottom_of_not_staysUp {p : List (Seg α)} (down : ¬ StaysUp p) :
    (resolve p).getLast? = some none := by
  induction p using List.reverseRecOn with
  | nil => exact absurd staysUp_nil down
  | append_singleton p s ih =>
    rw [resolve_snoc]
    by_cases up : StaysUp p
    · -- the climb is the last segment, from the empty stack
      obtain ⟨-, size⟩ := resolve_of_staysUp up
      have low : height p + s.rise < 0 := by
        by_contra high
        exact down (up.snoc (by omega))
      have nonneg := up.height_nonneg
      cases s with
      | skip => simp [rise] at low; omega
      | name a => simp [rise] at low; omega
      | up =>
        have empty : resolve p = [] := List.length_eq_zero_iff.mp (by simp [rise] at low; omega)
        simp [empty, push]
    · have bottom := ih up
      cases s with
      | skip => exact bottom
      | name a => cases stack : resolve p <;> simp_all [push]
      | up =>
        match stack : resolve p with
        | [] => simp [stack] at bottom
        | none :: rest => simpa [push, stack] using bottom
        | [some a] => simp [stack] at bottom
        | some a :: b :: rest => simpa [push, stack] using bottom

/-- Segments that stay up never touch the stack they start from. -/
theorem resolve_append_of_staysUp (p : List (Seg α)) {q : List (Seg α)} (up : StaysUp q) :
    resolve (p ++ q) = resolve q ++ resolve p := by
  induction q using List.reverseRecOn with
  | nil => simp
  | append_singleton q s ih =>
    have last := up.height_nonneg
    obtain ⟨names, size⟩ := resolve_of_staysUp up.init
    rw [← List.append_assoc, resolve_snoc, resolve_snoc, ih up.init]
    cases s with
    | skip => rfl
    | name a => cases resolve q <;> rfl
    | up =>
      cases stack : resolve q with
      | nil => rw [stack] at size; simp [rise] at last size; omega
      | cons top rest =>
        cases top with
        | none => exact absurd rfl (names none (by simp [stack]))
        | some b => rfl

/-- The path has a segment `a` at height zero, and from there on stays at or above it. -/
def Grounded (a : α) (path : List (Seg α)) : Prop :=
  ∃ before after, path = before ++ .name a :: after ∧
    StaysUp before ∧ height before = 0 ∧ StaysUp after

/-- From a ground segment that is never left, the stack is what follows it, over the segment. -/
theorem resolve_grounded {a : α} {before after : List (Seg α)} (upBefore : StaysUp before)
    (level : height before = 0) (upAfter : StaysUp after) :
    resolve (before ++ .name a :: after) = resolve after ++ [some a] := by
  obtain ⟨-, size⟩ := resolve_of_staysUp upBefore
  have empty : resolve before = [] := List.length_eq_zero_iff.mp (by omega)
  rw [← List.singleton_append, ← List.append_assoc, resolve_append_of_staysUp _ upAfter, resolve_snoc, empty]
  rfl

/-- An earlier ground segment, kept by a last segment that does not climb below it. -/
theorem Grounded.snoc {a : α} {p : List (Seg α)} {s : Seg α} (ground : Grounded a p)
    (safe : ∀ after : List (Seg α), StaysUp after →
      (resolve p).length = (resolve after).length + 1 → 0 ≤ height after + s.rise) :
    Grounded a (p ++ [s]) := by
  obtain ⟨before, after, rfl, upBefore, level, upAfter⟩ := ground
  refine ⟨before, after ++ [s], by simp, upBefore, level, upAfter.snoc (safe after upAfter ?_)⟩
  simp [resolve_grounded upBefore level upAfter]

/-- **Where a path ends up.** The resolved path lies at or below the name `a` exactly if
the path is grounded in `a`. -/
theorem bottom_resolve_iff (a : α) (p : List (Seg α)) :
    (resolve p).getLast? = some (some a) ↔ Grounded a p := by
  constructor
  · intro bottom
    induction p using List.reverseRecOn with
    | nil => simp at bottom
    | append_singleton p s ih =>
      have up : StaysUp p := by
        by_contra down
        have low : (resolve (p ++ [s])).getLast? = some none := bottom_of_not_staysUp fun all => down all.init
        rw [bottom] at low
        simp at low
      obtain ⟨-, size⟩ := resolve_of_staysUp up
      rw [resolve_snoc] at bottom
      cases s with
      | skip =>
        exact (ih bottom).snoc fun after upAfter _ => by simpa [rise] using upAfter.height_nonneg
      | name b =>
        cases stack : resolve p with
        | nil =>
          have same : b = a := by simpa [stack, push] using bottom
          have level : height p = 0 := by rw [← size, stack]; rfl
          exact ⟨p, [], by simp [same], up, level, staysUp_nil⟩
        | cons top rest =>
          refine (ih ?_).snoc fun after upAfter _ => ?_
          · simpa [stack, push] using bottom
          · have := upAfter.height_nonneg
            simp only [rise]
            omega
      | up =>
        match stack : resolve p with
        | [] => simp [stack, push] at bottom
        | none :: rest => exact absurd rfl ((resolve_of_staysUp up).1 none (by simp [stack]))
        | [some b] => simp [stack, push] at bottom
        | some b :: c :: rest =>
          refine (ih ?_).snoc fun after upAfter depth => ?_
          · simpa [stack, push] using bottom
          · obtain ⟨-, sizeAfter⟩ := resolve_of_staysUp upAfter
            simp only [stack, List.length_cons] at depth
            simp only [rise]
            omega
  · rintro ⟨before, after, rfl, upBefore, level, upAfter⟩
    simp [resolve_grounded upBefore level upAfter]

/-- A further name at the end leaves the bottom where it is, unless the stack was empty. -/
theorem grounded_snoc_name {a b : α} (other : b ≠ a) (p : List (Seg α)) :
    Grounded a (p ++ [.name b]) ↔ Grounded a p := by
  rw [← bottom_resolve_iff, ← bottom_resolve_iff, resolve_snoc]
  cases stack : resolve p with
  | nil => simp [push, other]
  | cons top rest => simp [push]

/-- A path that starts at `a` and stays up from there is grounded in `a`. -/
theorem grounded_of_staysUp (a : α) {p : List (Seg α)} (up : StaysUp p) : Grounded a (.name a :: p) :=
  ⟨[], p, rfl, staysUp_nil, rfl, up⟩

theorem grounded_snoc_skip (a : α) (p : List (Seg α)) : Grounded a (p ++ [.skip]) ↔ Grounded a p := by
  rw [← bottom_resolve_iff, ← bottom_resolve_iff, resolve_snoc, push]

end Seg

end HttpServer.Lib
