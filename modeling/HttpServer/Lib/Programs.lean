import Mathlib.Algebra.Order.Group.Multiset

/-!
# Programs of calls, and what they own

A `Program` makes calls and goes on with the answers. `run` answers its calls one after the
other, by a function of a state. A program is finite; a loop without a bound is a program for
each round, with which `resume` goes on where the one before has ended. A `Discipline` says what
calls do to resources: those a call is made on, those it gives back, those it takes with its
answer, and how many of these the program will be left with. A program that `Keeps` a discipline
only makes calls on resources it owns, whatever the answers; `Keeps.bind` composes such proofs,
and `Keeps.step` shows that a call moves resources between the program and a table it shares with
others.
-/

namespace HttpServer.Lib

/-- A program that makes calls `c : C`, each answered by an `R c`, and returns an `α`. -/
inductive Program (C : Type) (R : C → Type) (α : Type) where
  | ret (a : α)
  | call (c : C) (next : R c → Program C R α)

namespace Program
variable {C : Type} {R : C → Type} {α β : Type}

/-- One program after another. -/
protected def bind : Program C R α → (α → Program C R β) → Program C R β
  | ret a, f => f a
  | call c next, f => call c fun r => (next r).bind f

instance : Monad (Program C R) where
  pure := ret
  bind := Program.bind

/-- A single call. -/
def perform (c : C) : Program C R (R c) := call c ret

/-- Answer the calls one after the other. -/
def run {S : Type} (answer : (c : C) → S → R c × S) : Program C R α → S → α × S
  | ret a, s => (a, s)
  | call c next, s => (next (answer c s).1).run answer (answer c s).2

section Run
variable {S : Type} (answer : (c : C) → S → R c × S) (s : S)

@[simp] theorem run_pure (a : α) : (pure a : Program C R α).run answer s = (a, s) := rfl

@[simp] theorem run_perform (c : C) : (perform c : Program C R (R c)).run answer s = answer c s := rfl

@[simp] theorem run_bind (p : Program C R α) (f : α → Program C R β) :
    (p >>= f).run answer s = (f (p.run answer s).1).run answer (p.run answer s).2 := by
  induction p generalizing s with
  | ret a => rfl
  | call c next ih => exact ih _ _

theorem run_ite (c : Prop) [Decidable c] (p q : Program C R α) :
    (if c then p else q).run answer s = if c then p.run answer s else q.run answer s := by
  split <;> rfl

end Run

/-- A program that has ended goes on with `f`. -/
def resume (f : α → Program C R α) : Program C R α → Program C R α
  | ret a => f a
  | call c next => call c next

@[simp] theorem resume_ret (f : α → Program C R α) (a : α) : (ret a : Program C R α).resume f = f a := rfl

@[simp] theorem resume_call (f : α → Program C R α) (c : C) (next : R c → Program C R α) :
    (call c next).resume f = call c next := rfl

end Program

/-- What the calls of a program do to the resources it owns. -/
structure Discipline (C : Type) (R : C → Type) (D : Type) where
  uses : C → List D
  gives : C → Multiset D
  takes : (c : C) → R c → Multiset D
  owes : (c : C) → R c → Nat

/-- A program that owns `live`, of which it will be left with `debt`, only makes calls on what
it owns, and returns with `post`. -/
inductive Keeps {C : Type} {R : C → Type} {D α : Type} (E : Discipline C R D) (post : α → Multiset D → Nat → Prop) :
    Multiset D → Nat → Program C R α → Prop where
  | ret {live : Multiset D} {debt : Nat} {a : α} : post a live debt → Keeps E post live debt (.ret a)
  | call {rest : Multiset D} {debt : Nat} {c : C} {next : R c → Program C R α} :
      (∀ d ∈ E.uses c, d ∈ E.gives c + rest) →
      (∀ r, Keeps E post (E.takes c r + rest) (debt + E.owes c r) (next r)) →
      Keeps E post (E.gives c + rest) debt (.call c next)

namespace Keeps
variable {C : Type} {R : C → Type} {D α β : Type} {E : Discipline C R D} {live : Multiset D} {debt : Nat}
  {post : α → Multiset D → Nat → Prop}

theorem pure {a : α} (done : post a live debt) : Keeps E post live debt (Pure.pure a) := .ret done

/-- Two programs, one after the other. -/
theorem bind {between : β → Multiset D → Nat → Prop} {p : Program C R β} {f : β → Program C R α}
    (first : Keeps E between live debt p)
    (second : ∀ b live' debt', between b live' debt' → Keeps E post live' debt' (f b)) :
    Keeps E post live debt (p >>= f) := by
  induction first with
  | ret done => exact second _ _ _ done
  | call own _ ih => exact .call own ih

/-- What is owned and owed is as before. -/
def Same (live : Multiset D) (debt : Nat) : α → Multiset D → Nat → Prop :=
  fun _ live' debt' => live' = live ∧ debt' = debt

theorem bind_same {live' : Multiset D} {debt' : Nat} {p : Program C R β} {f : β → Program C R α}
    (first : Keeps E (Same live' debt') live debt p) (second : ∀ b, Keeps E post live' debt' (f b)) :
    Keeps E post live debt (p >>= f) := by
  apply first.bind
  rintro b _ _ ⟨rfl, rfl⟩
  exact second b

/-- A call that is the whole program. -/
theorem perform {rest : Multiset D} {c : C} {post : R c → Multiset D → Nat → Prop}
    (own : ∀ d ∈ E.uses c, d ∈ E.gives c + rest)
    (done : ∀ r, post r (E.takes c r + rest) (debt + E.owes c r)) :
    Keeps E post (E.gives c + rest) debt (Program.perform c) :=
  .call own fun r => .ret (done r)

/-- A call that moves nothing. -/
theorem silent (c : C) (own : ∀ d ∈ E.uses c, d ∈ live) (gives : E.gives c = 0) (takes : ∀ r, E.takes c r = 0)
    (owes : ∀ r, E.owes c r = 0) : Keeps E (Same live debt) live debt (Program.perform c) := by
  have all := @perform _ _ _ E debt live c (Same live debt)
  simp only [gives, takes, owes, zero_add, add_zero] at all
  exact all own fun _ => ⟨rfl, rfl⟩

theorem weaken {post' : α → Multiset D → Nat → Prop} {p : Program C R α} (keeps : Keeps E post live debt p)
    (imp : ∀ a live debt, post a live debt → post' a live debt) : Keeps E post' live debt p := by
  induction keeps with
  | ret done => exact .ret (imp _ _ _ done)
  | call own _ ih => exact .call own ih

/-- What a program ends with is what the next one has. -/
theorem resume {p : Program C R α} {f : α → Program C R α} (keeps : Keeps E post live debt p)
    (next : ∀ a live debt, post a live debt → Keeps E post live debt (f a)) :
    Keeps E post live debt (p.resume f) := by
  cases keeps with
  | ret done => exact next _ _ _ done
  | call own later => exact .call own later

theorem of_ret {a : α} (keeps : Keeps E post live debt (.ret a)) : post a live debt := by
  cases keeps with
  | ret done => exact done

/-- What the next call is made on, or gives back, is owned. -/
theorem owns {c : C} {next : R c → Program C R α} (keeps : Keeps E post live debt (.call c next)) {d : D}
    (used : d ∈ E.uses c ∨ d ∈ E.gives c) : d ∈ live := by
  cases keeps with
  | call own _ =>
    rcases used with used | given
    · exact own d used
    · exact Multiset.mem_add.mpr (.inl given)

/-- A call moves what it gives and takes; what others own stays. -/
theorem step {c : C} {next : R c → Program C R α} (keeps : Keeps E post live debt (.call c next)) (r : R c) :
    ∃ live', Keeps E post live' (debt + E.owes c r) (next r) ∧ live' + E.gives c = E.takes c r + live := by
  cases keeps with
  | @call rest _ _ _ own later =>
    refine ⟨_, later r, ?_⟩
    ac_rfl

end Keeps

end HttpServer.Lib
