import Mathlib.Logic.Function.Basic

/-!
# Mutual exclusion

A lock records its holder, and each thread is inside its critical section or not. If the two
always agree (`Exclusive`), no two threads are inside at once. A step of one thread keeps
the agreement by one of three rules: it stays where it is, it enters a free lock, or it
leaves a lock it is inside of.
-/

namespace HttpServer.Lib

/-- A thread is inside exactly if it holds the lock. -/
def Exclusive {H : Type*} (holder : Option H) (inside : H → Bool) : Prop := ∀ h, inside h = true ↔ holder = some h

/-- What a step of thread `h`, inside or not before and after it, does to the lock. -/
inductive LockStep {H : Type*} (holder holder' : Option H) (h : H) (before after : Bool) : Prop where
  | stay (own : after = before) (lock : holder' = holder)
  | acquire (free : holder = none) (enters : after = true) (lock : holder' = some h)
  | release (held : before = true) (leaves : after = false) (lock : holder' = none)

namespace Exclusive
variable {H : Type*} {holder : Option H} {inside inside' : H → Bool} {h h' : H}

/-- No two threads are inside. -/
theorem unique (inv : Exclusive holder inside) (first : inside h = true) (second : inside h' = true) : h = h' := by
  have held := (inv h).mp first
  rw [(inv h').mp second] at held
  exact (Option.some.inj held).symm

/-- While one thread is inside, no other is. -/
theorem outside (inv : Exclusive holder inside) (first : inside h = true) (other : h' ≠ h) : inside h' = false := by
  by_contra within
  exact other (inv.unique (eq_true_of_ne_false within) first)

/-- A step of `h` by one of the rules, while the others stay where they are. -/
theorem step {holder' : Option H} (inv : Exclusive holder inside)
    (move : LockStep holder holder' h (inside h) (inside' h))
    (others : ∀ h', h' ≠ h → inside' h' = inside h') : Exclusive holder' inside' := by
  intro h'
  by_cases same : h' = h
  · subst same
    cases move with
    | stay own lock => rw [own, lock, inv h']
    | acquire free enters lock => simp [enters, lock]
    | release held leaves lock => simp [leaves, lock]
  · rw [others h' same]
    cases move with
    | stay own lock => rw [lock, inv h']
    | acquire free enters lock => simp [inv h', free, lock, Ne.symm same]
    | release held leaves lock => simp [inv.outside held same, lock]

end Exclusive

end HttpServer.Lib
