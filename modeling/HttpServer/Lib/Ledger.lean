import Mathlib.Data.Finset.Basic
import Mathlib.Algebra.Order.Group.Multiset

/-!
# Accounts of resources

An account is a list of entries, each taking a resource or giving one back. It settles when
every resource taken was free and every resource given back was held: nothing is taken
twice or given back twice. `settle_balance` is the conservation law: what was held at first
and what was taken, is what was given back and what is held at last.
-/

namespace HttpServer.Lib

/-- One entry of an account. -/
inductive Entry (α : Type*) where
  | take (a : α)
  | give (a : α)
  deriving DecidableEq

namespace Ledger
variable {α : Type*} [DecidableEq α]

/-- The resources held after an entry, if it is in order. -/
def post (held : Finset α) : Entry α → Option (Finset α)
  | .take a => if a ∈ held then none else some (insert a held)
  | .give a => if a ∈ held then some (held.erase a) else none

/-- The resources held after an account, if all of it is in order. -/
def settle (held : Finset α) (account : List (Entry α)) : Option (Finset α) := account.foldlM post held

/-- The resources an account takes, as often as it takes them. -/
def taken (account : List (Entry α)) : Multiset α :=
  account.filterMap fun | .take a => some a | .give _ => none

/-- The resources an account gives back. -/
def given (account : List (Entry α)) : Multiset α :=
  account.filterMap fun | .take _ => none | .give a => some a

@[simp] theorem settle_nil (held : Finset α) : settle held [] = some held := rfl

@[simp] theorem settle_cons (held : Finset α) (e : Entry α) (account : List (Entry α)) :
    settle held (e :: account) = (post held e).bind fun held => settle held account := by
  show (e :: account).foldlM post held = _
  rw [List.foldlM_cons]
  rfl

theorem settle_append (held : Finset α) (first second : List (Entry α)) :
    settle held (first ++ second) = (settle held first).bind fun held => settle held second := by
  show (first ++ second).foldlM post held = _
  rw [List.foldlM_append]
  rfl

theorem post_take {held : Finset α} {a : α} (free : a ∉ held) : post held (.take a) = some (insert a held) :=
  if_neg free

theorem post_give {held : Finset α} {a : α} (mem : a ∈ held) : post held (.give a) = some (held.erase a) :=
  if_pos mem

/-- **Conservation.** An account that settles loses no resource and makes none. -/
theorem settle_balance {start held : Finset α} {account : List (Entry α)} (settled : settle start account = some held) :
    start.val + taken account = given account + held.val := by
  induction account generalizing start with
  | nil =>
    cases settled
    simp [taken, given]
  | cons e account ih =>
    rw [settle_cons] at settled
    obtain ⟨mid, step, rest⟩ := Option.bind_eq_some_iff.mp settled
    have balance := ih rest
    cases e with
    | take a =>
      have free : a ∉ start := by
        intro mem
        simp [post, mem] at step
      rw [post_take free] at step
      cases step
      rw [Finset.insert_val_of_notMem free, Multiset.cons_add] at balance
      show start.val + (a ::ₘ taken account) = given account + held.val
      rw [Multiset.add_cons, balance]
    | give a =>
      have mem : a ∈ start := by
        by_contra free
        simp [post, free] at step
      rw [post_give mem] at step
      cases step
      show start.val + taken account = (a ::ₘ given account) + held.val
      rw [Multiset.cons_add, ← balance, Finset.erase_val, ← Multiset.cons_add, Multiset.cons_erase mem]

end Ledger

end HttpServer.Lib
