import HttpServer.Lib.Counting
import HttpServer.Lib.Machine
import Mathlib.Data.Prod.Lex
import Mathlib.Logic.Hydra

/-!
# Runs that end

`M.Drains P goal s`: from `s`, no infinite run has all its actions in `P`, and wherever such a
run cannot go on the goal is reached. `drains_of_rank` gets it from a rank that every action
in `P` lowers in a well-founded order, and an invariant that only the goal leaves stuck.
`wellFounded_oneLower` is the order for threads that end one by one: one of them is lowered
and the others stay.
-/

namespace HttpServer.Lib

namespace Machine
variable {S A : Type*} (M : Machine S A)

/-- No action in `P` is enabled. -/
def Stuck (P : A → Prop) (s : S) : Prop := ∀ a, P a → M.step s a = none

/-- A step by an action in `P`. -/
def StepIn (P : A → Prop) (s' s : S) : Prop := ∃ a, P a ∧ M.step s a = some s'

/-- Every run in `P` ends, and in the goal. -/
structure Drains (P : A → Prop) (goal : S → Prop) (s : S) : Prop where
  ends : Acc (M.StepIn P) s
  reaches : ∀ as s', (∀ a ∈ as, P a) → M.exec s as = some s' → M.Stuck P s' → goal s'

variable {M} {P : A → Prop} {goal Inv : S → Prop} {s : S}

/-- What each step in `P` keeps, a run in `P` keeps. -/
theorem exec_keeps (keep : ∀ s a s', Inv s → P a → M.step s a = some s' → Inv s') {as : List A} {s' : S}
    (permitted : ∀ a ∈ as, P a) (ran : M.exec s as = some s') (inv : Inv s) : Inv s' := by
  induction as generalizing s with
  | nil =>
    cases ran
    exact inv
  | cons a rest ih =>
    obtain ⟨t, taken, ran⟩ := Option.bind_eq_some_iff.mp ran
    apply ih (fun b mem => permitted b (List.mem_cons_of_mem a mem)) ran
    exact keep s a t inv (permitted a List.mem_cons_self) taken

/-- Where every action in `P` lowers a rank and only the goal is stuck, runs in `P` end there. -/
theorem drains_of_rank {B : Type*} {r : B → B → Prop} (wf : WellFounded r) (rank : S → B)
    (lower : ∀ s a s', Inv s → P a → M.step s a = some s' → Inv s' ∧ r (rank s') (rank s))
    (settled : ∀ s, Inv s → M.Stuck P s → goal s) (inv : Inv s) : M.Drains P goal s := by
  constructor
  case ends =>
    induction level : rank s using wf.induction generalizing s with
    | _ b ih =>
      constructor
      rintro s' ⟨a, permitted, taken⟩
      obtain ⟨inv', less⟩ := lower s a s' inv permitted taken
      exact ih (rank s') (level ▸ less) inv' rfl
  case reaches =>
    intro as s' permitted ran stuck
    apply settled s' _ stuck
    exact exec_keeps (fun s a s' inv ok taken => (lower s a s' inv ok taken).1) permitted ran inv

/-- Such a run can be made. -/
theorem Drains.exec (drains : M.Drains P goal s) : ∃ as s', (∀ a ∈ as, P a) ∧ M.exec s as = some s' ∧ goal s' := by
  obtain ⟨ends, reaches⟩ := drains
  induction ends with
  | intro s _ ih =>
    by_cases stuck : M.Stuck P s
    · exact ⟨[], s, by simp, rfl, reaches [] s (by simp) rfl stuck⟩
    · unfold Stuck at stuck
      push Not at stuck
      obtain ⟨a, permitted, enabled⟩ := stuck
      obtain ⟨t, taken⟩ := Option.ne_none_iff_exists'.mp enabled
      have go (as : List A) : M.exec s (a :: as) = M.exec t as := by rw [exec_cons, taken, Option.bind_some]
      have all (as : List A) (later : ∀ b ∈ as, P b) : ∀ b ∈ a :: as, P b := by
        simpa [permitted] using later
      obtain ⟨as, s', later, ran, reached⟩ := ih t ⟨a, permitted, taken⟩ fun as s' later ran =>
        reaches (a :: as) s' (all as later) ((go as).trans ran)
      exact ⟨a :: as, s', all as later, (go as).trans ran, reached⟩

end Machine

/-! ## Threads that end one by one -/

section Threads
variable {ι σ : Type*} [DecidableEq ι]

/-- One thread is lowered, the others stay. -/
def OneLower (r : σ → σ → Prop) (f' f : ι → σ) : Prop := ∃ i b, r b (f i) ∧ f' = Function.update f i b

/-- If each of finitely many threads ends by itself, they end together. -/
theorem wellFounded_oneLower [Fintype ι] {r : σ → σ → Prop} (wf : WellFounded r) :
    WellFounded (OneLower (ι := ι) r) := by
  -- the multiset of the threads' states loses one and gains a lower one
  apply Subrelation.wf _ (InvImage.wf (fun f => total f fun b => ({b} : Multiset σ)) wf.cutExpand)
  rintro f' f ⟨i, b, lower, rfl⟩
  refine ⟨{b}, f i, ?_, total_update f _ i b⟩
  intro c mem
  rw [Multiset.mem_singleton.mp mem]
  exact lower

end Threads

/-- Below what ends, an order is well founded. -/
theorem wellFounded_acc {σ : Type*} (r : σ → σ → Prop) : WellFounded fun y x => Acc r x ∧ r y x := by
  constructor
  intro x
  constructor
  rintro y ⟨ends, lower⟩
  have acc := ends.inv lower
  clear lower
  induction acc with
  | intro y _ ih => exact ⟨y, fun z below => ih z below.2⟩

end HttpServer.Lib
