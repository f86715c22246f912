import HttpServer.Lib.Machine
import Mathlib.Data.List.Induction

/-!
# Refinement between machines

`M.RunIf ok as s`: the schedule `as` leads to `s`, and every step of it meets `ok` in the
state it leaves. `M` refines `N` through a relation `R` if the initial states are related and
`N` answers every permitted step of `M` with a step of its own (`Refines`); then `N` answers
every run, and ends in a related state (`Refines.run`).
-/

namespace HttpServer.Lib.Machine

variable {S A T B : Type*} {M : Machine S A} {N : Machine T B} {ok : S → A → Prop} {s s' : S}

variable (M) in
/-- The runs from the initial state, by their schedules. -/
inductive RunIf (ok : S → A → Prop) : List A → S → Prop where
  | init : RunIf ok [] M.init
  | step {as : List A} {s s' : S} {a : A} : RunIf ok as s → ok s a → M.step s a = some s' → RunIf ok (as ++ [a]) s'

/-- Where every step is permitted, replaying a schedule is a run. -/
theorem RunIf.of_exec (always : ∀ s a, ok s a) {as : List A} (ran : M.exec M.init as = some s) : M.RunIf ok as s := by
  induction as using List.reverseRecOn generalizing s with
  | nil =>
    cases ran
    exact .init
  | append_singleton as a ih =>
    rw [exec_append] at ran
    obtain ⟨s', before, last⟩ := Option.bind_eq_some_iff.mp ran
    obtain ⟨t, taken, done⟩ := Option.bind_eq_some_iff.mp last
    cases done
    exact (ih before).step (always s' a) taken

/-- `M` is matched by `N` step for step; `label` says what an action of `M` is to `N`. -/
structure Refines (M : Machine S A) (N : Machine T B) (label : A → B) (ok : S → A → Prop) (R : S → T → Prop) :
    Prop where
  init : R M.init N.init
  step : ∀ s t a s', R s t → ok s a → M.step s a = some s' → ∃ t', N.step t (label a) = some t' ∧ R s' t'

/-- Every run of `M` is one of `N` on the same actions. -/
theorem Refines.run {label : A → B} {R : S → T → Prop} (refines : M.Refines N label ok R) {as : List A}
    (run : M.RunIf ok as s) : ∃ t, N.exec N.init (as.map label) = some t ∧ R s t := by
  induction run with
  | init => exact ⟨N.init, rfl, refines.init⟩
  | @step as s s' a _ permitted taken ih =>
    obtain ⟨t, ran, related⟩ := ih
    obtain ⟨t', answered, related'⟩ := refines.step s t a s' related permitted taken
    refine ⟨t', ?_, related'⟩
    rw [List.map_append, exec_append, ran, Option.bind_some, List.map_singleton, exec_cons, answered]
    rfl

end HttpServer.Lib.Machine
