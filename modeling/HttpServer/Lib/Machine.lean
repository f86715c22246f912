import Mathlib.Logic.Function.Basic

/-!
# Machines: labelled partial steps, runs and invariants

A machine is an initial state and a partial step on labelled actions. An action resolves
every choice the scheduler, the kernel or the environment makes, so `exec` replays a
schedule and a closed schedule evaluates. `ReachableIf ok` are the states of the runs
whose every step meets `ok`, a condition on the state before the step and the action
taken; `Reachable` are those of all runs. `ReachableIf.invariant` is the induction that
every safety theorem about a machine goes through. `Inevitable goal` are the states from
which every sequence of actions leads to the goal without getting stuck before it.
-/

namespace HttpServer.Lib

/-- An initial state and a partial step; `none` means the action is not enabled. -/
structure Machine (S A : Type*) where
  init : S
  step : S → A → Option S

namespace Machine

variable {S A : Type*} (M : Machine S A)

/-- The states of the runs whose every step meets `ok` in the state it leaves. -/
inductive ReachableIf (ok : S → A → Prop) : S → Prop where
  | init : ReachableIf ok M.init
  | step {s s' : S} {a : A} : ReachableIf ok s → ok s a → M.step s a = some s' → ReachableIf ok s'

/-- The states of all runs. -/
abbrev Reachable (s : S) : Prop := M.ReachableIf (fun _ _ => True) s

/-- Replay a schedule. -/
def exec : S → List A → Option S
  | s, [] => some s
  | s, a :: rest => (M.step s a).bind fun s' => exec s' rest

variable {M} {ok : S → A → Prop}

/-- What holds initially and survives every permitted step holds in every state reached. -/
@[elab_as_elim]
theorem ReachableIf.invariant {Inv : S → Prop} (start : Inv M.init)
    (keep : ∀ s a s', Inv s → ok s a → M.step s a = some s' → Inv s') {s : S}
    (reached : M.ReachableIf ok s) : Inv s := by
  induction reached with
  | init => exact start
  | step _ permitted taken ih => exact keep _ _ _ ih permitted taken

theorem ReachableIf.weaken {ok' : S → A → Prop} (imp : ∀ s a, ok s a → ok' s a) {s : S} (reached : M.ReachableIf ok s) :
    M.ReachableIf ok' s := by
  induction reached with
  | init => exact .init
  | step _ permitted taken ih => exact .step ih (imp _ _ permitted) taken

/-- Replaying a schedule stays among the states reached, if the condition always holds. -/
theorem ReachableIf.exec {s s' : S} {schedule : List A} (reached : M.ReachableIf ok s) (always : ∀ s a, ok s a)
    (run : M.exec s schedule = some s') : M.ReachableIf ok s' := by
  induction schedule generalizing s with
  | nil => cases run; exact reached
  | cons a rest ih =>
    obtain ⟨t, taken, run⟩ := Option.bind_eq_some_iff.mp run
    exact ih (.step reached (always s a) taken) run

/-- Or if it holds of the actions of the schedule. -/
theorem ReachableIf.exec_of_mem {s s' : S} {schedule : List A} (reached : M.ReachableIf ok s)
    (permitted : ∀ a ∈ schedule, ∀ s, ok s a) (run : M.exec s schedule = some s') : M.ReachableIf ok s' := by
  induction schedule generalizing s with
  | nil =>
    cases run
    exact reached
  | cons a rest ih =>
    obtain ⟨t, taken, run⟩ := Option.bind_eq_some_iff.mp run
    exact ih (.step reached (permitted a List.mem_cons_self s) taken)
      (fun b mem => permitted b (List.mem_cons_of_mem a mem)) run

theorem Reachable.exec {s s' : S} {schedule : List A} (reached : M.Reachable s)
    (run : M.exec s schedule = some s') : M.Reachable s' :=
  ReachableIf.exec reached (fun _ _ => trivial) run

@[simp] theorem exec_nil (s : S) : M.exec s [] = some s := rfl

theorem exec_cons (s : S) (a : A) (rest : List A) :
    M.exec s (a :: rest) = (M.step s a).bind fun s' => M.exec s' rest := rfl

theorem exec_singleton (s : S) (a : A) : M.exec s [a] = M.step s a := by
  rw [exec_cons]
  exact Option.bind_fun_some _

theorem exec_append (s : S) (first second : List A) :
    M.exec s (first ++ second) = (M.exec s first).bind fun s' => M.exec s' second := by
  induction first generalizing s with
  | nil => rfl
  | cons a rest ih =>
    rw [List.cons_append, exec_cons, exec_cons]
    cases M.step s a with
    | none => rfl
    | some s' => exact ih s'

/-- What survives every step survives a schedule. -/
theorem exec_invariant {Inv : S → Prop} (keep : ∀ s a s', Inv s → M.step s a = some s' → Inv s') {s s' : S}
    {schedule : List A} (run : M.exec s schedule = some s') (inv : Inv s) : Inv s' := by
  induction schedule generalizing s with
  | nil =>
    cases run
    exact inv
  | cons a rest ih =>
    obtain ⟨t, taken, run⟩ := Option.bind_eq_some_iff.mp run
    exact ih run (keep s a t inv taken)

variable (M) in
open Classical in
/-- The machine that takes only the steps that meet `ok`. -/
noncomputable def guarded (ok : S → A → Prop) : Machine S A := ⟨M.init, fun s a => if ok s a then M.step s a else none⟩

theorem guarded_step {s s' : S} {a : A} : (M.guarded ok).step s a = some s' ↔ ok s a ∧ M.step s a = some s' := by
  by_cases permitted : ok s a <;> simp [guarded, permitted]

theorem guarded_none {s : S} {a : A} (blocked : (M.guarded ok).step s a = none) (permitted : ok s a) :
    M.step s a = none := by
  simpa [guarded, permitted] using blocked

/-- It reaches what runs under the condition reach. -/
theorem ReachableIf.of_guarded {s : S} (reached : (M.guarded ok).Reachable s) : M.ReachableIf ok s := by
  induction reached with
  | init => exact .init
  | step _ _ taken ih =>
    obtain ⟨permitted, taken⟩ := guarded_step.mp taken
    exact .step ih permitted taken

theorem ReachableIf.guarded {s : S} (reached : M.ReachableIf ok s) : (M.guarded ok).Reachable s := by
  induction reached with
  | init => exact .init
  | step _ permitted taken ih => exact .step ih trivial (guarded_step.mpr ⟨permitted, taken⟩)

variable (M) in
/-- Until the goal is reached every action is enabled, and it is reached after finitely many. -/
inductive Inevitable (goal : S → Prop) : S → Prop where
  | done {s : S} : goal s → Inevitable goal s
  | step {s : S} : (∀ a, (M.step s a).isSome) → (∀ a s', M.step s a = some s' → Inevitable goal s') →
      Inevitable goal s

variable {goal : S → Prop}

/-- Where every action is enabled and lowers a rank until the goal is reached, it is inevitable. -/
theorem Inevitable.of_rank {Inv : S → Prop} (rank : S → Nat)
    (progress : ∀ s, Inv s → ¬ goal s → ∀ a, ∃ s', M.step s a = some s' ∧ Inv s' ∧ rank s' < rank s) {s : S}
    (inv : Inv s) : M.Inevitable goal s := by
  induction level : rank s using Nat.strongRecOn generalizing s with
  | ind n ih =>
    by_cases reached : goal s
    · exact .done reached
    · apply Inevitable.step
      · intro a
        obtain ⟨s', taken, -⟩ := progress s inv reached a
        rw [taken]
        rfl
      · intro a s' taken
        obtain ⟨t, same, inv, less⟩ := progress s inv reached a
        obtain rfl := Option.some.inj (taken.symm.trans same)
        exact ih (rank s') (level ▸ less) inv rfl

/-- Some sequence of actions leads to what is inevitable. -/
theorem Inevitable.exec [Inhabited A] {s : S} (inevitable : M.Inevitable goal s) :
    ∃ schedule s', M.exec s schedule = some s' ∧ goal s' := by
  induction inevitable with
  | @done s reached => exact ⟨[], s, rfl, reached⟩
  | @step s enabled _ ih =>
    obtain ⟨t, taken⟩ := Option.isSome_iff_exists.mp (enabled default)
    obtain ⟨schedule, s', run, reached⟩ := ih default t taken
    refine ⟨default :: schedule, s', ?_, reached⟩
    rw [exec_cons, taken]
    exact run

end Machine

end HttpServer.Lib
