import HttpServer.Lib.Draining
import HttpServer.Lib.Mutex
import HttpServer.Logs.Format

/-!
# Threads that share a synchronous logger

`SyncLogger` with any number of threads, messages and sinks. A call that passes the level is
rendered without the mutex; `log` then has it while it writes to one sink after the other. The
sinks are kept by what they are asked to write. `Ordered` is the invariant: every sink has been
given the same texts in the order of the mutex, but for the one text that is on its way through
the sinks, and the texts of one thread are in the order of its calls.
-/

namespace HttpServer.Logs
open Lib
open Cgi (LogLevel SyncLogger)

/-- Where a thread is in a call of the logger: before the mutex, or with it and about to write to
a sink. -/
inductive SyncPc where
  | idle
  | lock (text : Bytes)
  | sink (text : Bytes) (next : Nat)
  deriving DecidableEq

/-- The thread has the mutex. -/
def SyncPc.locked : SyncPc → Bool
  | .sink _ _ => true
  | _ => false

/-- The text that has not been taken to the sinks. -/
def SyncPc.waiting : SyncPc → List Bytes
  | .lock text => [text]
  | _ => []

/-- The steps left until a call returns. -/
def SyncPc.rank (sinks : Nat) : SyncPc → Nat
  | .idle => 0
  | .lock _ => sinks + 2
  | .sink _ next => sinks + 1 - next

/-- The mutex, the threads and what each sink has been given, with the history of the texts by
the order of the mutex and by the order of each thread's calls. -/
structure SyncLogging (ι : Type) where
  mutex : Option ι
  threads : ι → SyncPc
  received : Nat → List Bytes
  entered : List (ι × Bytes)
  called : ι → List Bytes

/-- What happens next; `formatted` is the outcome of `vasprintf`. -/
inductive SyncAction (ι : Type) where
  | call (i : ι) (m : LogMsg) (formatted : Bool)
  | thread (i : ι)

/-- Not a new call. -/
def SyncAction.Inner {ι : Type} : SyncAction ι → Prop
  | .call _ _ _ => False
  | .thread _ => True

namespace SyncLogging
variable {ι : Type} [DecidableEq ι]

/-- A logger as constructed. -/
def new : SyncLogging ι where
  mutex := none
  threads := fun _ => .idle
  received := fun _ => []
  entered := []
  called := fun _ => []

/-- A thread calls `debug`, `info`, `warn`, `error` or `fatal`. -/
def stepCall (logger : SyncLogger) (render : LogMsg → Bytes) (s : SyncLogging ι) (i : ι) (m : LogMsg)
    (formatted : Bool) : Option (SyncLogging ι) :=
  match s.threads i with
  | .idle =>
    if logger.passes m.level formatted then
      some
        { s with
          threads := Function.update s.threads i (.lock (render m))
          called := Function.update s.called i (s.called i ++ [render m]) }
    else some s
  | _ => none

/-- A step of `SyncLogger::log`. -/
def stepThread (logger : SyncLogger) (s : SyncLogging ι) (i : ι) : Option (SyncLogging ι) :=
  match s.threads i with
  | .idle => none
  | .lock text =>
    if s.mutex = none then
      some
        { s with
          mutex := some i
          threads := Function.update s.threads i (.sink text 0)
          entered := s.entered ++ [(i, text)] }
    else none
  | .sink text next =>
    if next < logger.sinks then
      some
        { s with
          threads := Function.update s.threads i (.sink text (next + 1))
          received := Function.update s.received next (s.received next ++ [text]) }
    else some { s with mutex := none, threads := Function.update s.threads i .idle }

/-- The transitions. -/
def step (logger : SyncLogger) (render : LogMsg → Bytes) (s : SyncLogging ι) : SyncAction ι → Option (SyncLogging ι)
  | .call i m formatted => s.stepCall logger render i m formatted
  | .thread i => s.stepThread logger i

/-- The logger with its threads as a machine; `render` is `format` with the items of the pattern. -/
def machine (ι : Type) [DecidableEq ι] (logger : SyncLogger) (render : LogMsg → Bytes) :
    Machine (SyncLogging ι) (SyncAction ι) :=
  ⟨new, step logger render⟩

variable {logger : SyncLogger} {render : LogMsg → Bytes} {s s' : SyncLogging ι}

/-- The transitions one by one, with what enables them. -/
inductive Transition (logger : SyncLogger) (render : LogMsg → Bytes) (s : SyncLogging ι) :
    SyncAction ι → SyncLogging ι → Prop where
  | dropped {i : ι} {m : LogMsg} {formatted : Bool} (pc : s.threads i = .idle) :
      Transition logger render s (.call i m formatted) s
  | call {i : ι} {m : LogMsg} {formatted : Bool} (pc : s.threads i = .idle)
      (level : logger.limitLevel.value ≤ m.level.value) :
      Transition logger render s (.call i m formatted)
        { s with
          threads := Function.update s.threads i (.lock (render m))
          called := Function.update s.called i (s.called i ++ [render m]) }
  | enter {i : ι} {text : Bytes} (pc : s.threads i = .lock text) (free : s.mutex = none) :
      Transition logger render s (.thread i)
        { s with
          mutex := some i
          threads := Function.update s.threads i (.sink text 0)
          entered := s.entered ++ [(i, text)] }
  | write {i : ι} {text : Bytes} {next : Nat} (pc : s.threads i = .sink text next) (more : next < logger.sinks) :
      Transition logger render s (.thread i)
        { s with
          threads := Function.update s.threads i (.sink text (next + 1))
          received := Function.update s.received next (s.received next ++ [text]) }
  | leave {i : ι} {text : Bytes} {next : Nat} (pc : s.threads i = .sink text next) (last : logger.sinks ≤ next) :
      Transition logger render s (.thread i)
        { s with mutex := none, threads := Function.update s.threads i .idle }

theorem transition_of_step {a : SyncAction ι} (taken : s.step logger render a = some s') :
    Transition logger render s a s' := by
  cases a with
  | call i m formatted =>
    simp only [step, stepCall] at taken
    split at taken
    · rename_i pc
      split at taken <;> cases taken
      · rename_i passes
        refine .call pc ?_
        by_contra below
        simp [SyncLogger.passes, Nat.lt_of_not_le below] at passes
      · exact .dropped pc
    · cases taken
  | thread i =>
    simp only [step, stepThread] at taken
    split at taken
    · cases taken
    · rename_i pc
      split at taken <;> cases taken
      rename_i free
      exact .enter pc free
    · rename_i pc
      split at taken <;> cases taken
      · rename_i more
        exact .write pc more
      · rename_i last
        exact .leave pc (Nat.le_of_not_lt last)

/-! ## The invariant -/

/-- A thread is at a point where it has the mutex. -/
def inside (s : SyncLogging ι) (i : ι) : Bool := (s.threads i).locked

/-- All texts, in the order of the mutex. -/
def texts (s : SyncLogging ι) : List Bytes := s.entered.map Prod.snd

/-- The texts of one thread, in the order of the mutex. -/
def textsOf (s : SyncLogging ι) (i : ι) : List Bytes := (s.entered.filter fun entry => entry.1 = i).map Prod.snd

/-- The thread with the mutex has given its text, the last one, to the sinks before `next`. -/
def Written (logger : SyncLogger) (s : SyncLogging ι) : SyncPc → Prop
  | .sink text next => ∃ before, s.texts = before ++ [text] ∧ next ≤ logger.sinks ∧
      ∀ k < logger.sinks, s.received k = if k < next then before ++ [text] else before
  | _ => True

/-- The invariant of a shared logger. -/
structure Ordered (logger : SyncLogger) (render : LogMsg → Bytes) (s : SyncLogging ι) : Prop where
  exclusive : Exclusive s.mutex s.inside
  free : s.mutex = none → ∀ k < logger.sinks, s.received k = s.texts
  written : ∀ i, s.Written logger (s.threads i)
  own : ∀ i, s.textsOf i ++ (s.threads i).waiting = s.called i
  level : ∀ i, ∀ text ∈ s.called i, ∃ m : LogMsg, text = render m ∧ logger.limitLevel.value ≤ m.level.value

theorem ordered_new : (new : SyncLogging ι).Ordered logger render := by
  constructor
  case exclusive =>
    intro i
    simp [new, inside, SyncPc.locked]
  case free => exact fun _ _ _ => rfl
  case written => exact fun _ => trivial
  case own => exact fun _ => rfl
  case level => exact fun _ => nofun

/-- A step of thread `i` by one of the rules for a lock. -/
theorem exclusive_thread {i : ι} {pc : SyncPc} (inv : Exclusive s.mutex s.inside)
    (threads : s'.threads = Function.update s.threads i pc)
    (move : LockStep s.mutex s'.mutex i (s.threads i).locked pc.locked) : Exclusive s'.mutex s'.inside := by
  apply inv.step (h := i)
  · show LockStep _ _ _ (s.threads i).locked (s'.threads i).locked
    rw [threads, Function.update_self]
    exact move
  · intro j other
    show (s'.threads j).locked = (s.threads j).locked
    rw [threads, Function.update_of_ne other]

/-- Every thread has written as it should if the one that moved has and the others have. -/
theorem written_update {i : ι} {pc : SyncPc} (threads : s'.threads = Function.update s.threads i pc)
    (own : s'.Written logger pc) (others : ∀ j, j ≠ i → s'.Written logger (s.threads j)) (j : ι) :
    s'.Written logger (s'.threads j) := by
  rw [threads]
  by_cases same : j = i
  · subst same
    rw [Function.update_self]
    exact own
  · rw [Function.update_of_ne same]
    exact others j same

omit [DecidableEq ι] in
/-- Whoever has not the mutex has written nothing of the last text. -/
theorem written_outside {pc : SyncPc} (outside : pc.locked = false) : s.Written logger pc := by
  cases pc with
  | sink text next => cases outside
  | idle | lock text => trivial

/-- The others are outside while one thread has the mutex. -/
theorem Ordered.others (inv : s.Ordered logger render) {i j : ι} (held : (s.threads i).locked = true) (other : j ≠ i) :
    (s.threads j).locked = false := by
  have exclusive := inv.exclusive
  exact exclusive.outside held other

theorem Ordered.call (inv : s.Ordered logger render) {i : ι} {m : LogMsg} (pc : s.threads i = .idle)
    (level : logger.limitLevel.value ≤ m.level.value) :
    Ordered logger render
      { s with
        threads := Function.update s.threads i (.lock (render m))
        called := Function.update s.called i (s.called i ++ [render m]) } := by
  constructor
  case exclusive => exact exclusive_thread inv.exclusive rfl (.stay (by rw [pc]; rfl) rfl)
  case free => exact inv.free
  case written =>
    apply written_update rfl
    · trivial
    · intro j _
      exact inv.written j
  case own =>
    intro j
    have own := inv.own j
    by_cases same : j = i
    · subst same
      simp only [Function.update_self, SyncPc.waiting, ← own, pc, List.append_nil]
      rfl
    · simp only [Function.update_of_ne same]
      exact own
  case level =>
    intro j text mem
    by_cases same : j = i
    · subst same
      simp only [Function.update_self, List.mem_append, List.mem_singleton] at mem
      rcases mem with mem | rfl
      · exact inv.level j text mem
      · exact ⟨m, rfl, level⟩
    · simp only [Function.update_of_ne same] at mem
      exact inv.level j text mem

theorem Ordered.enter (inv : s.Ordered logger render) {i : ι} {text : Bytes} (pc : s.threads i = .lock text)
    (free : s.mutex = none) :
    Ordered logger render
      { s with
        mutex := some i
        threads := Function.update s.threads i (.sink text 0)
        entered := s.entered ++ [(i, text)] } := by
  have nobody (j : ι) : (s.threads j).locked = false := by
    by_contra within
    have held := (inv.exclusive j).mp (eq_true_of_ne_false within)
    rw [free] at held
    cases held
  constructor
  case exclusive => exact exclusive_thread inv.exclusive rfl (.acquire free rfl rfl)
  case free => exact nofun
  case written =>
    apply written_update rfl
    · refine ⟨s.texts, List.map_append, Nat.zero_le _, fun k below => ?_⟩
      rw [if_neg (Nat.not_lt_zero k)]
      exact inv.free free k below
    · intro j _
      exact written_outside (nobody j)
  case own =>
    intro j
    have own := inv.own j
    by_cases same : j = i
    · subst same
      rw [pc] at own
      simpa [textsOf, SyncPc.waiting] using own
    · simpa [textsOf, same, Ne.symm same] using own
  case level => exact inv.level

theorem Ordered.write (inv : s.Ordered logger render) {i : ι} {text : Bytes} {next : Nat}
    (pc : s.threads i = .sink text next) (more : next < logger.sinks) :
    Ordered logger render
      { s with
        threads := Function.update s.threads i (.sink text (next + 1))
        received := Function.update s.received next (s.received next ++ [text]) } := by
  have held : (s.threads i).locked = true := by rw [pc]; rfl
  have written := inv.written i
  rw [pc] at written
  obtain ⟨before, last, -, received⟩ := written
  constructor
  case exclusive => exact exclusive_thread inv.exclusive rfl (.stay (by rw [pc]; rfl) rfl)
  case free =>
    intro free
    have mine := (inv.exclusive i).mp held
    rw [show s.mutex = none from free] at mine
    cases mine
  case written =>
    apply written_update rfl
    · refine ⟨before, last, more, fun k below => ?_⟩
      have given := received k below
      by_cases here : k = next
      · subst here
        rw [if_neg (Nat.lt_irrefl k)] at given
        simp only [Function.update_self, given]
        rw [if_pos (Nat.lt_succ_self k)]
      · have same : k < next + 1 ↔ k < next := by omega
        simp only [Function.update_of_ne here, given, same]
    · intro j other
      exact written_outside (inv.others held other)
  case own =>
    intro j
    have own := inv.own j
    by_cases same : j = i
    · subst same
      rw [pc] at own
      simpa [textsOf, SyncPc.waiting] using own
    · simpa [textsOf, same] using own
  case level => exact inv.level

theorem Ordered.leave (inv : s.Ordered logger render) {i : ι} {text : Bytes} {next : Nat}
    (pc : s.threads i = .sink text next) (last : logger.sinks ≤ next) :
    Ordered logger render { s with mutex := none, threads := Function.update s.threads i .idle } := by
  have held : (s.threads i).locked = true := by rw [pc]; rfl
  have written := inv.written i
  rw [pc] at written
  obtain ⟨before, all, -, received⟩ := written
  constructor
  case exclusive => exact exclusive_thread inv.exclusive rfl (.release held rfl rfl)
  case free =>
    intro _ k below
    show s.received k = s.texts
    rw [received k below, if_pos (Nat.lt_of_lt_of_le below last), all]
  case written =>
    apply written_update rfl
    · trivial
    · intro j other
      exact written_outside (inv.others held other)
  case own =>
    intro j
    have own := inv.own j
    by_cases same : j = i
    · subst same
      rw [pc] at own
      simpa [textsOf, SyncPc.waiting] using own
    · simpa [textsOf, same] using own
  case level => exact inv.level

theorem ordered_step {a : SyncAction ι} (inv : s.Ordered logger render) (taken : s.step logger render a = some s') :
    s'.Ordered logger render := by
  cases transition_of_step taken with
  | dropped pc => exact inv
  | call pc level => exact inv.call pc level
  | enter pc free => exact inv.enter pc free
  | write pc more => exact inv.write pc more
  | leave pc last => exact inv.leave pc last

theorem ordered_of_reachable (reached : (machine ι logger render).Reachable s) : s.Ordered logger render := by
  refine reached.invariant ordered_new ?_
  intro s a s' inv _ taken
  exact ordered_step inv taken

/-! ## Every call returns -/

/-- Nobody is in a call. -/
def Quiet (s : SyncLogging ι) : Prop := ∀ i, s.threads i = .idle

theorem rank_lt [Fintype ι] {i : ι} (inv : s.Ordered logger render) (taken : s.stepThread logger i = some s') :
    total s'.threads (SyncPc.rank logger.sinks) < total s.threads (SyncPc.rank logger.sinks) := by
  have exchange := total_update s.threads (SyncPc.rank logger.sinks) i
  have written := inv.written i
  have taken : s.step logger render (.thread i) = some s' := taken
  cases transition_of_step taken with
  | @enter _ text pc free =>
    have change := exchange (.sink text 0)
    simp only [pc, SyncPc.rank] at change
    show total (Function.update s.threads i (.sink text 0)) _ < _
    omega
  | @write _ text next pc more =>
    have change := exchange (.sink text (next + 1))
    simp only [pc, SyncPc.rank] at change
    show total (Function.update s.threads i (.sink text (next + 1))) _ < _
    omega
  | @leave _ text next pc last =>
    have change := exchange .idle
    rw [pc] at written
    obtain ⟨-, -, within, -⟩ := written
    simp only [pc, SyncPc.rank] at change
    show total (Function.update s.threads i .idle) _ < _
    omega

/-- Only a quiet logger is stuck: whoever has the mutex can go on, and if nobody has it, so can
whoever wants it. -/
theorem quiet_of_stuck (inv : s.Ordered logger render) (stuck : (machine ι logger render).Stuck SyncAction.Inner s) :
    s.Quiet := by
  have blocked (i : ι) : s.stepThread logger i = none := stuck (.thread i) trivial
  have outside (i : ι) : (s.threads i).locked = false := by
    have blocked := blocked i
    unfold stepThread at blocked
    cases pc : s.threads i with
    | sink text next =>
      simp only [pc] at blocked
      split at blocked <;> cases blocked
    | idle | lock text => rfl
  have free : s.mutex = none := by
    cases held : s.mutex with
    | none => rfl
    | some i =>
      have within : (s.threads i).locked = true := (inv.exclusive i).mpr held
      rw [outside i] at within
      cases within
  intro i
  have blocked := blocked i
  unfold stepThread at blocked
  cases pc : s.threads i with
  | idle => rfl
  | lock text => simp [pc, free] at blocked
  | sink text next =>
    have outside := outside i
    rw [pc] at outside
    cases outside

/-! ## What follows -/

/-- **Shared logging is in order and whole.** In every state reached, the sinks have been given
the same texts in the order in which their calls got the mutex, each as one write, but for the
last text, which the sinks from some point on still lack while its call has the mutex; of each
thread the texts are in the order of its calls, and only a call that waits for the mutex is not
among them; and only messages of the logger's level are there. -/
theorem sync_ordered (reached : (machine ι logger render).Reachable s) :
    (∀ k < logger.sinks, s.received k = s.texts ∨
      ∃ i text next, s.mutex = some i ∧ s.threads i = .sink text next ∧ next ≤ k ∧ s.texts = s.received k ++ [text]) ∧
    (∀ i, s.textsOf i ++ (s.threads i).waiting = s.called i) ∧
    ∀ entry ∈ s.entered, ∃ m : LogMsg, entry.2 = render m ∧ logger.limitLevel.value ≤ m.level.value := by
  have inv := ordered_of_reachable reached
  refine ⟨?_, inv.own, ?_⟩
  · intro k below
    cases mutex : s.mutex with
    | none => exact .inl (inv.free mutex k below)
    | some i =>
      have held : (s.threads i).locked = true := (inv.exclusive i).mpr mutex
      have written := inv.written i
      cases pc : s.threads i with
      | idle | lock text =>
        rw [pc] at held
        cases held
      | sink text next =>
        rw [pc] at written
        obtain ⟨before, all, -, received⟩ := written
        have given := received k below
        by_cases passed : k < next
        · rw [if_pos passed] at given
          exact .inl (given.trans all.symm)
        · rw [if_neg passed] at given
          exact .inr ⟨i, text, next, rfl, pc, Nat.le_of_not_lt passed, by rw [given, all]⟩
  · rintro ⟨i, text⟩ mem
    have own : text ∈ s.textsOf i := List.mem_map.mpr ⟨(i, text), by simp [mem], rfl⟩
    apply inv.level i text
    rw [← inv.own i]
    exact List.mem_append_left _ own

/-- Two threads call; the text of the first has got to one sink of two. -/
def midway : List (SyncAction Bool) :=
  [.call true .hello true, .call false .hello true, .thread true, .thread true]

theorem sync_ordered_midway :
    ∃ s, (machine Bool ⟨.debug, 0, 2⟩ LogMsg.payload).exec new midway = some s ∧
      ∀ i, s.textsOf i ++ (s.threads i).waiting = s.called i := by
  refine ⟨_, rfl, ?_⟩
  apply And.left
  apply And.right
  exact sync_ordered (Machine.Reachable.exec .init
    (rfl : (machine Bool ⟨.debug, 0, 2⟩ LogMsg.payload).exec new midway = some _))

/-- **Every call is written out.** Without new calls the threads come to rest, whatever the
schedule, and then every sink has been given the texts of all calls, whole and in one order, which
for each thread is the order of its calls. -/
theorem sync_drains [Fintype ι] (reached : (machine ι logger render).Reachable s) :
    (machine ι logger render).Drains SyncAction.Inner
      (fun s => s.Quiet ∧ (∀ k < logger.sinks, s.received k = s.texts) ∧ ∀ i, s.textsOf i = s.called i) s := by
  apply Machine.drains_of_rank Nat.lt_wfRel.wf fun s => total s.threads (SyncPc.rank logger.sinks)
  · intro s a s' (inv : s.Ordered logger render) inner taken
    cases a with
    | call i m formatted => exact absurd inner id
    | thread i => exact ⟨ordered_step (a := .thread i) inv taken, rank_lt inv taken⟩
  · intro s inv stuck
    have quiet := quiet_of_stuck inv stuck
    refine ⟨quiet, ?_, ?_⟩
    · apply inv.free
      cases held : s.mutex with
      | none => rfl
      | some i =>
        have within : (s.threads i).locked = true := (inv.exclusive i).mpr held
        rw [quiet i] at within
        cases within
    · intro i
      have own := inv.own i
      simpa [quiet i, SyncPc.waiting] using own
  · exact ordered_of_reachable reached

theorem sync_drains_midway :
    ∃ s, (machine Bool ⟨.debug, 0, 2⟩ LogMsg.payload).exec new midway = some s ∧
      (machine Bool ⟨.debug, 0, 2⟩ LogMsg.payload).Drains SyncAction.Inner
        (fun s => s.Quiet ∧ (∀ k < 2, s.received k = s.texts) ∧ ∀ i, s.textsOf i = s.called i) s := by
  refine ⟨_, rfl, ?_⟩
  apply sync_drains
  exact Machine.Reachable.exec .init (rfl : (machine Bool ⟨.debug, 0, 2⟩ LogMsg.payload).exec new midway = some _)

end SyncLogging

end HttpServer.Logs
