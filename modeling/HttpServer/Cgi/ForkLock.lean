import HttpServer.Cgi.ForkedChild
import HttpServer.Lib.Mutex

/-!
# The locks of the logger and the fork

Any number of threads that log through a `SyncLogger`, and that fork CGI children in
`ProcessCgi`. `child_reaches_execl` shows that a child gets to `execl`, in every run in which
a child that will log is forked only while the logger's mutex and the time zone lock of the C
library are free; `child_hangs` has a run in which each was not.
-/

namespace HttpServer.Cgi
open Lib Protocol

/-! ## The server -/

/-- Where a thread of the server is: out of the logger, in `serialize`, or in the read loop of
`ProcessCgi`. -/
inductive ThreadPc where
  | outside
  | log (pc : LogPc)
  | read (pid : Nat)
  deriving DecidableEq, Repr

namespace ThreadPc

/-- Where a step of `serialize` leads. -/
def next : Option LogPc → ThreadPc
  | some pc => .log pc
  | none => .outside

/-- The thread has the time zone lock. -/
def hasZone : ThreadPc → Bool
  | .log pc => pc.hasZone
  | _ => false

/-- The thread has the mutex. -/
def hasMutex : ThreadPc → Bool
  | .log pc => pc.hasMutex
  | _ => false

theorem hasZone_next (next : Option LogPc) : (ThreadPc.next next).hasZone = next.any LogPc.hasZone := by
  cases next <;> rfl

theorem hasMutex_next (next : Option LogPc) : (ThreadPc.next next).hasMutex = next.any LogPc.hasMutex := by
  cases next <;> rfl

end ThreadPc

/-- The two locks, the threads, and the children in the order of their forks. -/
structure LoggingServer (ι : Type) where
  zone : Option ι
  mutex : Option ι
  threads : ι → ThreadPc
  children : List ForkedChild

/-- What happens next: a thread calls the logger, makes a step in `serialize`, forks, or sees the
end of its read loop; a child makes a step. -/
inductive LoggingAction (ι : Type) where
  | call (i : ι) (level : LogLevel) (formatted : Bool)
  | thread (i : ι)
  | fork (i : ι) (method : Bytes)
  | endOfFile (i : ι)
  | child (pid : Nat) (ok : Bool)

/-- A lock after a step of thread `i`, which had it before the step or not, and has it now or
not. -/
def lockAfter {ι : Type} (lock : Option ι) (i : ι) (had has : Bool) : Option ι :=
  if has then some i else if had then none else lock

namespace LoggingServer
variable {ι : Type} [DecidableEq ι]

/-- Nobody logs. -/
def new : LoggingServer ι := ⟨none, none, fun _ => .outside, []⟩

/-- Thread `i` goes to `pc`. -/
def setThread (s : LoggingServer ι) (i : ι) (pc : ThreadPc) : LoggingServer ι :=
  { s with threads := Function.update s.threads i pc }

/-- A call of the logger, up to `serialize`. -/
def stepCall (logger : SyncLogger) (s : LoggingServer ι) (i : ι) (level : LogLevel) (formatted : Bool) :
    Option (LoggingServer ι) :=
  match s.threads i with
  | .outside => if logger.passes level formatted then some (s.setThread i (.log logger.start)) else some s
  | _ => none

/-- A step of a thread in `serialize`. -/
def stepThread (logger : SyncLogger) (s : LoggingServer ι) (i : ι) : Option (LoggingServer ι) :=
  match s.threads i with
  | .log pc =>
    match logger.serialize (s.zone = none) (s.mutex = none) pc with
    | some next => some ({ s with
        zone := lockAfter s.zone i pc.hasZone (next.any LogPc.hasZone)
        mutex := lockAfter s.mutex i pc.hasMutex (next.any LogPc.hasMutex) }.setThread i (.next next))
    | none => none
  | _ => none

/-- The state of a lock in a new child. -/
def copyLock (lock : Option ι) : LockCopy := if lock.isNone then .free else .stale

/-- The child of a `fork` in `ProcessCgi`. -/
def forked (s : LoggingServer ι) (method : Bytes) : ForkedChild :=
  .new method (copyLock s.zone) (copyLock s.mutex)

/-- `fork` in `ProcessCgi`; the parent goes on to its read loop. -/
def stepFork (s : LoggingServer ι) (i : ι) (method : Bytes) : Option (LoggingServer ι) :=
  match s.threads i with
  | .outside => some ({ s with children := s.children ++ [s.forked method] }.setThread i (.read s.children.length))
  | _ => none

/-- The read loop ends once the child has exited. -/
def stepEndOfFile (s : LoggingServer ι) (i : ι) : Option (LoggingServer ι) :=
  match s.threads i with
  | .read pid => if s.children[pid]?.all fun c => c.pc = .exited then some (s.setThread i .outside) else none
  | _ => none

/-- A step of a child. -/
def stepChild (logger : SyncLogger) (s : LoggingServer ι) (pid : Nat) (ok : Bool) : Option (LoggingServer ι) :=
  match s.children[pid]? with
  | some c =>
    match c.step logger ok with
    | some c => some { s with children := s.children.set pid c }
    | none => none
  | none => none

/-- The transitions. -/
def step (logger : SyncLogger) (s : LoggingServer ι) : LoggingAction ι → Option (LoggingServer ι)
  | .call i level formatted => s.stepCall logger i level formatted
  | .thread i => s.stepThread logger i
  | .fork i method => s.stepFork i method
  | .endOfFile i => s.stepEndOfFile i
  | .child pid ok => s.stepChild logger pid ok

/-- The threads and their children as a machine. -/
def machine (logger : SyncLogger) (ι : Type) [DecidableEq ι] : Machine (LoggingServer ι) (LoggingAction ι) :=
  ⟨new, step logger⟩

/-! ## Transitions -/

variable {logger : SyncLogger} {s s' : LoggingServer ι}

/-- What a step can do. -/
inductive Transition (logger : SyncLogger) (s : LoggingServer ι) : LoggingAction ι → LoggingServer ι → Prop where
  | drop (i : ι) (level : LogLevel) (formatted : Bool) : Transition logger s (.call i level formatted) s
  | call {i : ι} (level : LogLevel) (formatted : Bool) (out : s.threads i = .outside) :
      Transition logger s (.call i level formatted) (s.setThread i (.log logger.start))
  | thread {i : ι} {pc : LogPc} {next : Option LogPc} (logging : s.threads i = .log pc)
      (moved : logger.serialize (s.zone = none) (s.mutex = none) pc = some next) :
      Transition logger s (.thread i) ({ s with
        zone := lockAfter s.zone i pc.hasZone (next.any LogPc.hasZone)
        mutex := lockAfter s.mutex i pc.hasMutex (next.any LogPc.hasMutex) }.setThread i (.next next))
  | fork {i : ι} (method : Bytes) (out : s.threads i = .outside) :
      Transition logger s (.fork i method)
        ({ s with children := s.children ++ [s.forked method] }.setThread i (.read s.children.length))
  | endOfFile {i : ι} {pid : Nat} (reading : s.threads i = .read pid)
      (exited : (s.children[pid]?.all fun c => c.pc = .exited) = true) :
      Transition logger s (.endOfFile i) (s.setThread i .outside)
  | child {pid : Nat} {ok : Bool} {c c' : ForkedChild} (found : s.children[pid]? = some c)
      (moved : c.step logger ok = some c') :
      Transition logger s (.child pid ok) { s with children := s.children.set pid c' }

theorem transition_of_step {a : LoggingAction ι} (taken : s.step logger a = some s') : Transition logger s a s' := by
  cases a with
  | call i level formatted =>
    simp only [step, stepCall] at taken
    split at taken
    case h_1 out =>
      split at taken <;> cases taken
      · exact .call level formatted out
      · exact .drop i level formatted
    case h_2 => cases taken
  | thread i =>
    simp only [step, stepThread] at taken
    split at taken
    case h_1 pc logging =>
      split at taken
      case h_1 next moved =>
        cases taken
        exact .thread logging moved
      case h_2 => cases taken
    case h_2 => cases taken
  | fork i method =>
    simp only [step, stepFork] at taken
    split at taken
    case h_1 out =>
      cases taken
      exact .fork method out
    case h_2 => cases taken
  | endOfFile i =>
    simp only [step, stepEndOfFile] at taken
    split at taken
    case h_1 pid reading =>
      split at taken
      case isTrue exited =>
        cases taken
        exact .endOfFile reading exited
      case isFalse => cases taken
    case h_2 => cases taken
  | child pid ok =>
    simp only [step, stepChild] at taken
    split at taken
    case h_1 c found =>
      split at taken
      case h_1 c' moved =>
        cases taken
        exact .child found moved
      case h_2 => cases taken
    case h_2 => cases taken

/-! ## Who has the locks -/

/-- Each lock is on record for the thread that is where one has it. -/
structure Held (s : LoggingServer ι) : Prop where
  zone : Exclusive s.zone fun i => (s.threads i).hasZone
  mutex : Exclusive s.mutex fun i => (s.threads i).hasMutex

omit [DecidableEq ι] in
/-- A thread that enters only where the lock is free moves by one of the rules for a lock. -/
theorem lockStep {lock : Option ι} {i : ι} {had has : Bool} (own : had = true → lock = some i)
    (free : has = true → had = false → lock = none) : LockStep lock (lockAfter lock i had has) i had has := by
  unfold lockAfter
  cases has with
  | true =>
    cases had with
    | true => exact .stay rfl (own rfl).symm
    | false => exact .acquire (free rfl rfl) rfl rfl
  | false =>
    cases had with
    | true => exact .release rfl rfl rfl
    | false => exact .stay rfl rfl

/-- In `serialize` a lock is entered where it is free. -/
theorem free_of_serialize {zoneFree free : Bool} {pc : LogPc} {next : Option LogPc}
    (moved : logger.serialize zoneFree free pc = some next) :
    (next.any LogPc.hasZone = true → pc.hasZone = false → zoneFree = true) ∧
      (next.any LogPc.hasMutex = true → pc.hasMutex = false → free = true) := by
  cases pc with
  | zone left =>
    cases left with
    | zero =>
      cases moved
      simp [LogPc.hasZone, LogPc.hasMutex]
    | succ left =>
      rw [SyncLogger.serialize] at moved
      split at moved
      case isTrue zoneFree =>
        cases moved
        simp [zoneFree, LogPc.hasMutex]
      case isFalse => cases moved
  | inZone left =>
    cases moved
    simp [LogPc.hasZone, LogPc.hasMutex]
  | lock =>
    rw [SyncLogger.serialize] at moved
    split at moved
    case isTrue free =>
      cases moved
      simp [free, LogPc.hasZone]
    case isFalse => cases moved
  | sink left =>
    cases left with
    | zero =>
      cases moved
      simp
    | succ left =>
      cases moved
      simp [LogPc.hasZone, LogPc.hasMutex]

/-- A thread moves by one of the rules for each lock. -/
theorem held_setThread {t : LoggingServer ι} {i : ι} {pc : ThreadPc} (inv : s.Held) (threads : t.threads = s.threads)
    (zone : LockStep s.zone t.zone i (s.threads i).hasZone pc.hasZone)
    (mutex : LockStep s.mutex t.mutex i (s.threads i).hasMutex pc.hasMutex) : (t.setThread i pc).Held := by
  constructor
  case zone =>
    refine inv.zone.step (h := i) ?_ ?_
    · simp only [setThread, Function.update_self]
      exact zone
    · intro j other
      simp only [setThread, Function.update_of_ne other, threads]
  case mutex =>
    refine inv.mutex.step (h := i) ?_ ?_
    · simp only [setThread, Function.update_self]
      exact mutex
    · intro j other
      simp only [setThread, Function.update_of_ne other, threads]

theorem held_step {a : LoggingAction ι} (inv : s.Held) (taken : s.step logger a = some s') : s'.Held := by
  cases transition_of_step taken with
  | drop i level formatted => exact inv
  | call level formatted out =>
    exact held_setThread inv rfl (by rw [out]; exact .stay rfl rfl) (by rw [out]; exact .stay rfl rfl)
  | @thread i pc next logging moved =>
    obtain ⟨zone, mutex⟩ := free_of_serialize moved
    refine held_setThread inv rfl ?_ ?_
    · rw [ThreadPc.hasZone_next, logging]
      exact lockStep (fun had => (inv.zone i).mp ((congrArg ThreadPc.hasZone logging).trans had))
        (fun has had => of_decide_eq_true (zone has had))
    · rw [ThreadPc.hasMutex_next, logging]
      exact lockStep (fun had => (inv.mutex i).mp ((congrArg ThreadPc.hasMutex logging).trans had))
        (fun has had => of_decide_eq_true (mutex has had))
  | fork method out =>
    exact held_setThread inv rfl (by rw [out]; exact .stay rfl rfl) (by rw [out]; exact .stay rfl rfl)
  | endOfFile reading exited =>
    exact held_setThread inv rfl (by rw [reading]; exact .stay rfl rfl) (by rw [reading]; exact .stay rfl rfl)
  | child found moved => exact ⟨inv.zone, inv.mutex⟩

/-- So the holder a child inherits is never the thread that forked it. -/
theorem held_of_reachable (reached : (machine logger ι).Reachable s) : s.Held :=
  reached.invariant ⟨fun _ => ⟨nofun, nofun⟩, fun _ => ⟨nofun, nofun⟩⟩ fun _ _ _ inv _ taken => held_step inv taken

/-! ## Forks -/

/-- A child that will log is forked only while no thread has the mutex, and none the time zone
lock, if formatting takes that. -/
def ForksFree (logger : SyncLogger) (s : LoggingServer ι) (a : LoggingAction ι) : Prop :=
  ∀ i method, a = .fork i method → ForkedChild.logs logger method = true →
    s.mutex = none ∧ (0 < logger.timeItems → s.zone = none)

omit [DecidableEq ι] in
theorem copyLock_ne_own (lock : Option ι) : copyLock lock ≠ .own := by
  unfold copyLock
  split <;> nofun

omit [DecidableEq ι] in
theorem copyLock_none : copyLock (none : Option ι) ≠ .stale := nofun

/-- A free fork adds a clear child, and a clear child stays clear. -/
theorem clear_step {a : LoggingAction ι} (inv : ∀ c ∈ s.children, c.Clear logger) (free : ForksFree logger s a)
    (taken : s.step logger a = some s') : ∀ c ∈ s'.children, c.Clear logger := by
  cases transition_of_step taken with
  | fork method out =>
    intro c mem
    rcases List.mem_append.mp mem with old | new
    · exact inv c old
    · cases List.mem_singleton.mp new
      refine ForkedChild.clear_new ⟨copyLock_ne_own _, copyLock_ne_own _⟩ fun logs => ?_
      obtain ⟨mutex, zone⟩ := free _ method rfl logs
      constructor
      · intro timed
        rw [zone timed]
        exact copyLock_none
      · rw [mutex]
        exact copyLock_none
  | child found moved =>
    intro c mem
    rcases List.mem_or_eq_of_mem_set mem with old | rfl
    · exact inv c old
    · exact (inv _ (List.mem_of_getElem? found)).step moved
  | _ => exact inv

/-- In a run of free forks every child is clear. -/
theorem clear_of_reachable (reached : (machine logger ι).ReachableIf (ForksFree logger) s) :
    ∀ c ∈ s.children, c.Clear logger :=
  reached.invariant nofun fun _ _ _ inv free taken => clear_step inv free taken

/-- What a child does on its own, it does in the server. -/
theorem exec_child {pid : Nat} {c c₀ c' : ForkedChild} {oks : List Bool} (found : s.children[pid]? = some c)
    (run : (c₀.machine logger).exec c oks = some c') :
    ∃ s', (machine logger ι).exec s (oks.map fun ok => .child pid ok) = some s' ∧ s'.children[pid]? = some c' ∧
      s'.threads = s.threads := by
  induction oks generalizing s c with
  | nil =>
    cases run
    exact ⟨s, rfl, found, rfl⟩
  | cons ok rest ih =>
    obtain ⟨d, moved, run⟩ := Option.bind_eq_some_iff.mp run
    have taken : (machine logger ι).step s (.child pid ok) = some { s with children := s.children.set pid d } := by
      simp only [machine, step, stepChild, found]
      rw [show c.step logger ok = some d from moved]
    have bound : pid < s.children.length := (List.getElem?_eq_some_iff.mp found).1
    obtain ⟨s', run, last, threads⟩ := ih (s := { s with children := s.children.set pid d })
      (by rw [List.getElem?_set_self bound]) run
    refine ⟨s', ?_, last, threads⟩
    rw [List.map_cons, Machine.exec_cons, taken]
    exact run

/-- **A child gets to `execl` or `exit`, and its parent's read loop can end.** In every run in
which a child that will log is forked only while both locks are free: a child finds each lock
free where it takes it, whatever its calls return it gets to `execl` or `exit` by its own
steps, and there are steps of the child after which a parent in its read loop sees the end. -/
theorem child_reaches_execl (reached : (machine logger ι).ReachableIf (ForksFree logger) s) :
    (∀ c ∈ s.children, (c.pc = .log .lock → c.mutex = .free) ∧
      (∀ left, c.pc = .log (.zone (left + 1)) → c.zone = .free) ∧
      (c.machine logger).Inevitable ForkedChild.Settled c) ∧
    ∀ i pid, s.threads i = .read pid → ∃ (oks : List Bool) (s' : LoggingServer ι),
      (machine logger ι).exec s (oks.map fun ok => .child pid ok) = some s' ∧
        (s'.step logger (.endOfFile i)).isSome := by
  have clear := clear_of_reachable reached
  constructor
  · exact fun c mem => ⟨(clear c mem).mutex_free, fun _ => (clear c mem).zone_free, (clear c mem).settles⟩
  · intro i pid reading
    cases found : s.children[pid]? with
    | none => exact ⟨[], s, rfl, by simp [step, stepEndOfFile, reading, found]⟩
    | some c =>
      obtain ⟨oks, c', run, exited⟩ := (clear c (List.mem_of_getElem? found)).exits.exec
      obtain ⟨s', run, last, threads⟩ := exec_child found run
      refine ⟨oks, s', run, ?_⟩
      simp [step, stepEndOfFile, threads, reading, last, exited]

/-- A thread logs, from the time item to the return. -/
def logOnce : List (LoggingAction Bool) :=
  .call true .info true :: List.replicate 8 (.thread true)

/-- A child's way from the fork to the mutex. -/
def toLock : List (LoggingAction Bool) := List.replicate 7 (.child 0 true)

/-- A thread logs; another forks when that is done. The child is at the mutex. -/
theorem child_reaches_execl_quiet :
    ∃ s, (machine rootLogger Bool).exec new (logOnce ++ .fork false GET :: toLock) = some s ∧
      (∀ c ∈ s.children, c.pc = .log .lock ∧ c.mutex = .free) ∧
      ∃ (oks : List Bool) (s' : LoggingServer Bool),
        (machine rootLogger Bool).exec s (oks.map fun ok => .child 0 ok) = some s' ∧
          (s'.step rootLogger (.endOfFile false)).isSome := by
  have reached : ∀ {s s' : LoggingServer Bool} {schedule : List (LoggingAction Bool)},
      (machine rootLogger Bool).ReachableIf (ForksFree rootLogger) s → (∀ i method, .fork i method ∉ schedule) →
      (machine rootLogger Bool).exec s schedule = some s' →
      (machine rootLogger Bool).ReachableIf (ForksFree rootLogger) s' :=
    fun before others => before.exec_of_mem fun a mem s i method fork => absurd (fork ▸ mem) (others i method)
  have logged := reached .init (by simp [logOnce]) (rfl : (machine rootLogger Bool).exec new logOnce = some _)
  have forked := logged.step (a := .fork false GET) (fun _ _ _ _ => ⟨rfl, fun _ => rfl⟩) rfl
  have atLock := reached forked (by simp [toLock]) (rfl : (machine rootLogger Bool).exec _ toLock = some _)
  obtain ⟨children, reading⟩ := child_reaches_execl atLock
  refine ⟨_, rfl, ?_, reading false 0 rfl⟩
  intro c mem
  have lock : c.pc = .log .lock := by
    cases List.mem_singleton.mp mem
    rfl
  exact ⟨lock, (children c mem).1 lock⟩

/-! ## The window -/

/-- A child that waits for a lock it cannot get. -/
def Waits (c : ForkedChild) : Prop :=
  (c.pc = .log .lock ∧ c.mutex = .stale) ∨ ∃ left, c.pc = .log (.zone (left + 1)) ∧ c.zone = .stale

/-- A child that waits for a lock it cannot get, and a parent that waits for the child. -/
structure Hung (s : LoggingServer ι) (i : ι) (pid : Nat) : Prop where
  child : ∃ c, s.children[pid]? = some c ∧ Waits c
  parent : s.threads i = .read pid

theorem Waits.stuck {c : ForkedChild} (waits : Waits c) (ok : Bool) : c.step logger ok = none := by
  rcases waits with ⟨lock, stale⟩ | ⟨left, zone, stale⟩
  · simp [ForkedChild.step, lock, stale, SyncLogger.serialize]
  · simp [ForkedChild.step, zone, stale, SyncLogger.serialize]

theorem Waits.alive {c : ForkedChild} (waits : Waits c) : c.pc ≠ .exited := by
  rcases waits with ⟨lock, -⟩ | ⟨left, zone, -⟩
  · rw [lock]
    nofun
  · rw [zone]
    nofun

/-- Another thread than the parent moves, and the child is where it was. -/
theorem Hung.setThread {i j : ι} {pid : Nat} {pc : ThreadPc} {t : LoggingServer ι} (hung : s.Hung i pid)
    (threads : t.threads = s.threads) (same : t.children[pid]? = s.children[pid]?) (other : i ≠ j) :
    (t.setThread j pc).Hung i pid := by
  obtain ⟨⟨c, found, waits⟩, reading⟩ := hung
  constructor
  case child => exact ⟨c, same.trans found, waits⟩
  case parent =>
    show Function.update t.threads j pc i = .read pid
    rw [Function.update_of_ne other, threads, reading]

/-- Nothing that anybody does changes that. -/
theorem hung_step {a : LoggingAction ι} {i : ι} {pid : Nat} (hung : s.Hung i pid)
    (taken : s.step logger a = some s') : s'.Hung i pid := by
  obtain ⟨⟨c, found, waits⟩, reading⟩ := id hung
  -- only a thread that is not in its read loop can log or fork
  have other : ∀ j pc, s.threads j = pc → pc ≠ .read pid → i ≠ j := by
    rintro j pc at_ notReading rfl
    exact notReading (at_.symm.trans reading)
  cases transition_of_step taken with
  | drop j level formatted => exact hung
  | call level formatted out => exact hung.setThread rfl rfl (other _ _ out nofun)
  | thread logging moved => exact hung.setThread rfl rfl (other _ _ logging nofun)
  | fork method out =>
    refine hung.setThread rfl ?_ (other _ _ out nofun)
    exact List.getElem?_append_left (List.getElem?_eq_some_iff.mp found).1
  | @endOfFile j pid' reading' exited =>
    refine hung.setThread rfl rfl (other _ _ reading' ?_)
    rintro same
    cases same
    simp [found, waits.alive] at exited
  | @child pid' ok d d' found' moved =>
    refine ⟨⟨c, ?_, waits⟩, reading⟩
    by_cases same : pid' = pid
    · -- the child itself cannot move
      subst same
      obtain rfl := Option.some.inj (found.symm.trans found')
      rw [waits.stuck ok] at moved
      cases moved
    · show (s.children.set pid' d')[pid]? = some c
      rw [List.getElem?_set_ne same, found]

theorem hung_exec {schedule : List (LoggingAction ι)} {i : ι} {pid : Nat} (hung : s.Hung i pid)
    (run : (machine logger ι).exec s schedule = some s') : s'.Hung i pid := by
  induction schedule generalizing s with
  | nil => cases run; exact hung
  | cons a rest ih =>
    obtain ⟨t, taken, run⟩ := Option.bind_eq_some_iff.mp run
    exact ih (hung_step hung taken) run

/-- A thread has the mutex when another forks. -/
def caught : List (LoggingAction Bool) :=
  .call true .info true :: List.replicate 6 (.thread true) ++ .fork false GET :: toLock

/-- A thread is in `localtime_r` when another forks. -/
def caughtFormatting : List (LoggingAction Bool) :=
  [.call true .info true, .thread true, .fork false GET, .child 0 true, .child 0 true]

/-- The child waits for a mutex whose holder it does not have, and its parent for the end of
the read loop, whatever happens then. With the mutex free at the fork, the child of another
run waits for the time zone lock as long. -/
theorem child_hangs :
    (∃ s : LoggingServer Bool, (machine rootLogger Bool).Reachable s ∧
      s.children = [⟨GET, .free, .stale, .log .lock⟩] ∧
      ∀ schedule s', (machine rootLogger Bool).exec s schedule = some s' → s'.Hung false 0) ∧
    ∃ s : LoggingServer Bool, (machine rootLogger Bool).Reachable s ∧
      s.children = [⟨GET, .stale, .free, .log (.zone 2)⟩] ∧
      ∀ schedule s', (machine rootLogger Bool).exec s schedule = some s' → s'.Hung false 0 := by
  constructor
  · refine ⟨_, Machine.Reachable.exec .init (rfl : (machine rootLogger Bool).exec new caught = some _), rfl,
      fun schedule s' => hung_exec ⟨⟨_, rfl, ?_⟩, rfl⟩⟩
    exact .inl ⟨rfl, rfl⟩
  · refine ⟨_, Machine.Reachable.exec .init (rfl : (machine rootLogger Bool).exec new caughtFormatting = some _), rfl,
      fun schedule s' => hung_exec ⟨⟨_, rfl, ?_⟩, rfl⟩⟩
    exact .inr ⟨1, rfl, rfl⟩

end LoggingServer

end HttpServer.Cgi
