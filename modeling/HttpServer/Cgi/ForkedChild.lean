import HttpServer.Lib.Machine
import HttpServer.Protocol.Recv

/-!
# A CGI child on its way to `execl`

`SyncLogger::log` has the mutex while it writes to the sinks. Before that a time item of the
pattern calls `localtime_r` and `strftime`, and each has the time zone lock of the C library
while it runs; `fork` puts the library's locks for memory and streams in order in the child,
and not this one. A child gets a copy of both locks as they are at the fork, but none of the
other threads, and logs once on its way to `execl`. `forked_inevitable_iff` says when it gets
there.
-/

namespace HttpServer.Cgi
open Lib Protocol

/-! ## The logger -/

/-- `LogLevel::value`. -/
inductive LogLevel where
  | unknow
  | debug
  | info
  | warn
  | error
  | fatal
  | off
  deriving DecidableEq, Repr

/-- The number of a level. -/
def LogLevel.value : LogLevel → Nat
  | .unknow => 0
  | .debug => 1
  | .info => 2
  | .warn => 3
  | .error => 4
  | .fatal => 5
  | .off => 6

/-- What a call reads of a `SyncLogger`: its level, how many time items its pattern has, and how
many sinks there are. -/
structure SyncLogger where
  limitLevel : LogLevel
  timeItems : Nat
  sinks : Nat
  deriving DecidableEq, Repr

/-- `LoggerManager::rootLogger`, with the default pattern and sink. -/
def rootLogger : SyncLogger := ⟨.debug, 1, 1⟩

/-- Where a caller is in `Logger::serialize`: before so many calls that take the time zone lock,
or in one with so many to come; before the mutex, or with it and with so many sinks to write to. -/
inductive LogPc where
  | zone (left : Nat)
  | inZone (left : Nat)
  | lock
  | sink (left : Nat)
  deriving DecidableEq, Repr

namespace LogPc

/-- The caller has the time zone lock. -/
def hasZone : LogPc → Bool
  | .inZone _ => true
  | _ => false

/-- The caller has the mutex. -/
def hasMutex : LogPc → Bool
  | .sink _ => true
  | _ => false

/-- How often the caller has still to take or to give back the time zone lock. -/
def zones : LogPc → Nat
  | .zone left => 2 * left
  | .inZone left => 2 * left + 1
  | _ => 0

/-- How many steps are left at most until the return. -/
def rank (sinks : Nat) : LogPc → Nat
  | .zone left => 2 * left + sinks + 2
  | .inZone left => 2 * left + sinks + 3
  | .lock => sinks + 1
  | .sink left => left

end LogPc

namespace SyncLogger

/-- Whether the call of a level gets to `log`; `formatted` is the outcome of `vasprintf`. -/
def passes (l : SyncLogger) (level : LogLevel) (formatted : Bool) : Bool :=
  if level.value < l.limitLevel.value then false else formatted

/-- `Logger::info`. -/
def info (l : SyncLogger) (formatted : Bool) : Bool := l.passes .info formatted

/-- Where `serialize` starts: a time item calls `localtime_r`, then `strftime`. -/
def start (l : SyncLogger) : LogPc := .zone (2 * l.timeItems)

/-- A step of `Logger::serialize`, where the time zone lock and the mutex are free or not;
`some none` is the return. -/
def serialize (l : SyncLogger) (zoneFree free : Bool) : LogPc → Option (Option LogPc)
  | .zone (left + 1) => if zoneFree then some (some (.inZone left)) else none
  | .inZone left => some (some (.zone left))
  | .zone 0 => some (some .lock)
  | .lock => if free then some (some (.sink l.sinks)) else none
  | .sink (left + 1) => some (some (.sink left))
  | .sink 0 => some none

end SyncLogger

/-! ## The child -/

/-- The child's copy of a lock: free, locked since before the fork by a thread the child does
not have, or locked by the child. -/
inductive LockCopy where
  | free
  | stale
  | own
  deriving DecidableEq, Repr

/-- The copy after a step of the child, which had the lock before it or not, and has it now or
not. -/
def LockCopy.after (copy : LockCopy) (had has : Bool) : LockCopy := if has then .own else if had then .free else copy

/-- Where a child is between `fork` and `execl`, and after it. -/
inductive ForkedPc where
  | putenv
  | info
  | log (pc : LogPc)
  | dup2
  | execl
  | running
  | exited
  deriving DecidableEq, Repr

namespace ForkedPc

/-- Where a step of `serialize` leads. -/
def next : Option LogPc → ForkedPc
  | some pc => .log pc
  | none => .dup2

/-- How many steps are left at most until the child has exited. -/
def rank (logger : SyncLogger) : ForkedPc → Nat
  | .putenv => logger.start.rank logger.sinks + 6
  | .info => logger.start.rank logger.sinks + 5
  | .log pc => pc.rank logger.sinks + 4
  | .dup2 => 3
  | .execl => 2
  | .running => 1
  | .exited => 0

end ForkedPc

/-- A child after the fork. -/
structure ForkedChild where
  method : Bytes
  zone : LockCopy
  mutex : LockCopy
  pc : ForkedPc
  deriving DecidableEq

namespace ForkedChild

/-- As `fork` leaves it. -/
def new (method : Bytes) (zone mutex : LockCopy) : ForkedChild := ⟨method, zone, mutex, .putenv⟩

/-- A step of the child; `ok` is the outcome of the call it makes. A program that runs may
exit. -/
def step (logger : SyncLogger) (c : ForkedChild) (ok : Bool) : Option ForkedChild :=
  match c.pc with
  | .putenv => if c.method = GET ∨ c.method = POST then some { c with pc := .info } else some { c with pc := .dup2 }
  | .info => if logger.info ok then some { c with pc := .log logger.start } else some { c with pc := .dup2 }
  | .log pc =>
    match logger.serialize (c.zone = .free) (c.mutex = .free) pc with
    | some next => some { c with
        zone := c.zone.after pc.hasZone (next.any LogPc.hasZone)
        mutex := c.mutex.after pc.hasMutex (next.any LogPc.hasMutex)
        pc := .next next }
    | none => none
  | .dup2 => some { c with pc := .execl }
  | .execl => if ok then some { c with pc := .running } else some { c with pc := .exited }
  | .running => some { c with pc := .exited }
  | .exited => none

/-- The child on its own. -/
def machine (logger : SyncLogger) (c : ForkedChild) : Machine ForkedChild Bool := ⟨c, step logger⟩

/-- The child has got to `execl` or `exit`. -/
def Settled (c : ForkedChild) : Prop := c.pc = .running ∨ c.pc = .exited

/-- A child for a request with this method calls `serialize`, if its message can be formatted. -/
def logs (logger : SyncLogger) (method : Bytes) : Bool := (method = GET || method = POST) && logger.info true

/-- The copies are such that a child that logs is not kept waiting. -/
structure Unlocked (logger : SyncLogger) (zone mutex : LockCopy) : Prop where
  zone : 0 < logger.timeItems → zone ≠ .stale
  mutex : mutex ≠ .stale

variable {logger : SyncLogger} {c : ForkedChild}

/-- A child that calls `serialize` has had no locked copy of a lock it takes but its own locks. -/
structure Clear (logger : SyncLogger) (c : ForkedChild) : Prop where
  copies : logs logger c.method = true → Unlocked logger c.zone c.mutex
  ownZone : c.zone = .own → ∃ left, c.pc = .log (.inZone left)
  ownMutex : c.mutex = .own → ∃ left, c.pc = .log (.sink left)
  calls : c.pc = .info → (c.method = GET || c.method = POST) = true
  inLog : ∀ pc, c.pc = .log pc → logs logger c.method = true ∧ (0 < pc.zones → 0 < logger.timeItems)

theorem clear_new {method : Bytes} {zone mutex : LockCopy} (notOwn : zone ≠ .own ∧ mutex ≠ .own)
    (free : logs logger method = true → Unlocked logger zone mutex) : (new method zone mutex).Clear logger :=
  ⟨free, fun own => absurd own notOwn.1, fun own => absurd own notOwn.2, nofun, nofun⟩

/-- A clear child finds the mutex free at the lock. -/
theorem Clear.mutex_free (clear : c.Clear logger) (lock : c.pc = .log .lock) : c.mutex = .free := by
  cases mutex : c.mutex with
  | free => rfl
  | stale => exact absurd mutex (clear.copies (clear.inLog _ lock).1).mutex
  | own =>
    obtain ⟨left, sink⟩ := clear.ownMutex mutex
    rw [lock] at sink
    cases sink

/-- And the time zone lock before a call that takes it. -/
theorem Clear.zone_free {left : Nat} (clear : c.Clear logger) (before : c.pc = .log (.zone (left + 1))) :
    c.zone = .free := by
  obtain ⟨logs, items⟩ := clear.inLog _ before
  cases zone : c.zone with
  | free => rfl
  | stale =>
    have timed := items (by simp [LogPc.zones])
    exact absurd zone ((clear.copies logs).zone timed)
  | own =>
    obtain ⟨left, inside⟩ := clear.ownZone zone
    rw [before] at inside
    cases inside

/-- A step of a clear child from a point without a lock to another. -/
theorem Clear.move {pc : ForkedPc} (clear : c.Clear logger) (outside : ∀ logPc, c.pc ≠ .log logPc)
    (calls : pc = .info → (c.method = GET || c.method = POST) = true)
    (inLog : ∀ logPc, pc = .log logPc → logs logger c.method = true ∧ (0 < logPc.zones → 0 < logger.timeItems)) :
    { c with pc := pc }.Clear logger := by
  refine ⟨clear.copies, ?_, ?_, calls, inLog⟩
  · intro own
    obtain ⟨left, inside⟩ := clear.ownZone own
    exact absurd inside (outside _)
  · intro own
    obtain ⟨left, inside⟩ := clear.ownMutex own
    exact absurd inside (outside _)

/-- What a clear child does in `serialize`. -/
theorem Clear.serialize {pc : LogPc} (clear : c.Clear logger) (inside : c.pc = .log pc) :
    ∃ next, logger.serialize (c.zone = .free) (c.mutex = .free) pc = some next ∧
      (ForkedPc.next next).rank logger < (ForkedPc.log pc).rank logger ∧
      (∀ logPc, next = some logPc → 0 < logPc.zones → 0 < logger.timeItems) := by
  obtain ⟨-, items⟩ := clear.inLog pc inside
  cases pc with
  | zone left =>
    cases left with
    | zero => exact ⟨some .lock, rfl, by simp [ForkedPc.rank, ForkedPc.next, LogPc.rank], by simp [LogPc.zones]⟩
    | succ left =>
      have timed := items (by simp [LogPc.zones])
      refine ⟨some (.inZone left), ?_, ?_, fun _ _ _ => timed⟩
      · rw [clear.zone_free inside]
        rfl
      · simp only [ForkedPc.rank, ForkedPc.next, LogPc.rank]
        omega
  | inZone left =>
    have timed := items (by simp [LogPc.zones])
    refine ⟨some (.zone left), rfl, ?_, fun _ _ _ => timed⟩
    simp only [ForkedPc.rank, ForkedPc.next, LogPc.rank]
    omega
  | lock =>
    refine ⟨some (.sink logger.sinks), ?_, ?_, by simp [LogPc.zones]⟩
    · rw [clear.mutex_free inside]
      rfl
    · simp [ForkedPc.rank, ForkedPc.next, LogPc.rank]
  | sink left =>
    cases left with
    | zero => exact ⟨none, rfl, by simp [ForkedPc.rank, ForkedPc.next, LogPc.rank], nofun⟩
    | succ left =>
      exact ⟨some (.sink left), rfl, by simp [ForkedPc.rank, ForkedPc.next, LogPc.rank], by simp [LogPc.zones]⟩

theorem LockCopy.after_ne_stale {copy : LockCopy} {had has : Bool} (fresh : copy ≠ .stale) :
    copy.after had has ≠ .stale := by
  unfold LockCopy.after
  split
  · nofun
  · split
    · nofun
    · exact fresh

/-- A step in `serialize` that gives back what it had takes what it has then, and no more. -/
theorem LockCopy.after_own {copy : LockCopy} {had has : Bool} (held : copy = .own → had = true)
    (own : copy.after had has = .own) : has = true := by
  unfold LockCopy.after at own
  split at own
  case isTrue now => exact now
  case isFalse =>
    split at own
    case isTrue => cases own
    case isFalse before => exact absurd (held own) before

/-- A step of a clear child in `serialize`. -/
theorem Clear.log {pc : LogPc} {next : Option LogPc} (clear : c.Clear logger) (inside : c.pc = .log pc)
    (items : ∀ logPc, next = some logPc → 0 < logPc.zones → 0 < logger.timeItems) :
    ForkedChild.Clear logger { c with
      zone := c.zone.after pc.hasZone (next.any LogPc.hasZone)
      mutex := c.mutex.after pc.hasMutex (next.any LogPc.hasMutex)
      pc := .next next } := by
  have logs := (clear.inLog pc inside).1
  have copies := clear.copies logs
  constructor
  case copies =>
    exact fun _ => ⟨fun timed => LockCopy.after_ne_stale (copies.zone timed), LockCopy.after_ne_stale copies.mutex⟩
  case ownZone =>
    intro own
    have held : c.zone = .own → pc.hasZone = true := by
      intro own
      obtain ⟨left, at_⟩ := clear.ownZone own
      cases inside.symm.trans at_
      rfl
    have has := LockCopy.after_own held own
    cases next with
    | none => cases has
    | some logPc => cases logPc <;> first | exact ⟨_, rfl⟩ | cases has
  case ownMutex =>
    intro own
    have held : c.mutex = .own → pc.hasMutex = true := by
      intro own
      obtain ⟨left, at_⟩ := clear.ownMutex own
      cases inside.symm.trans at_
      rfl
    have has := LockCopy.after_own held own
    cases next with
    | none => cases has
    | some logPc => cases logPc <;> first | exact ⟨_, rfl⟩ | cases has
  case calls =>
    intro info
    cases next <;> cases info
  case inLog =>
    intro logPc at_
    cases next with
    | none => cases at_
    | some _ =>
      cases at_
      exact ⟨logs, items _ rfl⟩

/-- Until it has exited a clear child goes on, whatever its calls return, and stays clear. -/
theorem Clear.progress (clear : c.Clear logger) (alive : c.pc ≠ .exited) (ok : Bool) :
    ∃ c', c.step logger ok = some c' ∧ c'.Clear logger ∧ c'.pc.rank logger < c.pc.rank logger := by
  unfold step
  split
  case h_1 pc =>
    rw [pc]
    split
    case isTrue method =>
      exact ⟨_, rfl, clear.move (by simp [pc]) (fun _ => by simpa using method) nofun, by simp [ForkedPc.rank]⟩
    case isFalse => exact ⟨_, rfl, clear.move (by simp [pc]) nofun nofun, by simp [ForkedPc.rank]⟩
  case h_2 pc =>
    rw [pc]
    split
    case isTrue passes =>
      have logs : logs logger c.method = true := by
        cases ok with
        | false => simp [SyncLogger.info, SyncLogger.passes] at passes
        | true => rw [ForkedChild.logs, clear.calls pc, passes, Bool.and_self]
      refine ⟨_, rfl, clear.move (by simp [pc]) nofun ?_, by simp [ForkedPc.rank]⟩
      rintro _ ⟨⟩
      refine ⟨logs, ?_⟩
      simp only [SyncLogger.start, LogPc.zones]
      omega
    case isFalse => exact ⟨_, rfl, clear.move (by simp [pc]) nofun nofun, by simp [ForkedPc.rank]⟩
  case h_3 pc inside =>
    obtain ⟨next, taken, less, items⟩ := clear.serialize inside
    rw [taken, inside]
    exact ⟨_, rfl, clear.log inside items, less⟩
  case h_4 pc =>
    rw [pc]
    exact ⟨_, rfl, clear.move (by simp [pc]) nofun nofun, by simp [ForkedPc.rank]⟩
  case h_5 pc =>
    rw [pc]
    split
    case isTrue => exact ⟨_, rfl, clear.move (by simp [pc]) nofun nofun, by simp [ForkedPc.rank]⟩
    case isFalse => exact ⟨_, rfl, clear.move (by simp [pc]) nofun nofun, by simp [ForkedPc.rank]⟩
  case h_6 pc =>
    rw [pc]
    exact ⟨_, rfl, clear.move (by simp [pc]) nofun nofun, by simp [ForkedPc.rank]⟩
  case h_7 pc => exact absurd pc alive

theorem Clear.step (clear : c.Clear logger) {c' : ForkedChild} {ok : Bool} (taken : c.step logger ok = some c') :
    c'.Clear logger := by
  have alive : c.pc ≠ .exited := by
    intro exited
    simp [ForkedChild.step, exited] at taken
  obtain ⟨d, same, clear, -⟩ := clear.progress alive ok
  obtain rfl := Option.some.inj (taken.symm.trans same)
  exact clear

/-- A clear child exits in the end, if nothing but its own steps is waited for. -/
theorem Clear.exits (clear : c.Clear logger) : (c.machine logger).Inevitable (fun c => c.pc = .exited) c :=
  .of_rank (fun c => c.pc.rank logger) (fun _ clear alive => clear.progress alive) clear

/-- A clear child gets to `execl` or `exit`. -/
theorem Clear.settles (clear : c.Clear logger) : (c.machine logger).Inevitable Settled c := by
  refine .of_rank (fun c => c.pc.rank logger) ?_ clear
  intro c clear unsettled
  exact clear.progress fun exited => unsettled (.inr exited)

/-- A child that is going to wait for a lock, or waits for it, and the lock is not free. -/
structure Doomed (logger : SyncLogger) (c : ForkedChild) : Prop where
  logs : logs logger c.method = true
  stale : ¬ Unlocked logger c.zone c.mutex
  before : c.pc = .putenv ∨ c.pc = .info ∨
    ∃ pc : LogPc, c.pc = .log pc ∧ pc.hasMutex = false ∧ (c.mutex = .stale ∨ pc = logger.start)

/-- A doomed child that goes on in `serialize` is doomed by the mutex. -/
theorem Doomed.mutex_stale {pc : LogPc} {next : Option LogPc} (doomed : c.Doomed logger) (inside : c.pc = .log pc)
    (moved : logger.serialize (c.zone = .free) (c.mutex = .free) pc = some next) :
    c.mutex = .stale ∧ ∃ logPc, next = some logPc ∧ logPc.hasMutex = false := by
  obtain ⟨-, stale, before⟩ := doomed
  rw [inside] at before
  rcases before with before | before | ⟨_, ⟨⟩, without, mutex⟩
  · cases before
  · cases before
  · have mutex : c.mutex = .stale := by
      rcases mutex with mutex | rfl
      · exact mutex
      · by_contra fresh
        refine stale ⟨fun timed zone => ?_, fresh⟩
        obtain ⟨items, count⟩ := Nat.exists_eq_add_one.mpr timed
        simp [SyncLogger.start, count, Nat.mul_add, SyncLogger.serialize, zone] at moved
    refine ⟨mutex, ?_⟩
    rw [mutex] at moved
    cases pc with
    | zone left =>
      cases left with
      | zero =>
        cases moved
        exact ⟨_, rfl, rfl⟩
      | succ left =>
        rw [SyncLogger.serialize] at moved
        split at moved <;> cases moved
        exact ⟨_, rfl, rfl⟩
    | inZone left =>
      cases moved
      exact ⟨_, rfl, rfl⟩
    | lock => cases moved
    | sink left => cases without

theorem Doomed.step {c' : ForkedChild} (doomed : c.Doomed logger) (taken : c.step logger true = some c') :
    c'.Doomed logger := by
  obtain ⟨called, passes⟩ := Bool.and_eq_true_iff.mp doomed.logs
  have called : c.method = GET ∨ c.method = POST := by simpa using called
  rcases doomed.before with pc | pc | ⟨pc, inside, outside, -⟩
  · simp only [ForkedChild.step, pc, called, if_true, Option.some.injEq] at taken
    subst taken
    exact ⟨doomed.logs, doomed.stale, .inr (.inl rfl)⟩
  · simp only [ForkedChild.step, pc, passes, if_true, Option.some.injEq] at taken
    subst taken
    exact ⟨doomed.logs, doomed.stale, .inr (.inr ⟨_, rfl, rfl, .inr rfl⟩)⟩
  · simp only [ForkedChild.step, inside] at taken
    split at taken
    case h_1 next moved =>
      obtain ⟨stale, logPc, rfl, without⟩ := doomed.mutex_stale inside moved
      cases taken
      have still : c.mutex.after pc.hasMutex (Option.any LogPc.hasMutex (some logPc)) = .stale := by
        simp [LockCopy.after, outside, without, stale]
      exact ⟨doomed.logs, fun unlocked => unlocked.mutex still, .inr (.inr ⟨_, rfl, without, .inl still⟩)⟩
    case h_2 => cases taken

/-- **A child gets to `execl` or `exit` exactly if it does not log or the locks were free.** -/
theorem forked_inevitable_iff {method : Bytes} {zone mutex : LockCopy} (notOwn : zone ≠ .own ∧ mutex ≠ .own) :
    ((new method zone mutex).machine logger).Inevitable Settled (new method zone mutex) ↔
      (logs logger method = true → Unlocked logger zone mutex) := by
  constructor
  · intro inevitable logs
    by_contra stale
    have never : ∀ c, ((new method zone mutex).machine logger).Inevitable Settled c → ¬ c.Doomed logger := by
      intro c inevitable
      induction inevitable with
      | done settled =>
        intro doomed
        rcases doomed.before with pc | pc | ⟨_, pc, -, -⟩ <;> simp [Settled, pc] at settled
      | step enabled _ ih =>
        intro doomed
        obtain ⟨c', taken⟩ := Option.isSome_iff_exists.mp (enabled true)
        exact ih true c' taken (doomed.step taken)
    exact never _ inevitable ⟨logs, stale, .inl rfl⟩
  · exact fun free => (clear_new notOwn free).settles

end ForkedChild

end HttpServer.Cgi
