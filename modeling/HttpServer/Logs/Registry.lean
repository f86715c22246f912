import HttpServer.Lib.FirstWins
import HttpServer.Lib.Machine
import HttpServer.Lib.Mutex
import HttpServer.Lib.Bytes

/-!
# The registry of loggers

`LoggerManager`, and any number of calls of `addLogger` and `getLogger` on it, each made once.
A call of `addLogger` has two critical sections, the check of `hasLogger` and the insertion,
and between them others may insert the same name. The calls that have the mutex exclude one
another (`locked_unique`), so each operation on the map is one step. `Backed` says what the
map must hold for a call to be where it is; as the map only grows, no step of another call
takes that away.
-/

namespace HttpServer.Logs
open Lib

/-- A logger: its name, and the object that its pointers point to. -/
structure Logger where
  name : Bytes
  object : Nat
  deriving DecidableEq, Repr

/-- A call on the manager. -/
inductive RegistryCall where
  | addLogger (logger : Logger)
  | getLogger (name : Bytes)
  deriving DecidableEq, Repr

/-- Where a call is: before the lock of a critical section, at its operation, or at its return
with the result of the operation; `returned` is the end of the call. -/
inductive RegistryPc where
  | ready
  | hasLock
  | hasFind
  | hasReturn (found : Bool)
  | insertLock
  | insert
  | insertReturn
  | getLock
  | getFind
  | getReturn (found : Option Logger)
  | returned (result : Option Logger)
  deriving DecidableEq, Repr

/-- The points with the mutex. -/
def RegistryPc.locked : RegistryPc → Bool
  | .hasFind | .hasReturn _ | .insert | .insertReturn | .getFind | .getReturn _ => true
  | _ => false

/-- `LoggerManager`, with the call that has its mutex and, in order, the loggers inserted. -/
structure LoggerManager (ι : Type*) where
  loggers : Bytes → Option Logger
  mutex : Option ι
  inserted : List Logger

def ROOT : Bytes := ascii "root"

/-- `_root_logger`. -/
def rootLogger : Logger := ⟨ROOT, 0⟩

namespace LoggerManager
variable {ι : Type*}

/-- The constructor, which has returned before any call begins. -/
def new : LoggerManager ι := ⟨Function.update (fun _ => none) ROOT (some rootLogger), none, [rootLogger]⟩

def lock (m : LoggerManager ι) (i : ι) : Option (LoggerManager ι) :=
  if m.mutex.isNone then some { m with mutex := some i } else none

def unlock (m : LoggerManager ι) : LoggerManager ι := { m with mutex := none }

/-- `_loggers.insert(std::make_pair(logger->name(), logger))`. -/
def insert (m : LoggerManager ι) (logger : Logger) : LoggerManager ι :=
  { m with
    loggers := insertNew m.loggers logger.name logger
    inserted := if (m.loggers logger.name).isSome then m.inserted else m.inserted ++ [logger] }

/-- The next step of call `i`. -/
def turn (i : ι) (m : LoggerManager ι) : RegistryCall → RegistryPc → Option (LoggerManager ι × RegistryPc)
  | .addLogger _, .ready => some (m, .hasLock)
  | .addLogger _, .hasLock => (m.lock i).map fun m => (m, .hasFind)
  | .addLogger logger, .hasFind => some (m, .hasReturn (m.loggers logger.name).isSome)
  | .addLogger _, .hasReturn found => some (m.unlock, if found then .returned none else .insertLock)
  | .addLogger _, .insertLock => (m.lock i).map fun m => (m, .insert)
  | .addLogger logger, .insert => some (m.insert logger, .insertReturn)
  | .addLogger _, .insertReturn => some (m.unlock, .returned none)
  | .getLogger _, .ready => some (m, .getLock)
  | .getLogger _, .getLock => (m.lock i).map fun m => (m, .getFind)
  | .getLogger name, .getFind => some (m, .getReturn (m.loggers name))
  | .getLogger _, .getReturn found => some (m.unlock, .returned found)
  | _, _ => none

end LoggerManager

/-! ## What a step does -/

section Turn
variable {ι : Type*} {i : ι} {m m' : LoggerManager ι} {c : RegistryCall} {pc pc' : RegistryPc}

/-- The steps of a call. -/
inductive Turn (i : ι) (m : LoggerManager ι) : RegistryCall → RegistryPc → LoggerManager ι → RegistryPc → Prop where
  | addLogger (logger : Logger) : Turn i m (.addLogger logger) .ready m .hasLock
  | hasLock (logger : Logger) (free : m.mutex = none) :
      Turn i m (.addLogger logger) .hasLock { m with mutex := some i } .hasFind
  | hasFind (logger : Logger) : Turn i m (.addLogger logger) .hasFind m (.hasReturn (m.loggers logger.name).isSome)
  | found (logger : Logger) : Turn i m (.addLogger logger) (.hasReturn true) m.unlock (.returned none)
  | absent (logger : Logger) : Turn i m (.addLogger logger) (.hasReturn false) m.unlock .insertLock
  | insertLock (logger : Logger) (free : m.mutex = none) :
      Turn i m (.addLogger logger) .insertLock { m with mutex := some i } .insert
  | insert (logger : Logger) : Turn i m (.addLogger logger) .insert (m.insert logger) .insertReturn
  | insertReturn (logger : Logger) : Turn i m (.addLogger logger) .insertReturn m.unlock (.returned none)
  | getLogger (name : Bytes) : Turn i m (.getLogger name) .ready m .getLock
  | getLock (name : Bytes) (free : m.mutex = none) :
      Turn i m (.getLogger name) .getLock { m with mutex := some i } .getFind
  | getFind (name : Bytes) : Turn i m (.getLogger name) .getFind m (.getReturn (m.loggers name))
  | getReturn (name : Bytes) (found : Option Logger) :
      Turn i m (.getLogger name) (.getReturn found) m.unlock (.returned found)

theorem of_lock {f : LoggerManager ι → LoggerManager ι × RegistryPc} {next : LoggerManager ι × RegistryPc}
    (locked : (m.lock i).map f = some next) : m.mutex = none ∧ next = f { m with mutex := some i } := by
  unfold LoggerManager.lock at locked
  split_ifs at locked with free
  · exact ⟨Option.isNone_iff_eq_none.mp free, (Option.some.inj locked).symm⟩
  · cases locked

theorem turn_cases (turned : m.turn i c pc = some (m', pc')) : Turn i m c pc m' pc' := by
  cases c with
  | addLogger logger =>
    cases pc with
    | ready => cases turned; exact .addLogger logger
    | hasLock =>
      obtain ⟨free, eq⟩ := of_lock turned
      cases eq
      exact .hasLock logger free
    | hasFind => cases turned; exact .hasFind logger
    | hasReturn found =>
      cases found with
      | true => cases turned; exact .found logger
      | false => cases turned; exact .absent logger
    | insertLock =>
      obtain ⟨free, eq⟩ := of_lock turned
      cases eq
      exact .insertLock logger free
    | insert => cases turned; exact .insert logger
    | insertReturn => cases turned; exact .insertReturn logger
    | _ => cases turned
  | getLogger name =>
    cases pc with
    | ready => cases turned; exact .getLogger name
    | getLock =>
      obtain ⟨free, eq⟩ := of_lock turned
      cases eq
      exact .getLock name free
    | getFind => cases turned; exact .getFind name
    | getReturn found => cases turned; exact .getReturn name found
    | _ => cases turned

/-- The map changes by insertions only. -/
theorem Turn.loggers (turn : Turn i m c pc m' pc') :
    (m'.loggers = m.loggers ∧ m'.inserted = m.inserted) ∨
      ∃ logger, m'.loggers = (m.insert logger).loggers ∧ m'.inserted = (m.insert logger).inserted := by
  cases turn with
  | insert logger => exact .inr ⟨logger, rfl, rfl⟩
  | _ => exact .inl ⟨rfl, rfl⟩

theorem Turn.grown (turn : Turn i m c pc m' pc') : Extends m.loggers m'.loggers := by
  rcases turn.loggers with ⟨same, -⟩ | ⟨logger, inserted, -⟩
  · rw [same]
    exact .refl _
  · rw [inserted]
    exact extends_insertNew m.loggers logger.name logger

/-- A step takes the mutex when it is free, or leaves it when it has it, or neither. -/
theorem Turn.lock (turn : Turn i m c pc m' pc') : LockStep m.mutex m'.mutex i pc.locked pc'.locked := by
  cases turn with
  | hasLock _ free => exact .acquire free rfl rfl
  | insertLock _ free => exact .acquire free rfl rfl
  | getLock _ free => exact .acquire free rfl rfl
  | found => exact .release rfl rfl rfl
  | absent => exact .release rfl rfl rfl
  | insertReturn => exact .release rfl rfl rfl
  | getReturn => exact .release rfl rfl rfl
  | _ => exact .stay rfl rfl

/-! ## The map and the loggers inserted -/

/-- The map binds the names of the loggers inserted, each to the one logger inserted under it. -/
structure Consistent (m : LoggerManager ι) : Prop where
  root : m.loggers ROOT = some rootLogger
  bound : ∀ n l, m.loggers n = some l → l.name = n ∧ l ∈ m.inserted
  kept : ∀ l ∈ m.inserted, m.loggers l.name = some l

theorem consistent_new : Consistent (LoggerManager.new : LoggerManager ι) := by
  constructor
  case root => simp [LoggerManager.new]
  case bound =>
    intro n l found
    by_cases isRoot : n = ROOT
    · subst isRoot
      obtain rfl : rootLogger = l := by simpa [LoggerManager.new] using found
      simp [LoggerManager.new, rootLogger]
    · simp [LoggerManager.new, isRoot] at found
  case kept => simp [LoggerManager.new, rootLogger]

theorem Consistent.insert (inv : Consistent m) (logger : Logger) : Consistent (m.insert logger) := by
  obtain ⟨root, bound, kept⟩ := inv
  have grown := extends_insertNew m.loggers logger.name logger
  cases before : m.loggers logger.name with
  | some other =>
    have same : m.insert logger = m := by
      simp [LoggerManager.insert, insertNew, before]
    rw [same]
    exact ⟨root, bound, kept⟩
  | none =>
    have map : (m.insert logger).loggers = Function.update m.loggers logger.name (some logger) := insertNew_free before
    have order : (m.insert logger).inserted = m.inserted ++ [logger] := by simp [LoggerManager.insert, before]
    constructor
    case root => exact grown _ _ root
    case bound =>
      intro n l found
      rw [map] at found
      rw [order]
      by_cases same : n = logger.name
      · subst same
        obtain rfl : logger = l := by simpa using found
        simp
      · rw [Function.update_of_ne same] at found
        obtain ⟨named, mem⟩ := bound n l found
        exact ⟨named, List.mem_append_left _ mem⟩
    case kept =>
      intro l mem
      rw [order] at mem
      rcases List.mem_append.mp mem with mem | mem
      · exact grown _ _ (kept l mem)
      · rw [List.mem_singleton.mp mem, map, Function.update_self]

theorem Consistent.turn (inv : Consistent m) (turn : Turn i m c pc m' pc') : Consistent m' := by
  rcases turn.loggers with ⟨map, order⟩ | ⟨logger, map, order⟩
  · obtain ⟨root, bound, kept⟩ := inv
    constructor <;> rw [map]
    case root => exact root
    case bound => rwa [order]
    case kept => rwa [order]
  · obtain ⟨root, bound, kept⟩ := inv.insert logger
    constructor <;> rw [map]
    case root => exact root
    case bound => rwa [order]
    case kept => rwa [order]

/-! ## What a call may rely on -/

/-- What the map holds where a call has found its name, or inserted it. -/
def Backed (loggers : Bytes → Option Logger) : RegistryCall → RegistryPc → Prop
  | .addLogger logger, .hasReturn true => (loggers logger.name).isSome
  | .addLogger logger, .insertReturn => (loggers logger.name).isSome
  | .addLogger logger, .returned _ => (loggers logger.name).isSome
  | .getLogger name, .getReturn (some logger) => loggers name = some logger
  | .getLogger name, .returned (some logger) => loggers name = some logger
  | _, _ => True

theorem Backed.mono {loggers loggers' : Bytes → Option Logger} (backed : Backed loggers c pc)
    (grown : Extends loggers loggers') : Backed loggers' c pc := by
  unfold Backed at backed ⊢
  split at backed
  · exact grown.isSome backed
  · exact grown.isSome backed
  · exact grown.isSome backed
  · exact grown _ _ backed
  · exact grown _ _ backed
  · simp_all

theorem Backed.turn (backed : Backed m.loggers c pc) (turn : Turn i m c pc m' pc') : Backed m'.loggers c pc' := by
  cases turn with
  | hasFind logger =>
    cases found : (m.loggers logger.name).isSome with
    | true => exact found
    | false => trivial
  | found logger => exact backed
  | insert logger => exact isSome_insertNew ..
  | insertReturn logger => exact backed
  | getFind name =>
    cases found : m.loggers name with
    | some logger => exact found
    | none => trivial
  | getReturn name found =>
    cases found with
    | some logger => exact backed
    | none => trivial
  | _ => trivial

/-- A call of `getLogger` has this result, as soon as it has one. -/
def Finds (logger : Logger) (pc : RegistryPc) : Prop :=
  ∀ found, pc = .getReturn found ∨ pc = .returned found → found = some logger

theorem Finds.turn {name : Bytes} {logger : Logger} (bound : m.loggers name = some logger) (finds : Finds logger pc)
    (turn : Turn i m (.getLogger name) pc m' pc') : Finds logger pc' := by
  cases turn with
  | getLogger => simp [Finds]
  | getLock => simp [Finds]
  | getFind => simp [Finds, bound]
  | getReturn _ found =>
    have result := finds found (.inl rfl)
    simp [Finds, result]

end Turn

/-! ## Runs -/

/-- The manager, and where each call is. -/
structure Registry (ι : Type*) where
  manager : LoggerManager ι
  pc : ι → RegistryPc

namespace Registry
variable {ι : Type*} [DecidableEq ι]

/-- These calls, in any interleaving; an action is the call that makes a step. -/
def machine (call : ι → RegistryCall) : Machine (Registry ι) ι where
  init := ⟨.new, fun _ => .ready⟩
  step s i := (s.manager.turn i (call i) (s.pc i)).map fun next => ⟨next.1, Function.update s.pc i next.2⟩

variable {call : ι → RegistryCall} {s s' : Registry ι} {i : ι}

theorem step_cases (taken : (machine call).step s i = some s') :
    Turn i s.manager (call i) (s.pc i) s'.manager (s'.pc i) ∧ ∀ j, j ≠ i → s'.pc j = s.pc j := by
  obtain ⟨⟨m, pc⟩, turned, rfl⟩ := Option.map_eq_some_iff.mp taken
  simp only [Function.update_self]
  exact ⟨turn_cases turned, fun j other => Function.update_of_ne other _ _⟩

/-- The call with the mutex is the one that is where it has it. -/
theorem exclusive_of_reachable (reached : (machine call).Reachable s) :
    Exclusive s.manager.mutex fun i => (s.pc i).locked := by
  refine reached.invariant ?_ ?_
  · simp [machine, Exclusive, LoggerManager.new, RegistryPc.locked]
  · intro s i s' inv _ taken
    obtain ⟨turn, others⟩ := step_cases taken
    exact inv.step turn.lock fun j other => by rw [others j other]

/-- No two calls are at the map at once. -/
theorem locked_unique (reached : (machine call).Reachable s) {i j : ι} (first : (s.pc i).locked = true)
    (second : (s.pc j).locked = true) : i = j :=
  (exclusive_of_reachable reached).unique first second

/-- The map is consistent, every call has what it relies on, and for `root` it finds the root logger. -/
structure Inv (call : ι → RegistryCall) (s : Registry ι) : Prop where
  consistent : Consistent s.manager
  backed : ∀ i, Backed s.manager.loggers (call i) (s.pc i)
  roots : ∀ i, call i = .getLogger ROOT → Finds rootLogger (s.pc i)

theorem inv_of_reachable (reached : (machine call).Reachable s) : Inv call s := by
  refine reached.invariant ?_ ?_
  · refine ⟨consistent_new, fun i => ?_, fun i _ => by simp [machine, Finds]⟩
    cases call i <;> trivial
  · intro s i s' inv _ taken
    obtain ⟨turn, others⟩ := step_cases taken
    refine ⟨inv.consistent.turn turn, fun j => ?_, fun j get => ?_⟩
    · by_cases same : j = i
      · rw [same]
        exact (inv.backed i).turn turn
      · rw [others j same]
        exact (inv.backed j).mono turn.grown
    · by_cases same : j = i
      · subst same
        rw [get] at turn
        exact (inv.roots j get).turn inv.consistent.root turn
      · rw [others j same]
        exact inv.roots j get

/-- From where a name is bound on, a call of `getLogger` for it that has not begun finds that. -/
theorem finds_later {name : Bytes} {logger : Logger} {j : ι} (bound : s.manager.loggers name = some logger)
    (get : call j = .getLogger name) (ready : s.pc j = .ready) {schedule : List ι}
    (later : (machine call).exec s schedule = some s') {r : Option Logger} (returned : s'.pc j = .returned r) :
    r = some logger := by
  have start : s.manager.loggers name = some logger ∧ Finds logger (s.pc j) := ⟨bound, by simp [Finds, ready]⟩
  have keep : ∀ (s : Registry ι) (i : ι) (s' : Registry ι),
      s.manager.loggers name = some logger ∧ Finds logger (s.pc j) → (machine call).step s i = some s' →
      s'.manager.loggers name = some logger ∧ Finds logger (s'.pc j) := by
    intro s i s' inv taken
    obtain ⟨turn, others⟩ := step_cases taken
    refine ⟨turn.grown _ _ inv.1, ?_⟩
    by_cases same : j = i
    · subst same
      rw [get] at turn
      exact inv.2.turn inv.1 turn
    · rw [others j same]
      exact inv.2
  have final := Machine.exec_invariant keep later start
  exact final.2 r (.inr returned)

/-- Loggers once inserted stay inserted. -/
theorem inserted_later {schedule : List ι} (later : (machine call).exec s schedule = some s') {logger : Logger}
    (mem : logger ∈ s.manager.inserted) : logger ∈ s'.manager.inserted := by
  have stays : ∀ (s : Registry ι) (i : ι) (s' : Registry ι), logger ∈ s.manager.inserted →
      (machine call).step s i = some s' → logger ∈ s'.manager.inserted := by
    intro s i s' mem taken
    rcases (step_cases taken).1.loggers with ⟨-, same⟩ | ⟨other, -, order⟩
    · rwa [same]
    · rw [order, LoggerManager.insert]
      simp only
      split
      · exact mem
      · exact List.mem_append_left _ mem
  exact Machine.exec_invariant stays later mem

/-- **The registry is write-once.** In every interleaving: after a call of `getLogger` has returned a
logger, every later one for the name returns the same; those for `root` return the root
logger; and after `addLogger` has returned, a call of `getLogger` for the name returns the
logger that was added, or one of its name that had been inserted by then, in whose place it
is never inserted. -/
theorem registry_writeOnce (call : ι → RegistryCall) {schedule : List ι} (reached : (machine call).Reachable s)
    (later : (machine call).exec s schedule = some s') :
    (∀ i j name logger r, call i = .getLogger name → s.pc i = .returned (some logger) →
      call j = .getLogger name → s.pc j = .ready → s'.pc j = .returned r → r = some logger) ∧
    (∀ j r, call j = .getLogger ROOT → s'.pc j = .returned r → r = some rootLogger) ∧
    (∀ i j logger r found, call i = .addLogger logger → s.pc i = .returned found →
      call j = .getLogger logger.name → s.pc j = .ready → s'.pc j = .returned r →
      ∃ other, r = some other ∧ (other = logger ∨ (other.name = logger.name ∧ other ∈ s.manager.inserted ∧
        logger ∉ s'.manager.inserted))) := by
  have inv := inv_of_reachable reached
  have inv' := inv_of_reachable (reached.exec later)
  refine ⟨?_, ?_, ?_⟩
  · intro i j name logger r get answered get' ready returned
    have bound : s.manager.loggers name = some logger := by simpa [get, answered, Backed] using inv.backed i
    exact finds_later bound get' ready later returned
  · intro j r get returned
    exact inv'.roots j get r (.inr returned)
  · intro i j logger r found add answered get ready returned
    have bound : (s.manager.loggers logger.name).isSome := by simpa [add, answered, Backed] using inv.backed i
    obtain ⟨other, eq⟩ := Option.isSome_iff_exists.mp bound
    obtain ⟨named, mem⟩ := inv.consistent.bound _ _ eq
    refine ⟨other, finds_later eq get ready later returned, ?_⟩
    by_cases same : other = logger
    · exact .inl same
    · refine .inr ⟨named, mem, fun late => same ?_⟩
      have first := inv'.consistent.kept other (inserted_later later mem)
      rw [named, inv'.consistent.kept logger late] at first
      exact (Option.some.inj first).symm

/-- Two loggers of one name are added at once, and then looked up twice. -/
def race : Fin 4 → RegistryCall
  | 0 => .addLogger ⟨ascii "a", 1⟩
  | 1 => .addLogger ⟨ascii "a", 2⟩
  | 2 => .getLogger (ascii "a")
  | 3 => .getLogger (ascii "a")

/-- Both find the name free; the second to insert comes too late, and both look-ups return the first. -/
theorem registry_writeOnce_race : ∃ s s' : Registry (Fin 4), (machine race).Reachable s ∧
    (machine race).exec s [3, 3, 3, 3] = some s' ∧ s.pc 0 = .returned none ∧ s.pc 1 = .returned none ∧
    s.pc 2 = .returned (some ⟨ascii "a", 2⟩) ∧ ∀ r, s'.pc 3 = .returned r → r = some ⟨ascii "a", 2⟩ := by
  have before : (machine race).exec (machine race).init
      [0, 0, 0, 0, 1, 1, 1, 1, 1, 1, 1, 0, 0, 0, 2, 2, 2, 2] = some _ := rfl
  have reached : (machine race).Reachable _ := Machine.Reachable.exec .init before
  refine ⟨_, _, reached, rfl, by decide, by decide, by decide, fun r returned => ?_⟩
  have later := @registry_writeOnce (Fin 4) _ _ _ race [3, 3, 3, 3] reached rfl
  exact later.1 2 3 (ascii "a") ⟨ascii "a", 2⟩ r rfl (by decide) rfl (by decide) returned

end Registry

end HttpServer.Logs
