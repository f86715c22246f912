import HttpServer.Lib.Draining
import HttpServer.Lib.Mutex

/-!
# An instance made on first use

`getinstance` with double-checked locking: if the static pointer is null, lock, look again,
construct, store the pointer and initialise, unlock; then return what the pointer holds. The
accesses to the pointer are atomic steps, in any interleaving of any number of callers. What is
constructed and how it is initialised is a parameter, one answer of the system at a time; an
answer may end the process. `Phase` is how far the one object has come and `Phase.Allows` where
callers may then be.
-/

namespace HttpServer.Lib

/-- What an answer leads to: more of the initialisation, its end, or the end of the process. -/
inductive Outcome (κ : Type*) where
  | more (k : κ)
  | done
  | exit (code : Nat)
  deriving DecidableEq, Repr

/-- A class: its constructor, and its initialisation from answer to answer. -/
structure Recipe (ι σ κ A : Type*) where
  construct : ι → σ
  start : κ
  advance : σ → κ → A → σ × Outcome κ

/-- Where a caller is. `locked` says whether it has been through the mutex. -/
inductive GetPc (κ : Type*) where
  | check
  | lock
  | recheck
  | construct
  | publish (x : Nat)
  | init (k : κ)
  | unlock
  | get (locked : Bool)
  | returned (x : Option Nat) (locked : Bool)

/-- The points with the mutex. -/
def GetPc.inside {κ : Type*} : GetPc κ → Bool
  | .recheck | .construct | .publish _ | .init _ | .unlock => true
  | .check | .lock | .get _ | .returned _ _ => false

/-- All objects ever constructed, the static pointer into them, the mutex, the callers, the answers
that the initialisation has had, and the exit code of a process that has ended. -/
structure LazyInstance (ι σ κ A : Type*) where
  objects : List σ
  pointer : Option Nat
  mutex : Option ι
  callers : ι → GetPc κ
  answers : List A
  exited : Option Nat

/-- A caller goes on, or the system answers it. -/
inductive GetAction (ι A : Type*) where
  | go (i : ι)
  | answer (i : ι) (a : A)

namespace LazyInstance
variable {ι σ κ A : Type*} [DecidableEq ι]

def new : LazyInstance ι σ κ A := ⟨[], none, none, fun _ => .check, [], none⟩

def setCaller (s : LazyInstance ι σ κ A) (i : ι) (pc : GetPc κ) : LazyInstance ι σ κ A :=
  { s with callers := Function.update s.callers i pc }

/-- Caller `i` goes on, if it waits for no answer. -/
def go (r : Recipe ι σ κ A) (s : LazyInstance ι σ κ A) (i : ι) : Option (LazyInstance ι σ κ A) :=
  match s.callers i with
  | .check => some (s.setCaller i (if s.pointer.isNone then .lock else .get false))
  | .lock => if s.mutex.isNone then some ({ s with mutex := some i }.setCaller i .recheck) else none
  | .recheck => some (s.setCaller i (if s.pointer.isNone then .construct else .unlock))
  | .construct => some ({ s with objects := s.objects ++ [r.construct i] }.setCaller i (.publish s.objects.length))
  | .publish x => some ({ s with pointer := some x }.setCaller i (.init r.start))
  | .unlock => some ({ s with mutex := none }.setCaller i (.get true))
  | .get locked => some (s.setCaller i (.returned s.pointer locked))
  | .init _ | .returned _ _ => none

/-- The system answers caller `i`, which initialises the object of the static pointer. -/
def answer (r : Recipe ι σ κ A) (s : LazyInstance ι σ κ A) (i : ι) (a : A) : Option (LazyInstance ι σ κ A) :=
  match s.callers i, s.pointer with
  | .init k, some x =>
    s.objects[x]?.map fun o =>
      let s := { s with objects := s.objects.set x (r.advance o k a).1, answers := s.answers ++ [a] }
      match (r.advance o k a).2 with
      | .more k' => s.setCaller i (.init k')
      | .done => s.setCaller i .unlock
      | .exit code => { s with exited := some code }
  | _, _ => none

/-- No thread of a process that has ended goes on. -/
def step (r : Recipe ι σ κ A) (s : LazyInstance ι σ κ A) : GetAction ι A → Option (LazyInstance ι σ κ A)
  | .go i => if s.exited.isNone then s.go r i else none
  | .answer i a => if s.exited.isNone then s.answer r i a else none

def machine (r : Recipe ι σ κ A) : Machine (LazyInstance ι σ κ A) (GetAction ι A) := ⟨new, step r⟩

end LazyInstance

/-! ## One initialisation -/

/-- The object that caller `i` constructs, after these answers, and what is then to do. -/
inductive Recipe.Replay {ι σ κ A : Type*} (r : Recipe ι σ κ A) (i : ι) : List A → σ → Outcome κ → Prop where
  | start : Replay r i [] (r.construct i) (.more r.start)
  | answer {answers : List A} {o : σ} {k : κ} (a : A) (before : Replay r i answers o (.more k)) :
      Replay r i (answers ++ [a]) (r.advance o k a).1 (r.advance o k a).2

/-- Every answer brings the initialisation nearer to its end. -/
def Recipe.Lowers {ι σ κ A : Type*} (r : Recipe ι σ κ A) (weight : κ → Nat) : Prop :=
  ∀ i answers o k, r.Replay i answers o (.more k) → ∀ a k', (r.advance o k a).2 = .more k' → weight k' < weight k

/-- How far the one object has come. -/
inductive Phase (ι κ : Type*) where
  | unmade
  | made (maker : ι)
  | begun (maker : ι) (out : Outcome κ)

/-- Where callers may be. -/
inductive Phase.Allows {ι κ : Type*} : Phase ι κ → GetPc κ → Prop where
  | check (phase : Phase ι κ) : Allows phase .check
  | lock (phase : Phase ι κ) : Allows phase .lock
  | recheck : Allows .unmade .recheck
  | construct : Allows .unmade .construct
  | publish (maker : ι) : Allows (.made maker) (.publish 0)
  | init (maker : ι) (k : κ) : Allows (.begun maker (.more k)) (.init k)
  | exited (maker : ι) (code : Nat) (pc : GetPc κ) : Allows (.begun maker (.exit code)) pc
  | getEarly (maker : ι) (out : Outcome κ) : Allows (.begun maker out) (.get false)
  | returnedEarly (maker : ι) (out : Outcome κ) : Allows (.begun maker out) (.returned (some 0) false)
  | again (maker : ι) : Allows (.begun maker .done) .recheck
  | unlock (maker : ι) : Allows (.begun maker .done) .unlock
  | get (maker : ι) : Allows (.begun maker .done) (.get true)
  | returned (maker : ι) : Allows (.begun maker .done) (.returned (some 0) true)

namespace Phase
variable {ι κ : Type*} {pc : GetPc κ} {maker : ι}

/-- Somebody is on the way with the mutex. -/
def busy : Phase ι κ → Bool
  | .made _ | .begun _ (.more _) => true
  | .unmade | .begun _ .done | .begun _ (.exit _) => false

/-- Outside the critical section a caller may stay where it is when the object is made, -/
theorem Allows.made (allowed : (Phase.unmade : Phase ι κ).Allows pc) (outside : pc.inside = false) :
    (Phase.made maker).Allows pc := by
  cases allowed with
  | check => exact .check _
  | lock => exact .lock _
  | recheck | construct => cases outside

/-- when it is published, -/
theorem Allows.begun {out : Outcome κ} (allowed : (Phase.made maker).Allows pc) (outside : pc.inside = false) :
    (Phase.begun maker out).Allows pc := by
  cases allowed with
  | check => exact .check _
  | lock => exact .lock _
  | publish => cases outside

/-- and when its initialisation goes on. -/
theorem Allows.answered {k : κ} {out : Outcome κ} (allowed : (Phase.begun maker (.more k)).Allows pc)
    (outside : pc.inside = false) : (Phase.begun maker out).Allows pc := by
  cases allowed with
  | check => exact .check _
  | lock => exact .lock _
  | init => cases outside
  | getEarly => exact .getEarly _ _
  | returnedEarly => exact .returnedEarly _ _

end Phase

/-- What the phase says of the objects, the pointer, the answers and the exit code. -/
inductive Phase.Shows {ι σ κ A : Type*} (r : Recipe ι σ κ A) :
    Phase ι κ → List σ → Option Nat → List A → Option Nat → Prop where
  | unmade : Shows r .unmade [] none [] none
  | made (maker : ι) : Shows r (.made maker) [r.construct maker] none [] none
  | begun {maker : ι} {answers : List A} {o : σ} {out : Outcome κ} (replayed : r.Replay maker answers o out)
      (running : ∀ code, out ≠ .exit code) : Shows r (.begun maker out) [o] (some 0) answers none
  | exited {maker : ι} {answers : List A} {o : σ} {code : Nat} (replayed : r.Replay maker answers o (.exit code)) :
      Shows r (.begun maker (.exit code)) [o] (some 0) answers (some code)

namespace Phase.Shows
variable {ι σ κ A : Type*} {r : Recipe ι σ κ A} {maker : ι} {out : Outcome κ} {objects : List σ} {pointer : Option Nat}
  {answers : List A} {exited : Option Nat}

theorem of_unmade (shows : Shows r .unmade objects pointer answers exited) :
    objects = [] ∧ pointer = none ∧ answers = [] := by
  cases shows
  exact ⟨rfl, rfl, rfl⟩

theorem of_made (shows : Shows r (.made maker) objects pointer answers exited) :
    objects = [r.construct maker] ∧ pointer = none ∧ answers = [] := by
  cases shows
  exact ⟨rfl, rfl, rfl⟩

theorem of_begun (shows : Shows r (.begun maker out) objects pointer answers exited) :
    ∃ o, objects = [o] ∧ pointer = some 0 ∧ r.Replay maker answers o out := by
  cases shows with
  | begun replayed => exact ⟨_, rfl, rfl, replayed⟩
  | exited replayed => exact ⟨_, rfl, rfl, replayed⟩

/-- A process that goes on has not been ended by an answer. -/
theorem running (shows : Shows r (.begun maker out) objects pointer answers none) (code : Nat) : out ≠ .exit code := by
  cases shows with
  | begun _ running => exact running code

end Phase.Shows

namespace LazyInstance
variable {ι σ κ A : Type*} {r : Recipe ι σ κ A} {s s' : LazyInstance ι σ κ A} {phase : Phase ι κ} {i : ι} {pc : GetPc κ}

/-- The invariant of `getinstance`. -/
structure InPhase (r : Recipe ι σ κ A) (s : LazyInstance ι σ κ A) (phase : Phase ι κ) : Prop where
  shows : phase.Shows r s.objects s.pointer s.answers s.exited
  exclusive : Exclusive s.mutex fun i => (s.callers i).inside
  callers : ∀ i, phase.Allows (s.callers i)
  busy : phase.busy = true → s.mutex ≠ none

/-- In a process that goes on, a caller is nowhere because of an exit. -/
theorem InPhase.running {maker : ι} {code : Nat} (inv : InPhase r s (.begun maker (.exit code)))
    (alive : s.exited = none) : False := by
  have shows := inv.shows
  rw [alive] at shows
  exact shows.running code rfl

variable [DecidableEq ι]

/-- A caller that takes, releases or leaves alone the mutex. -/
theorem InPhase.goes (inv : InPhase r s phase) (mutex : Option ι)
    (move : LockStep s.mutex mutex i (s.callers i).inside pc.inside) (allowed : phase.Allows pc)
    (busy : phase.busy = true → mutex ≠ none) : InPhase r ({ s with mutex := mutex }.setCaller i pc) phase := by
  refine ⟨inv.shows, ?_, ?_, busy⟩
  · apply inv.exclusive.step (h := i)
    · simpa [setCaller] using move
    · intro j other
      simp [setCaller, Function.update_of_ne other]
  · intro j
    by_cases mine : j = i
    · subst mine
      simpa [setCaller] using allowed
    · simpa [setCaller, Function.update_of_ne mine] using inv.callers j

/-- The caller with the mutex brings the object into its next phase. -/
theorem InPhase.works {phase' : Phase ι κ} {objects : List σ} {pointer : Option Nat} {answers : List A}
    (inv : InPhase r s phase) (inside : (s.callers i).inside = true) (stays : pc.inside = true)
    (shows : phase'.Shows r objects pointer answers s.exited) (allowed : phase'.Allows pc)
    (others : ∀ pc, phase.Allows pc → pc.inside = false → phase'.Allows pc) :
    InPhase r (⟨objects, pointer, s.mutex, Function.update s.callers i pc, answers, s.exited⟩) phase' := by
  have held := (inv.exclusive i).mp inside
  refine ⟨shows, ?_, ?_, ?_⟩
  · apply inv.exclusive.step (h := i)
    · apply LockStep.stay _ rfl
      simp [inside, stays]
    · intro j other
      simp [Function.update_of_ne other]
  · intro j
    by_cases mine : j = i
    · subst mine
      simpa using allowed
    · simp only [Function.update_of_ne mine]
      exact others _ (inv.callers j) (inv.exclusive.outside inside mine)
  · intro _ free
    rw [held] at free
    cases free

omit [DecidableEq ι] in
theorem inPhase_new : InPhase r (new : LazyInstance ι σ κ A) .unmade := by
  constructor
  case shows => exact .unmade
  case exclusive =>
    intro i
    simp [new, GetPc.inside]
  case callers => exact fun _ => .check _
  case busy => simp [Phase.busy]

theorem inPhase_go (inv : InPhase r s phase) (alive : s.exited = none) (taken : s.go r i = some s') :
    ∃ phase', InPhase r s' phase' := by
  have own := inv.callers i
  have shows := inv.shows
  unfold go at taken
  cases pc : s.callers i with
  | check =>
    simp only [pc] at taken
    cases taken
    refine ⟨phase, inv.goes s.mutex (.stay ?_ rfl) ?_ inv.busy⟩
    · split <;> simp [pc, GetPc.inside]
    · split
      · exact .lock _
      · rename_i published
        cases phase with
        | unmade => simp [shows.of_unmade.2.1] at published
        | made maker => simp [shows.of_made.2.1] at published
        | begun maker out => exact .getEarly maker out
  | lock =>
    simp only [pc] at taken
    split at taken
    · rename_i free
      have free := Option.isNone_iff_eq_none.mp free
      have idle : phase.busy ≠ true := fun busy => inv.busy busy free
      cases taken
      refine ⟨phase, inv.goes (some i) (.acquire free rfl rfl) ?_ (by simp)⟩
      cases phase with
      | unmade => exact .recheck
      | made maker => exact absurd rfl idle
      | begun maker out =>
        cases out with
        | more k => exact absurd rfl idle
        | done => exact .again maker
        | exit code => exact (inv.running alive).elim
    · cases taken
  | recheck =>
    simp only [pc] at taken
    cases taken
    rw [pc] at own
    refine ⟨phase, inv.goes s.mutex (.stay ?_ rfl) ?_ inv.busy⟩
    · split <;> simp [pc, GetPc.inside]
    · cases own with
      | recheck =>
        rw [shows.of_unmade.2.1]
        exact .construct
      | again maker =>
        obtain ⟨o, -, published, -⟩ := shows.of_begun
        rw [published]
        exact .unlock maker
      | exited => exact (inv.running alive).elim
  | construct =>
    simp only [pc] at taken
    cases taken
    rw [pc] at own
    cases own with
    | construct =>
      obtain ⟨objects, pointer, answers⟩ := shows.of_unmade
      refine ⟨.made i, inv.works (by rw [pc]; rfl) rfl ?_ ?_ fun pc allowed outside => allowed.made outside⟩
      · rw [objects, pointer, answers, alive]
        exact .made i
      · rw [objects]
        exact .publish i
    | exited => exact (inv.running alive).elim
  | publish x =>
    simp only [pc] at taken
    cases taken
    rw [pc] at own
    cases own with
    | publish maker =>
      obtain ⟨objects, -, answers⟩ := shows.of_made
      refine ⟨.begun maker (.more r.start), inv.works (by rw [pc]; rfl) rfl ?_ ?_ ?_⟩
      · rw [objects, answers, alive]
        exact .begun .start fun code => by simp
      · exact .init maker r.start
      · exact fun pc allowed outside => allowed.begun outside
    | exited => exact (inv.running alive).elim
  | unlock =>
    simp only [pc] at taken
    cases taken
    rw [pc] at own
    cases own with
    | unlock maker =>
      refine ⟨.begun maker .done, inv.goes none (.release ?_ rfl rfl) (.get maker) (by simp [Phase.busy])⟩
      rw [pc]
      rfl
    | exited => exact (inv.running alive).elim
  | get locked =>
    simp only [pc] at taken
    cases taken
    rw [pc] at own
    refine ⟨phase, inv.goes s.mutex (.stay ?_ rfl) ?_ inv.busy⟩
    · simp [pc, GetPc.inside]
    · cases own with
      | getEarly maker out =>
        obtain ⟨o, -, published, -⟩ := shows.of_begun
        rw [published]
        exact .returnedEarly maker out
      | get maker =>
        obtain ⟨o, -, published, -⟩ := shows.of_begun
        rw [published]
        exact .returned maker
      | exited => exact (inv.running alive).elim
  | init k | returned x locked =>
    simp only [pc] at taken
    cases taken

theorem inPhase_answer {a : A} (inv : InPhase r s phase) (alive : s.exited = none) (taken : s.answer r i a = some s') :
    ∃ phase', InPhase r s' phase' := by
  have own := inv.callers i
  have shows := inv.shows
  unfold answer at taken
  split at taken
  · rename_i k x pc pointer
    obtain ⟨o, object, rfl⟩ := Option.map_eq_some_iff.mp taken
    rw [pc] at own
    cases own with
    | init maker k =>
      obtain ⟨o', objects, published, replayed⟩ := shows.of_begun
      obtain rfl := Option.some.inj (published.symm.trans pointer)
      rw [objects] at object
      obtain rfl := Option.some.inj object
      have answered := replayed.answer a
      have inside : (s.callers i).inside = true := by
        rw [pc]
        rfl
      refine ⟨.begun maker (r.advance o' k a).2, ?_⟩
      have others (pc : GetPc κ) (allowed : (Phase.begun maker (.more k)).Allows pc) (outside : pc.inside = false) :
          (Phase.begun maker (r.advance o' k a).2).Allows pc := allowed.answered outside
      cases out : (r.advance o' k a).2 with
      | more k' =>
        rw [out] at answered others
        apply inv.works inside rfl _ (.init maker k') others
        rw [objects, published, alive]
        exact .begun answered fun code => by simp
      | done =>
        rw [out] at answered others
        apply inv.works inside rfl _ (.unlock maker) others
        rw [objects, published, alive]
        exact .begun answered fun code => by simp
      | exit code =>
        rw [out] at answered
        constructor
        case shows =>
          simp only [objects, published]
          exact .exited answered
        case exclusive => exact inv.exclusive
        case callers => exact fun j => .exited _ _ _
        case busy => simp [Phase.busy]
    | exited => exact (inv.running alive).elim
  · cases taken

def Phased (r : Recipe ι σ κ A) (s : LazyInstance ι σ κ A) : Prop := ∃ phase, InPhase r s phase

/-- Every state reached is in a phase. -/
theorem phased_of_reachable (reached : (machine r).Reachable s) : Phased r s := by
  refine reached.invariant ⟨.unmade, inPhase_new⟩ ?_
  rintro s a s' ⟨phase, inv⟩ - taken
  cases a with
  | go i =>
    obtain ⟨alive, taken⟩ := Option.ite_none_right_eq_some.mp taken
    exact inPhase_go inv (Option.isNone_iff_eq_none.mp alive) taken
  | answer i a =>
    obtain ⟨alive, taken⟩ := Option.ite_none_right_eq_some.mp taken
    exact inPhase_answer inv (Option.isNone_iff_eq_none.mp alive) taken

/-- At most one object is ever constructed. -/
theorem one_object (reached : (machine r).Reachable s) : s.objects.length ≤ 1 := by
  obtain ⟨phase, inv⟩ := phased_of_reachable reached
  have shows := inv.shows
  cases phase with
  | unmade => simp [shows.of_unmade.1]
  | made maker => simp [shows.of_made.1]
  | begun maker out =>
    obtain ⟨o, objects, -⟩ := shows.of_begun
    simp [objects]

/-- What has been constructed is what one initialisation has made of it with all the answers so far. -/
theorem replay_of_mem {o : σ} (reached : (machine r).Reachable s) (mem : o ∈ s.objects) :
    ∃ maker out, r.Replay maker s.answers o out := by
  obtain ⟨phase, inv⟩ := phased_of_reachable reached
  have shows := inv.shows
  cases phase with
  | unmade =>
    rw [shows.of_unmade.1] at mem
    cases mem
  | made maker =>
    obtain ⟨objects, -, answers⟩ := shows.of_made
    rw [objects, List.mem_singleton] at mem
    rw [mem, answers]
    exact ⟨maker, _, .start⟩
  | begun maker out =>
    obtain ⟨o', objects, -, replayed⟩ := shows.of_begun
    rw [objects, List.mem_singleton] at mem
    rw [mem]
    exact ⟨maker, out, replayed⟩

/-- And before that there are none. -/
theorem answers_eq_nil (reached : (machine r).Reachable s) (unmade : s.objects = []) : s.answers = [] := by
  obtain ⟨phase, inv⟩ := phased_of_reachable reached
  have shows := inv.shows
  cases phase with
  | unmade => exact shows.of_unmade.2.2
  | made maker => exact shows.of_made.2.2
  | begun maker out =>
    obtain ⟨o, objects, -⟩ := shows.of_begun
    rw [unmade] at objects
    cases objects

/-- Every caller gets the one object, on which one initialisation has begun; it has ended if the caller has
been through the mutex. -/
theorem of_returned {x : Option Nat} {locked : Bool} (reached : (machine r).Reachable s) (alive : s.exited = none)
    (returned : s.callers i = .returned x locked) :
    x = some 0 ∧ ∃ maker o out, s.objects = [o] ∧ r.Replay maker s.answers o out ∧ (locked = true → out = .done) := by
  obtain ⟨phase, inv⟩ := phased_of_reachable reached
  have own := inv.callers i
  rw [returned] at own
  cases own with
  | returnedEarly maker out =>
    obtain ⟨o, objects, -, replayed⟩ := inv.shows.of_begun
    exact ⟨rfl, maker, o, out, objects, replayed, fun absurd => by cases absurd⟩
  | returned maker =>
    obtain ⟨o, objects, -, replayed⟩ := inv.shows.of_begun
    exact ⟨rfl, maker, o, .done, objects, replayed, fun _ => rfl⟩
  | exited => exact (inv.running alive).elim

/-- The process has ended by an answer to the initialisation of its object. -/
theorem of_exited {code : Nat} (reached : (machine r).Reachable s) (ended : s.exited = some code) :
    ∃ maker o, s.objects = [o] ∧ r.Replay maker s.answers o (.exit code) := by
  obtain ⟨phase, inv⟩ := phased_of_reachable reached
  have shows := inv.shows
  rw [ended] at shows
  generalize s.objects = objects at shows ⊢
  generalize s.pointer = pointer at shows
  generalize s.answers = answers at shows ⊢
  cases shows with
  | exited replayed => exact ⟨_, _, rfl, replayed⟩

/-! ## Every call ends -/

/-- The process has ended, or every caller has returned with the one object. -/
def Settled (s : LazyInstance ι σ κ A) : Prop :=
  s.exited ≠ none ∨ ∀ i, ∃ locked, s.callers i = .returned (some 0) locked

/-- The steps a caller may still take, if the initialisation takes at most `weight k` from `k` on. -/
def pcRank (weight : κ → Nat) (start : Nat) : GetPc κ → Nat
  | .check => start + 9
  | .lock => start + 8
  | .recheck => start + 7
  | .construct => start + 6
  | .publish _ => start + 5
  | .init k => weight k + 4
  | .unlock => 3
  | .get _ => 2
  | .returned _ _ => 1

variable [Fintype ι] {weight : κ → Nat}

/-- The steps all callers may still take. -/
def rank (r : Recipe ι σ κ A) (weight : κ → Nat) (s : LazyInstance ι σ κ A) : Nat :=
  total s.callers (pcRank weight (weight r.start)) + if s.exited.isNone then 1 else 0

theorem total_lt {f : ι → GetPc κ} {start : Nat} (lower : pcRank weight start pc < pcRank weight start (f i)) :
    total (Function.update f i pc) (pcRank weight start) < total f (pcRank weight start) := by
  have exchange := total_update f (pcRank weight start) i pc
  omega

theorem rank_go (taken : s.go r i = some s') : rank r weight s' < rank r weight s := by
  unfold go at taken
  cases pc : s.callers i with
  | check | recheck =>
    simp only [pc] at taken
    cases taken
    apply Nat.add_lt_add_right
    apply total_lt
    split <;> simp [pc, pcRank]
  | lock =>
    simp only [pc] at taken
    split at taken <;> cases taken
    apply Nat.add_lt_add_right
    apply total_lt
    simp [pc, pcRank]
  | construct | publish x | unlock | get locked =>
    simp only [pc] at taken
    cases taken
    apply Nat.add_lt_add_right
    apply total_lt
    simp [pc, pcRank]
  | init k | returned x locked =>
    simp only [pc] at taken
    cases taken

theorem rank_answer {a : A} (lower : r.Lowers weight) (inv : InPhase r s phase) (alive : s.exited = none)
    (taken : s.answer r i a = some s') : rank r weight s' < rank r weight s := by
  have own := inv.callers i
  unfold answer at taken
  split at taken
  · rename_i k x pc pointer
    obtain ⟨o, object, rfl⟩ := Option.map_eq_some_iff.mp taken
    rw [pc] at own
    cases own with
    | init maker k =>
      obtain ⟨o', objects, published, replayed⟩ := inv.shows.of_begun
      obtain rfl := Option.some.inj (published.symm.trans pointer)
      rw [objects] at object
      obtain rfl := Option.some.inj object
      cases out : (r.advance o' k a).2 with
      | more k' =>
        have less := lower maker s.answers o' k replayed a k' out
        apply Nat.add_lt_add_right
        apply total_lt
        simpa [pc, pcRank] using less
      | done =>
        apply Nat.add_lt_add_right
        apply total_lt
        simp only [pc, pcRank]
        omega
      | exit code => simp [rank, alive]
    | exited => exact (inv.running alive).elim
  · cases taken

omit [Fintype ι] in
/-- A caller that holds the mutex can go on. -/
theorem enabled_of_inside [Nonempty A] (inv : InPhase r s phase) (alive : s.exited = none)
    (inside : (s.callers i).inside = true) : ∃ a, (s.step r a).isSome := by
  have running : s.exited.isNone = true := by rw [alive]; rfl
  cases pc : s.callers i with
  | recheck | construct | publish x | unlock =>
    refine ⟨.go i, ?_⟩
    simp [step, running, go, pc]
  | init k =>
    have own := inv.callers i
    rw [pc] at own
    cases own with
    | init maker k =>
      obtain ⟨o, objects, published, -⟩ := inv.shows.of_begun
      refine ⟨.answer i (Classical.arbitrary A), ?_⟩
      simp [step, running, answer, pc, published, objects]
    | exited => exact (inv.running alive).elim
  | check | lock | get locked | returned x locked =>
    rw [pc] at inside
    cases inside

omit [Fintype ι] in
theorem settled_of_stuck [Nonempty A] (inv : InPhase r s phase) (stuck : ∀ a, s.step r a = none) : s.Settled := by
  by_cases alive : s.exited = none
  · right
    have running : s.exited.isNone = true := by rw [alive]; rfl
    -- whoever has the mutex goes on, so nobody has it
    have free : s.mutex = none := by
      cases held : s.mutex with
      | none => rfl
      | some j =>
        obtain ⟨a, enabled⟩ := enabled_of_inside inv alive ((inv.exclusive j).mpr held)
        rw [stuck a] at enabled
        cases enabled
    intro i
    have blocked := stuck (.go i)
    have outside := mt (inv.exclusive i).mp (by rw [free]; simp)
    simp only [step, running, if_true, go] at blocked
    cases pc : s.callers i with
    | returned x locked =>
      have own := inv.callers i
      rw [pc] at own
      cases own with
      | returnedEarly | returned => exact ⟨_, rfl⟩
      | exited => exact (inv.running alive).elim
    | check | get locked =>
      rw [pc] at blocked
      cases blocked
    | lock => simp [pc, free] at blocked
    | recheck | construct | publish x | init k | unlock => simp [pc, GetPc.inside] at outside
  · exact .inl alive

/-- If the initialisation ends, so does every call of `getinstance`: none waits for ever. -/
theorem drains [Nonempty A] (lower : r.Lowers weight) (reached : (machine r).Reachable s) :
    (machine r).Drains (fun _ => True) Settled s := by
  apply Machine.drains_of_rank Nat.lt_wfRel.wf (rank r weight) _ _ (phased_of_reachable reached)
  · rintro s a s' ⟨phase, inv⟩ - taken
    cases a with
    | go i =>
      obtain ⟨alive, taken⟩ := Option.ite_none_right_eq_some.mp taken
      exact ⟨inPhase_go inv (Option.isNone_iff_eq_none.mp alive) taken, rank_go taken⟩
    | answer i a =>
      obtain ⟨alive, taken⟩ := Option.ite_none_right_eq_some.mp taken
      have alive := Option.isNone_iff_eq_none.mp alive
      exact ⟨inPhase_answer inv alive taken, rank_answer lower inv alive taken⟩
  · rintro s ⟨phase, inv⟩ stuck
    exact settled_of_stuck inv fun a => stuck a trivial

end LazyInstance

end HttpServer.Lib
