import HttpServer.Lib.Machine
import Mathlib.Data.List.Basic

/-!
# Who holds the ends of a request's pipes

Any number of workers in `ProcessCgi` at once, on one descriptor table: `pipe` puts two ends
into the table, `fork` copies the table into the child, and no descriptor is closed on
`exec`. A CGI program may close descriptors and exit, and makes no processes of its own. The
read loop of a worker ends when nobody holds a write end of its pipe.
`holders_of_reading` shows that only its own child can, in every run in which no worker
forks while another is between the creation of its pipe and its `close(input[1])`.
-/

namespace HttpServer.Cgi
open Lib

/-- An end of a pipe. -/
inductive PipeEnd where
  | read (pipe : Nat)
  | write (pipe : Nat)
  deriving DecidableEq, Repr

/-- The pipe ends among the descriptors of a process. -/
abbrev Table := List (Nat × PipeEnd)

namespace Table

/-- `close(fd)`. -/
def close (t : Table) (fd : Nat) : Table := t.filter fun entry => entry.1 ≠ fd

/-- `dup2(old, new)`. -/
def dup2 (t : Table) (old new : Nat) : Table :=
  match t.lookup old with
  | some e => (new, e) :: t.close new
  | none => t

/-- Whether a write end of the pipe is held. -/
def writes (t : Table) (pipe : Nat) : Bool := t.any fun entry => entry.2 = .write pipe

theorem writes_iff {t : Table} {pipe : Nat} : t.writes pipe = true ↔ ∃ fd, (fd, PipeEnd.write pipe) ∈ t := by
  simp [writes]

theorem writes_eq_false_iff {t : Table} {pipe : Nat} :
    t.writes pipe = false ↔ ∀ fd, (fd, PipeEnd.write pipe) ∉ t := by
  rw [← Bool.not_eq_true, writes_iff, not_exists]

theorem mem_of_close {t : Table} {fd : Nat} {entry : Nat × PipeEnd} (mem : entry ∈ t.close fd) : entry ∈ t :=
  List.mem_of_mem_filter mem

/-- `dup2` makes a new descriptor of an end that is held already. -/
theorem mem_of_dup2 {t : Table} {old new fd : Nat} {e : PipeEnd} (mem : (fd, e) ∈ t.dup2 old new) :
    ∃ fd', (fd', e) ∈ t := by
  unfold dup2 at mem
  split at mem
  case h_1 e' found =>
    rcases List.mem_cons.mp mem with same | kept
    · cases same
      obtain ⟨before, after, split, -⟩ := List.lookup_eq_some_iff.mp found
      exact ⟨old, by simp [split]⟩
    · exact ⟨fd, mem_of_close kept⟩
  case h_2 => exact ⟨fd, mem⟩

end Table

/-- An `int[2]` that `pipe` has filled in, and the pipe it is of. -/
structure Ends where
  pipe : Nat
  rd : Nat
  wr : Nat
  deriving DecidableEq, Repr

/-- Where a child is between `fork` and `execl`; from `running` on it is the CGI program. -/
inductive ChildPc where
  | closeInput
  | closeOutput
  | dupOutput
  | dupInput
  | execl
  | running
  deriving DecidableEq, Repr

/-- A child process, with the descriptors of its request. -/
structure Child where
  pid : Nat
  pc : ChildPc
  table : Table
  input : Ends
  output : Ends
  deriving DecidableEq

/-- A step of the child. `execl` keeps every descriptor. -/
def Child.step (c : Child) : Child :=
  match c.pc with
  | .closeInput => { c with table := c.table.close c.input.rd, pc := .closeOutput }
  | .closeOutput => { c with table := c.table.close c.output.wr, pc := .dupOutput }
  | .dupOutput => { c with table := c.table.dup2 c.output.rd 0, pc := .dupInput }
  | .dupInput => { c with table := c.table.dup2 c.input.wr 1, pc := .execl }
  | .execl => { c with pc := .running }
  | .running => c

theorem Child.step_pid (c : Child) : c.step.pid = c.pid := by
  unfold Child.step
  split <;> rfl

/-- On its way to the program the child gets no end of a pipe that it did not have. -/
theorem Child.mem_of_step {c : Child} {fd : Nat} {e : PipeEnd} (mem : (fd, e) ∈ c.step.table) :
    ∃ fd', (fd', e) ∈ c.table := by
  unfold Child.step at mem
  split at mem
  case h_1 => exact ⟨fd, Table.mem_of_close mem⟩
  case h_2 => exact ⟨fd, Table.mem_of_close mem⟩
  case h_3 => exact Table.mem_of_dup2 mem
  case h_4 => exact Table.mem_of_dup2 mem
  case h_5 => exact ⟨fd, mem⟩
  case h_6 => exact ⟨fd, mem⟩

/-- Where a worker is in `ProcessCgi`, and what it has by then. -/
inductive WorkerPc where
  | pipeInput
  | pipeOutput (input : Ends)
  | fork (input output : Ends)
  | closeInputWrite (input output : Ends) (pid : Nat)
  | closeOutputRead (input output : Ends) (pid : Nat)
  | writeLoop (input output : Ends) (pid : Nat)
  | readLoop (input output : Ends) (pid : Nat)
  | waitpid (input output : Ends) (pid : Nat)
  | closeInputRead (input output : Ends)
  | closeOutputWrite (output : Ends)
  deriving DecidableEq

/-- Where a write end of a request's pipe may be: at a descriptor of the server, and in the
request's own child. -/
structure Holding where
  pipe : Nat
  server : Option Nat
  child : Option Nat

/-- What may hold the write end of `input` at each point of `ProcessCgi`, while it matters. -/
def WorkerPc.holding : WorkerPc → Option Holding
  | .pipeOutput input => some ⟨input.pipe, some input.wr, none⟩
  | .fork input _ => some ⟨input.pipe, some input.wr, none⟩
  | .closeInputWrite input _ pid => some ⟨input.pipe, some input.wr, some pid⟩
  | .closeOutputRead input _ pid => some ⟨input.pipe, none, some pid⟩
  | .writeLoop input _ pid => some ⟨input.pipe, none, some pid⟩
  | .readLoop input _ pid => some ⟨input.pipe, none, some pid⟩
  | _ => none

/-- The worker is between its `pipe(input)` and its `close(input[1])`. -/
def WorkerPc.inWindow : WorkerPc → Bool
  | .pipeOutput _ | .fork _ _ | .closeInputWrite _ _ _ => true
  | _ => false

theorem WorkerPc.server_of_outside {pc : WorkerPc} {h : Holding} (holds : pc.holding = some h)
    (outside : pc.inWindow = false) : h.server = none := by
  cases pc <;> cases holds <;> first | rfl | cases outside

/-- The server process, its children, and the next pipe and process to be made. -/
structure Server (ι : Type) where
  table : Table
  children : List Child
  workers : ι → WorkerPc
  nextPipe : Nat
  nextPid : Nat

/-- What happens next: a worker calls `pipe` and gets two descriptors, leaves early, forks,
makes its next step, or sees the end of its read loop; a child makes its next step; its
program closes a descriptor; a child exits. -/
inductive ServerAction (ι : Type) where
  | pipe (i : ι) (rd wr : Nat)
  | fail (i : ι)
  | fork (i : ι)
  | worker (i : ι)
  | endOfFile (i : ι)
  | child (pid : Nat)
  | close (pid fd : Nat)
  | exit (pid : Nat)

namespace Server
variable {ι : Type} [DecidableEq ι]

/-- No request is in work. -/
def new : Server ι where
  table := []
  children := []
  workers := fun _ => .pipeInput
  nextPipe := 0
  nextPid := 0

/-- Worker `i` goes to `pc`. -/
def setWorker (s : Server ι) (i : ι) (pc : WorkerPc) : Server ι :=
  { s with workers := Function.update s.workers i pc }

/-- `pipe`: the two descriptors are any two that are free. -/
def addPipe (s : Server ι) (rd wr : Nat) : Server ι :=
  { s with table := (rd, .read s.nextPipe) :: (wr, .write s.nextPipe) :: s.table, nextPipe := s.nextPipe + 1 }

/-- A successful `pipe(input)` or `pipe(output)`. -/
def stepPipe (s : Server ι) (i : ι) (rd wr : Nat) : Option (Server ι) :=
  if s.table.lookup rd = none ∧ s.table.lookup wr = none ∧ rd ≠ wr then
    match s.workers i with
    | .pipeInput => some ((s.addPipe rd wr).setWorker i (.pipeOutput ⟨s.nextPipe, rd, wr⟩))
    | .pipeOutput input => some ((s.addPipe rd wr).setWorker i (.fork input ⟨s.nextPipe, rd, wr⟩))
    | _ => none
  else none

/-- A failing `pipe(output)` or `fork`: the worker returns. -/
def stepFail (s : Server ι) (i : ι) : Option (Server ι) :=
  match s.workers i with
  | .pipeOutput _ => some (s.setWorker i .pipeInput)
  | .fork _ _ => some (s.setWorker i .pipeInput)
  | _ => none

/-- A successful `fork`: the child has a copy of the whole table. -/
def stepFork (s : Server ι) (i : ι) : Option (Server ι) :=
  match s.workers i with
  | .fork input output =>
    some ({ s with
      children := ⟨s.nextPid, .closeInput, s.table, input, output⟩ :: s.children
      nextPid := s.nextPid + 1 }.setWorker i (.closeInputWrite input output s.nextPid))
  | _ => none

/-- A step of the parent side of `ProcessCgi`. -/
def stepWorker (s : Server ι) (i : ι) : Option (Server ι) :=
  match s.workers i with
  | .closeInputWrite input output pid =>
    some ({ s with table := s.table.close input.wr }.setWorker i (.closeOutputRead input output pid))
  | .closeOutputRead input output pid =>
    some ({ s with table := s.table.close output.rd }.setWorker i (.writeLoop input output pid))
  | .writeLoop input output pid => some (s.setWorker i (.readLoop input output pid))
  | .waitpid input output pid =>
    if ∃ c ∈ s.children, c.pid = pid then none else some (s.setWorker i (.closeInputRead input output))
  | .closeInputRead input output =>
    some ({ s with table := s.table.close input.rd }.setWorker i (.closeOutputWrite output))
  | .closeOutputWrite output => some ({ s with table := s.table.close output.wr }.setWorker i .pipeInput)
  | _ => none

/-- The read loop ends once no process holds a write end of the pipe. -/
def stepEndOfFile (s : Server ι) (i : ι) : Option (Server ι) :=
  match s.workers i with
  | .readLoop input output pid =>
    if s.table.writes input.pipe = false ∧ ∀ c ∈ s.children, c.table.writes input.pipe = false then
      some (s.setWorker i (.waitpid input output pid))
    else none
  | _ => none

/-- The children after a step `f` of the one with this `pid`. -/
def stepChildren (s : Server ι) (pid : Nat) (f : Child → Child) : Server ι :=
  { s with children := s.children.map fun c => if c.pid = pid then f c else c }

/-- The server's transitions. -/
def step (s : Server ι) : ServerAction ι → Option (Server ι)
  | .pipe i rd wr => s.stepPipe i rd wr
  | .fail i => s.stepFail i
  | .fork i => s.stepFork i
  | .worker i => s.stepWorker i
  | .endOfFile i => s.stepEndOfFile i
  | .child pid => some (s.stepChildren pid Child.step)
  | .close pid fd => some (s.stepChildren pid fun c => { c with table := c.table.close fd })
  | .exit pid => some { s with children := s.children.filter fun c => c.pid ≠ pid }

/-- The server as a machine. -/
def machine (ι : Type) [DecidableEq ι] : Machine (Server ι) (ServerAction ι) := ⟨new, step⟩

/-! ## Who holds the write end -/

variable {s s' : Server ι}

/-- The write ends of the pipe are where they may be. -/
structure Only (s : Server ι) (h : Holding) : Prop where
  server : ∀ fd, (fd, PipeEnd.write h.pipe) ∈ s.table → h.server = some fd
  children : ∀ c ∈ s.children, ∀ fd, (fd, PipeEnd.write h.pipe) ∈ c.table → h.child = some c.pid
  made : h.pipe < s.nextPipe

/-- No table names a pipe that is still to be made, and every request's write ends are where
they may be. -/
structure Kept (s : Server ι) : Prop where
  made : ∀ fd p, (fd, PipeEnd.write p) ∈ s.table → p < s.nextPipe
  madeChildren : ∀ c ∈ s.children, ∀ fd p, (fd, PipeEnd.write p) ∈ c.table → p < s.nextPipe
  only : ∀ i h, (s.workers i).holding = some h → s.Only h

/-- From `s` to `s'` nobody gets a write end that it did not have. -/
structure Shrinks (s s' : Server ι) : Prop where
  table : ∀ fd p, (fd, PipeEnd.write p) ∈ s'.table → (fd, PipeEnd.write p) ∈ s.table
  children : ∀ c' ∈ s'.children, ∃ c ∈ s.children, c'.pid = c.pid ∧
    ∀ fd p, (fd, PipeEnd.write p) ∈ c'.table → ∃ fd', (fd', PipeEnd.write p) ∈ c.table
  nextPipe : s'.nextPipe = s.nextPipe

omit [DecidableEq ι] in
theorem Only.shrink {h : Holding} (only : s.Only h) (shrinks : Shrinks s s') : s'.Only h := by
  constructor
  case server => exact fun fd mem => only.server fd (shrinks.table fd _ mem)
  case children =>
    intro c' mem fd holds
    obtain ⟨c, mem, pid, source⟩ := shrinks.children c' mem
    obtain ⟨fd', holds⟩ := source fd _ holds
    rw [pid]
    exact only.children c mem fd' holds
  case made =>
    rw [shrinks.nextPipe]
    exact only.made

omit [DecidableEq ι] in
/-- If nobody gets a write end, only the worker that moved is to be looked at. -/
theorem Kept.shrink (inv : s.Kept) (shrinks : Shrinks s s')
    (own : ∀ i h, (s'.workers i).holding = some h → (s.workers i).holding = some h ∨ s'.Only h) : s'.Kept := by
  constructor
  case made =>
    intro fd p mem
    rw [shrinks.nextPipe]
    exact inv.made fd p (shrinks.table fd p mem)
  case madeChildren =>
    intro c' mem fd p holds
    obtain ⟨c, mem, -, source⟩ := shrinks.children c' mem
    obtain ⟨fd', holds⟩ := source fd p holds
    rw [shrinks.nextPipe]
    exact inv.madeChildren c mem fd' p holds
  case only =>
    intro i h holds
    rcases own i h holds with same | only
    · exact (inv.only i h same).shrink shrinks
    · exact only

/-- Of the workers only `i` moves. -/
theorem own_of_update {i : ι} {pc : WorkerPc} {motive : ι → Holding → Prop}
    (workers : s'.workers = Function.update s.workers i pc)
    (own : ∀ h, pc.holding = some h → (s.workers i).holding = some h ∨ motive i h) (j : ι) (h : Holding)
    (holds : (s'.workers j).holding = some h) : (s.workers j).holding = some h ∨ motive j h := by
  by_cases same : j = i
  · subst same
    rw [workers, Function.update_self] at holds
    exact own h holds
  · rw [workers, Function.update_of_ne same] at holds
    exact .inl holds

omit [DecidableEq ι] in
theorem shrinks_close (s : Server ι) (fd : Nat) (workers : ι → WorkerPc) :
    Shrinks s { s with table := s.table.close fd, workers := workers } := by
  constructor
  case table => exact fun fd' p mem => List.mem_of_mem_filter mem
  case children => exact fun c mem => ⟨c, mem, rfl, fun fd p holds => ⟨fd, holds⟩⟩
  case nextPipe => rfl

omit [DecidableEq ι] in
theorem shrinks_workers (s : Server ι) (workers : ι → WorkerPc) : Shrinks s { s with workers := workers } := by
  constructor
  case table => exact fun fd p mem => mem
  case children => exact fun c mem => ⟨c, mem, rfl, fun fd p holds => ⟨fd, holds⟩⟩
  case nextPipe => rfl

omit [DecidableEq ι] in
/-- The children with this `pid` make a step that only loses or copies write ends. -/
theorem shrinks_children (s : Server ι) (pid : Nat) {f : Child → Child} (keeps : ∀ c, (f c).pid = c.pid)
    (source : ∀ c fd p, (fd, PipeEnd.write p) ∈ (f c).table → ∃ fd', (fd', PipeEnd.write p) ∈ c.table) :
    Shrinks s (s.stepChildren pid f) := by
  constructor
  case table => exact fun fd p mem => mem
  case children =>
    intro c' mem
    obtain ⟨c, old, rfl⟩ := List.mem_map.mp mem
    refine ⟨c, old, ?_⟩
    split
    · exact ⟨keeps c, source c⟩
    · exact ⟨rfl, fun fd p holds => ⟨fd, holds⟩⟩
  case nextPipe => rfl

omit [DecidableEq ι] in
theorem shrinks_exit (s : Server ι) (pid : Nat) :
    Shrinks s { s with children := s.children.filter fun c => c.pid ≠ pid } := by
  constructor
  case table => exact fun fd p mem => mem
  case children => exact fun c mem => ⟨c, List.mem_of_mem_filter mem, rfl, fun fd p holds => ⟨fd, holds⟩⟩
  case nextPipe => rfl

omit [DecidableEq ι] in
/-- A step that moves no worker and gives nobody a write end. -/
theorem Kept.still (inv : s.Kept) (shrinks : Shrinks s s') (workers : s'.workers = s.workers) : s'.Kept := by
  apply inv.shrink shrinks
  intro i h holds
  rw [workers] at holds
  exact .inl holds

/-! ### The steps of a worker -/

omit [DecidableEq ι] in
theorem Only.addPipe {h : Holding} (only : s.Only h) (rd wr : Nat) : (s.addPipe rd wr).Only h := by
  have other : h.pipe ≠ s.nextPipe := Nat.ne_of_lt only.made
  constructor
  case server =>
    intro fd mem
    simp [Server.addPipe, other] at mem
    exact only.server fd mem
  case children => exact only.children
  case made => exact Nat.lt_succ_of_lt only.made

omit [DecidableEq ι] in
/-- The write end of a new pipe is at the worker's descriptor and nowhere else. -/
theorem Kept.only_addPipe (inv : s.Kept) (rd wr : Nat) : (s.addPipe rd wr).Only ⟨s.nextPipe, some wr, none⟩ := by
  constructor
  case server =>
    intro fd mem
    simp only [Server.addPipe, List.mem_cons, Prod.mk.injEq, and_true, reduceCtorEq, and_false, false_or] at mem
    rcases mem with new | old
    · rw [new]
    · exact absurd (inv.made fd _ old) (Nat.lt_irrefl _)
  case children => exact fun c mem fd holds => absurd (inv.madeChildren c mem fd _ holds) (Nat.lt_irrefl _)
  case made => exact Nat.lt_succ_self _

theorem Only.setWorker {h : Holding} (only : s.Only h) (i : ι) (pc : WorkerPc) : (s.setWorker i pc).Only h :=
  only.shrink (shrinks_workers s _)

theorem stepPipe_cases {i : ι} {rd wr : Nat} (taken : s.stepPipe i rd wr = some s') :
    ∃ pc, s' = (s.addPipe rd wr).setWorker i pc ∧
      ∀ h, pc.holding = some h → (s.workers i).holding = some h ∨ h = ⟨s.nextPipe, some wr, none⟩ := by
  unfold stepPipe at taken
  split at taken
  case isFalse => cases taken
  case isTrue =>
    split at taken
    case h_1 =>
      cases taken
      exact ⟨_, rfl, fun h holds => .inr (Option.some.inj holds).symm⟩
    case h_2 input pc =>
      cases taken
      exact ⟨_, rfl, fun h holds => .inl (by rw [pc]; exact holds)⟩
    case h_3 => cases taken

theorem Kept.pipe {i : ι} {rd wr : Nat} (inv : s.Kept) (taken : s.stepPipe i rd wr = some s') : s'.Kept := by
  obtain ⟨pc, rfl, own⟩ := stepPipe_cases taken
  constructor
  case made =>
    intro fd p mem
    simp only [setWorker, Server.addPipe, List.mem_cons, Prod.mk.injEq, PipeEnd.write.injEq, reduceCtorEq,
      and_false, false_or] at mem
    rcases mem with ⟨-, rfl⟩ | old
    · exact Nat.lt_succ_self _
    · exact Nat.lt_succ_of_lt (inv.made fd p old)
  case madeChildren => exact fun c mem fd p holds => Nat.lt_succ_of_lt (inv.madeChildren c mem fd p holds)
  case only =>
    intro j h holds
    apply Only.setWorker
    rcases own_of_update (motive := fun _ h => h = ⟨s.nextPipe, some wr, none⟩) rfl own j h holds with old | rfl
    · exact (inv.only j h old).addPipe rd wr
    · exact inv.only_addPipe rd wr

theorem Kept.fail {i : ι} (inv : s.Kept) (taken : s.stepFail i = some s') : s'.Kept := by
  have idle : s' = s.setWorker i .pipeInput := by
    unfold stepFail at taken
    split at taken <;> cases taken <;> rfl
  subst idle
  apply inv.shrink (shrinks_workers s _)
  exact own_of_update rfl (fun h holds => by cases holds)

/-- No worker but the one that forks is between the creation of its pipe and `close(input[1])`. -/
def ForksAlone (s : Server ι) (a : ServerAction ι) : Prop :=
  ∀ i, a = .fork i → ∀ j, j ≠ i → (s.workers j).inWindow = false

theorem stepFork_cases {i : ι} (taken : s.stepFork i = some s') :
    ∃ input output, s.workers i = .fork input output ∧
      s' = { s with
        children := ⟨s.nextPid, .closeInput, s.table, input, output⟩ :: s.children
        nextPid := s.nextPid + 1
        workers := Function.update s.workers i (.closeInputWrite input output s.nextPid) } := by
  unfold stepFork at taken
  split at taken
  case h_1 input output pc =>
    cases taken
    exact ⟨input, output, pc, rfl⟩
  case h_2 => cases taken

/-- The child's copy of the table has the worker's own write end, and no other that matters. -/
theorem Kept.fork {i : ι} (inv : s.Kept) (alone : s.ForksAlone (.fork i)) (taken : s.stepFork i = some s') :
    s'.Kept := by
  obtain ⟨input, output, pc, rfl⟩ := stepFork_cases taken
  constructor
  case made => exact inv.made
  case madeChildren =>
    intro c mem fd p holds
    rcases List.mem_cons.mp mem with rfl | old
    · exact inv.made fd p holds
    · exact inv.madeChildren c old fd p holds
  case only =>
    intro j h holds
    change (Function.update s.workers i _ j).holding = some h at holds
    by_cases same : j = i
    · subst same
      rw [Function.update_self] at holds
      cases holds
      have only := inv.only j ⟨input.pipe, some input.wr, none⟩ (by rw [pc]; rfl)
      refine ⟨only.server, ?_, only.made⟩
      intro c mem fd holds
      rcases List.mem_cons.mp mem with rfl | old
      · rfl
      · cases only.children c old fd holds
    · rw [Function.update_of_ne same] at holds
      have only := inv.only j h holds
      refine ⟨only.server, ?_, only.made⟩
      intro c mem fd held
      rcases List.mem_cons.mp mem with rfl | old
      · have outside := WorkerPc.server_of_outside holds (alone i rfl j same)
        cases outside.symm.trans (only.server fd held)
      · exact only.children c old fd held

/-- A step of the parent side closes descriptors, and only `close(input[1])` is relied on later. -/
theorem stepWorker_cases {i : ι} (taken : s.stepWorker i = some s') :
    ∃ pc, s'.workers = Function.update s.workers i pc ∧ Shrinks s s' ∧
      ((∀ h, pc.holding = some h → (s.workers i).holding = some h) ∨
        ∃ input output pid, s.workers i = .closeInputWrite input output pid ∧
          pc = .closeOutputRead input output pid ∧ s'.table = s.table.close input.wr) := by
  unfold stepWorker at taken
  split at taken
  case h_1 input output pid pc =>
    cases taken
    exact ⟨_, rfl, shrinks_close s input.wr _, .inr ⟨input, output, pid, pc, rfl, rfl⟩⟩
  case h_2 input output pid pc =>
    cases taken
    exact ⟨_, rfl, shrinks_close s output.rd _, .inl fun h holds => by rw [pc]; exact holds⟩
  case h_3 input output pid pc =>
    cases taken
    exact ⟨_, rfl, shrinks_workers s _, .inl fun h holds => by rw [pc]; exact holds⟩
  case h_4 input output pid pc =>
    split at taken <;> cases taken
    exact ⟨_, rfl, shrinks_workers s _, .inl nofun⟩
  case h_5 input output pc =>
    cases taken
    exact ⟨_, rfl, shrinks_close s input.rd _, .inl nofun⟩
  case h_6 output pc =>
    cases taken
    exact ⟨_, rfl, shrinks_close s output.wr _, .inl nofun⟩
  case h_7 => cases taken

theorem Kept.worker {i : ι} (inv : s.Kept) (taken : s.stepWorker i = some s') : s'.Kept := by
  obtain ⟨pc, workers, shrinks, same | ⟨input, output, pid, at_, rfl, table⟩⟩ := stepWorker_cases taken
  · apply inv.shrink shrinks
    exact own_of_update workers (fun h holds => .inl (same h holds))
  · apply inv.shrink shrinks
    refine own_of_update workers (fun h holds => .inr ?_)
    cases holds
    have only := inv.only i ⟨input.pipe, some input.wr, some pid⟩ (by rw [at_]; rfl)
    have smaller := only.shrink shrinks
    refine ⟨?_, smaller.children, smaller.made⟩
    -- the one descriptor that had the write end is closed now
    intro fd mem
    rw [table] at mem
    obtain ⟨mem, open_⟩ := List.mem_filter.mp mem
    cases only.server fd mem
    simp at open_

theorem Kept.endOfFile {i : ι} (inv : s.Kept) (taken : s.stepEndOfFile i = some s') : s'.Kept := by
  unfold stepEndOfFile at taken
  split at taken
  case h_1 input output pid pc =>
    split at taken <;> cases taken
    apply inv.shrink (shrinks_workers s _)
    exact own_of_update rfl (fun h holds => by cases holds)
  case h_2 => cases taken

theorem kept_of_reachable (reached : (machine ι).ReachableIf ForksAlone s) : s.Kept := by
  refine reached.invariant ?_ ?_
  · exact ⟨nofun, nofun, nofun⟩
  · intro s a s' inv alone taken
    cases a with
    | pipe i rd wr => exact inv.pipe taken
    | fail i => exact inv.fail taken
    | fork i => exact inv.fork alone taken
    | worker i => exact inv.worker taken
    | endOfFile i => exact inv.endOfFile taken
    | child pid =>
      cases taken
      exact inv.still (shrinks_children s pid Child.step_pid fun c fd p mem => Child.mem_of_step mem) rfl
    | close pid fd =>
      cases taken
      exact inv.still
        (shrinks_children s pid (fun _ => rfl) fun c fd' p mem => ⟨fd', Table.mem_of_close mem⟩) rfl
    | exit pid =>
      cases taken
      exact inv.still (shrinks_exit s pid) rfl

/-- **The read loop of a request depends on its own child.** In every run in which no worker
forks between another's `pipe(input)` and its `close(input[1])`: while a worker is in the read
loop, no descriptor of the server and no process but the request's own child holds a write
end of its pipe, and the loop can end exactly when that child does not hold one either. -/
theorem holders_of_reading {i : ι} {input output : Ends} {pid : Nat}
    (reached : (machine ι).ReachableIf ForksAlone s) (reading : s.workers i = .readLoop input output pid) :
    s.table.writes input.pipe = false ∧
    (∀ c ∈ s.children, c.table.writes input.pipe = true → c.pid = pid) ∧
    ((s.step (.endOfFile i)).isSome ↔ ∀ c ∈ s.children, c.pid = pid → c.table.writes input.pipe = false) := by
  have only := (kept_of_reachable reached).only i ⟨input.pipe, none, some pid⟩ (by rw [reading]; rfl)
  have server : s.table.writes input.pipe = false := by
    apply Table.writes_eq_false_iff.mpr
    intro fd mem
    cases only.server fd mem
  have children : ∀ c ∈ s.children, c.table.writes input.pipe = true → c.pid = pid := by
    intro c mem holds
    obtain ⟨fd, held⟩ := Table.writes_iff.mp holds
    exact (Option.some.inj (only.children c mem fd held)).symm
  refine ⟨server, children, ?_⟩
  simp only [step, stepEndOfFile, reading, server, true_and]
  constructor
  · intro ends c mem _
    split at ends
    case isTrue all => exact all c mem
    case isFalse => cases ends
  · intro own
    rw [if_pos]
    · rfl
    · intro c mem
      by_contra holds
      exact holds (own c mem (children c mem (eq_true_of_ne_false holds)))

/-- A request up to the `fork`. -/
def upToFork (i : Bool) (fd : Nat) : List (ServerAction Bool) := [.pipe i fd (fd + 1), .pipe i (fd + 2) (fd + 3)]

/-- And from there to its read loop. -/
def upToRead (i : Bool) : List (ServerAction Bool) := [.worker i, .worker i, .worker i]

/-- The children run their programs, and the second one exits. -/
def runPrograms : List (ServerAction Bool) :=
  [.child 0, .child 0, .child 0, .child 0, .child 0, .child 1, .child 1, .child 1, .child 1, .child 1, .exit 1]

/-- Two requests fork one after the other. The first one's program runs on, and the second
one's read loop ends with its own child. -/
theorem holders_of_reading_inTurn :
    ∃ s : Server Bool, (machine Bool).ReachableIf ForksAlone s ∧
      s.workers false = .readLoop ⟨0, 3, 4⟩ ⟨1, 5, 6⟩ 0 ∧ s.workers true = .readLoop ⟨2, 7, 8⟩ ⟨3, 9, 10⟩ 1 ∧
      s.children.map Child.pid = [0] ∧ (∀ c ∈ s.children, c.table.writes 2 = true → c.pid = 1) ∧
      (s.step (.endOfFile true)).isSome ∧ s.step (.endOfFile false) = none := by
  have reached : ∀ {s s' : Server Bool} {schedule : List (ServerAction Bool)}, (machine Bool).ReachableIf ForksAlone s →
      (∀ i, .fork i ∉ schedule) → (machine Bool).exec s schedule = some s' → (machine Bool).ReachableIf ForksAlone s' :=
    fun before others => before.exec_of_mem fun a mem s i fork => absurd (fork ▸ mem) (others i)
  have alone : ∀ {s : Server Bool} {i : Bool}, (s.workers !i).inWindow = false → s.ForksAlone (.fork i) := by
    rintro s i outside _ ⟨⟩ j other
    rw [Bool.eq_not_of_ne other]
    exact outside
  have first := reached .init (by simp [upToFork]) (rfl : (machine Bool).exec new (upToFork false 3) = some _)
  have first := first.step (a := .fork false) (alone rfl) rfl
  have first := reached first (by simp [upToRead]) (rfl : (machine Bool).exec _ (upToRead false) = some _)
  have second := reached first (by simp [upToFork]) (rfl : (machine Bool).exec _ (upToFork true 7) = some _)
  have second := second.step (a := .fork true) (alone rfl) rfl
  have second := reached second (by simp [upToRead]) (rfl : (machine Bool).exec _ (upToRead true) = some _)
  have both := reached second (by simp [runPrograms]) (rfl : (machine Bool).exec _ runPrograms = some _)
  obtain ⟨-, children, ends⟩ := holders_of_reading both (i := true) rfl
  refine ⟨_, both, rfl, rfl, rfl, children, ends.mpr ?_, rfl⟩
  decide

/-- One worker forks after the other has made its pipes and before that closes the write end. The
child of the other has exited, the program of the one is running. -/
def raced : List (ServerAction Bool) :=
  [.pipe false 3 4, .pipe false 5 6, .pipe true 7 8, .pipe true 9 10, .fork true, .fork false, .worker false,
    .worker false, .worker false, .child 0, .child 0, .child 0, .child 0, .child 0, .exit 1]

/-- A program of another request holds the write end of a pipe whose reader waits for its
end, the request's own child being gone. -/
theorem other_child_holds : ∃ s : Server Bool, (machine Bool).Reachable s ∧
    s.workers false = .readLoop ⟨0, 3, 4⟩ ⟨1, 5, 6⟩ 1 ∧ (∀ c ∈ s.children, c.pid ≠ 1) ∧
    (∃ c ∈ s.children, c.pid = 0 ∧ c.pc = .running ∧ c.table.writes 0 = true) ∧
    s.step (.endOfFile false) = none := by
  refine ⟨_, Machine.Reachable.exec .init (rfl : (machine Bool).exec new raced = some _), rfl, ?_, ?_, rfl⟩
  · decide
  · decide

end Server

end HttpServer.Cgi
