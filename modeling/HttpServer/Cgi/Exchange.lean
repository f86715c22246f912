import HttpServer.Lib.Bytes
import HttpServer.Lib.Machine
import HttpServer.Lib.Pipe

/-!
# The exchange between the server and a CGI child

The parent side of `ProcessCgi` after its closes, and its child, over the two pipes: the
parent writes the whole body to `output`, then reads `input` to the end of file, then
waits. The child's program is any list of reads and writes of single bytes; a longer read
or write is a run of these, and how the child's bytes are cut into calls is left to the
pipe, which may have less room for many small writes. `exchange_deadlockFree_iff` says for
which programs the parent and the child cannot both block: the parent does not read while
it writes, so a child that writes more than its pipe takes has to read enough before.
-/

namespace HttpServer.Cgi
open Lib Access

/-- A step of a CGI program: read a byte of the body, or write a byte of output. -/
inductive Op where
  | read
  | write (b : UInt8)
  deriving DecidableEq, Repr

/-- Where the parent is: in its write loop, its read loop, or `waitpid`. -/
inductive ParentPc where
  | write
  | read
  | waitpid
  | done
  deriving DecidableEq, Repr

/-- The bytes in a pipe, and the accesses to it so far, the last one first. -/
structure Channel where
  bytes : Bytes
  past : List Access
  deriving DecidableEq

namespace Channel

/-- Before the first access. -/
def new : Channel where
  bytes := []
  past := []

/-- `write` of a byte; `none` waits for room. -/
def put (p : Pipe) (c : Channel) (b : UInt8) : Option Channel :=
  if p.room c.past then some { bytes := c.bytes ++ [b], past := .put :: c.past } else none

/-- `read` of a byte; `none` waits for one, or is the end of file. -/
def take (c : Channel) : Option (UInt8 × Channel) :=
  match c.bytes with
  | [] => none
  | b :: rest => some (b, { bytes := rest, past := .take :: c.past })

/-- The accesses are those of the pipe, and account for the bytes in it. -/
structure Sound (p : Pipe) (c : Channel) : Prop where
  possible : p.Possible c.past
  count : puts c.past = takes c.past + c.bytes.length

variable {p : Pipe} {c c' : Channel} {b : UInt8}

theorem sound_new : Sound p new := ⟨trivial, rfl⟩

theorem put_eq_some (wrote : c.put p b = some c') :
    p.room c.past = true ∧ c' = { bytes := c.bytes ++ [b], past := .put :: c.past } := by
  unfold put at wrote
  split at wrote
  case isTrue room =>
    cases wrote
    exact ⟨room, rfl⟩
  case isFalse => cases wrote

theorem put_eq_none (blocked : c.put p b = none) : p.room c.past = false := by
  unfold put at blocked
  split at blocked
  case isTrue => cases blocked
  case isFalse full => exact Bool.eq_false_iff.mpr full

theorem take_eq_some (read : c.take = some (b, c')) :
    c.bytes = b :: c'.bytes ∧ c'.past = .take :: c.past := by
  unfold take at read
  split at read
  case h_1 => cases read
  case h_2 next =>
    cases read
    exact ⟨next, rfl⟩

theorem take_eq_none (blocked : c.take = none) : c.bytes = [] := by
  unfold take at blocked
  split at blocked
  case h_1 empty => exact empty
  case h_2 => cases blocked

theorem Sound.put (sound : Sound p c) (wrote : c.put p b = some c') : Sound p c' := by
  obtain ⟨room, rfl⟩ := put_eq_some wrote
  constructor
  · exact ⟨room, sound.possible⟩
  · have count := sound.count
    show puts (.put :: c.past) = takes (.put :: c.past) + (c.bytes ++ [b]).length
    rw [puts_put, takes_put, List.length_append, List.length_singleton]
    omega

theorem Sound.take (sound : Sound p c) (read : c.take = some (b, c')) : Sound p c' := by
  obtain ⟨next, past⟩ := take_eq_some read
  have count := sound.count
  rw [next, List.length_cons] at count
  constructor
  · rw [past]
    refine ⟨?_, sound.possible⟩
    omega
  · rw [past, puts_take, takes_take]
    omega

/-- An empty channel has room. -/
theorem Sound.room (sound : Sound p c) (empty : c.bytes = []) : p.room c.past = true := by
  apply p.empty
  rw [sound.count, empty, List.length_nil, Nat.add_zero]

end Channel

/-- The rest of the body, the two pipes, the rest of the child's program, and the response
body so far. -/
structure Exchange where
  parent : ParentPc
  unsent : Bytes
  output : Channel
  input : Channel
  program : List Op
  exited : Bool
  responseBody : Bytes
  deriving DecidableEq

/-- The pipe the parent writes to and the pipe it reads from. -/
structure Pipes where
  output : Pipe
  input : Pipe

/-- Whose step it is. -/
inductive Party where
  | parent
  | child
  deriving DecidableEq, Repr

namespace Exchange

/-- Before the first write. -/
def new (body : Bytes) (program : List Op) : Exchange where
  parent := .write
  unsent := body
  output := .new
  input := .new
  program := program
  exited := false
  responseBody := []

/-- A step of the parent. A write to a child that is gone fails, and ends the loop; a read
from it returns what is left and then the end of file. -/
def stepParent (pipes : Pipes) (s : Exchange) : Option Exchange :=
  match s.parent with
  | .write =>
    match s.unsent with
    | [] => some { s with parent := .read }
    | b :: rest =>
      if s.exited then some { s with parent := .read }
      else (s.output.put pipes.output b).map fun output => { s with unsent := rest, output := output }
  | .read =>
    match s.input.take with
    | some (b, input) => some { s with input := input, responseBody := s.responseBody ++ [b] }
    | none => if s.exited then some { s with parent := .waitpid } else none
  | .waitpid => if s.exited then some { s with parent := .done } else none
  | .done => none

/-- A step of the child. The parent has the other end of its stdin open throughout. -/
def stepChild (pipes : Pipes) (s : Exchange) : Option Exchange :=
  if s.exited then none
  else
    match s.program with
    | [] => some { s with exited := true }
    | .read :: rest => s.output.take.map fun (_, output) => { s with program := rest, output := output }
    | .write b :: rest =>
      (s.input.put pipes.input b).map fun input => { s with program := rest, input := input }

/-- The exchange of one request, as a machine. -/
def machine (pipes : Pipes) (body : Bytes) (program : List Op) : Machine Exchange Party where
  init := new body program
  step s
    | .parent => s.stepParent pipes
    | .child => s.stepChild pipes

/-- Neither side is through, and neither can go on. -/
structure Deadlocked (pipes : Pipes) (s : Exchange) : Prop where
  parent : s.parent ≠ .done ∧ s.stepParent pipes = none
  child : s.exited = false ∧ s.stepChild pipes = none

/-! ## Programs -/

/-- How many bytes a program reads. -/
def reads (program : List Op) : Nat := program.countP fun op => op = .read

/-- The bytes a program writes. -/
def written (program : List Op) : Bytes := program.filterMap fun | .read => none | .write b => some b

/-- How many bytes a program reads before it writes its byte number `k` (from zero), if it
writes that many. -/
def readsBefore : Nat → List Op → Option Nat
  | _, [] => none
  | k, .read :: rest => (readsBefore k rest).map (· + 1)
  | 0, .write _ :: _ => some 0
  | k + 1, .write _ :: rest => readsBefore k rest

@[simp] theorem reads_append (first second : List Op) : reads (first ++ second) = reads first + reads second := by
  simp [reads]

@[simp] theorem written_append (first second : List Op) :
    written (first ++ second) = written first ++ written second := by
  simp [written]

@[simp] theorem reads_read (rest : List Op) : reads (.read :: rest) = reads rest + 1 := by simp [reads]

@[simp] theorem reads_write (b : UInt8) (rest : List Op) : reads (.write b :: rest) = reads rest := by simp [reads]

@[simp] theorem written_read (rest : List Op) : written (.read :: rest) = written rest := rfl

@[simp] theorem written_write (b : UInt8) (rest : List Op) : written (.write b :: rest) = b :: written rest := rfl

/-- The byte written after `past` is number `(written past).length`. -/
theorem readsBefore_append (past : List Op) (b : UInt8) (rest : List Op) :
    readsBefore (written past).length (past ++ .write b :: rest) = some (reads past) := by
  induction past with
  | nil => rfl
  | cons op past ih =>
    cases op with
    | read =>
      rw [List.cons_append, readsBefore, written_read, ih, reads_read]
      simp
    | write c =>
      rw [reads_write]
      exact ih

/-- A program that writes byte number `k` splits there. -/
theorem split_of_readsBefore {k r : Nat} {program : List Op} (found : readsBefore k program = some r) :
    ∃ past b rest, program = past ++ .write b :: rest ∧ (written past).length = k ∧ reads past = r := by
  induction program generalizing k r with
  | nil => cases found
  | cons op program ih =>
    cases op with
    | read =>
      obtain ⟨r', later, rfl⟩ := Option.map_eq_some_iff.mp found
      obtain ⟨past, b, rest, rfl, length, count⟩ := ih later
      exact ⟨.read :: past, b, rest, rfl, length, by rw [reads_read, count]⟩
    | write c =>
      cases k with
      | zero =>
        cases found
        exact ⟨[], c, program, rfl, rfl, rfl⟩
      | succ k =>
        obtain ⟨past, b, rest, rfl, length, count⟩ := ih found
        exact ⟨.write c :: past, b, rest, rfl, by rw [written_write, List.length_cons, length],
          by rw [reads_write, count]⟩

/-! ## The invariant -/

/-- The child has executed `past`: what it has read, the pipe to it and what is unsent are
the body, and what it has written is in the response body and the pipe from it. -/
structure Progress (pipes : Pipes) (body : Bytes) (program past : List Op) (s : Exchange) : Prop where
  split : program = past ++ s.program
  output : s.output.Sound pipes.output
  input : s.input.Sound pipes.input
  body : body.length = puts s.output.past + s.unsent.length
  read : takes s.output.past = reads past
  response : written past = s.responseBody ++ s.input.bytes
  writing : s.parent = .write → s.responseBody = [] ∧ takes s.input.past = 0
  sent : s.parent ≠ .write → s.unsent = []
  exited : s.exited = true → s.program = []
  waiting : s.parent = .waitpid ∨ s.parent = .done → s.exited = true ∧ s.input.bytes = []

variable {pipes : Pipes} {body : Bytes} {program past : List Op} {s s' : Exchange}

/-- A child that reads the whole body exits only once all of it is sent. -/
theorem Progress.unsent_nil (inv : s.Progress pipes body program past) (exact : reads program = body.length)
    (exited : s.exited = true) : s.unsent = [] := by
  have split := inv.split
  rw [inv.exited exited, List.append_nil] at split
  have body := inv.body
  have count := inv.output.count
  rw [inv.read, ← split, exact] at count
  apply List.eq_nil_of_length_eq_zero
  omega

/-- What the parent's steps do. -/
theorem stepParent_cases (taken : s.stepParent pipes = some s') :
    (s.parent = .write ∧ (s.unsent = [] ∨ s.exited = true) ∧ s' = { s with parent := .read }) ∨
    (s.parent = .write ∧ ∃ b rest output, s.unsent = b :: rest ∧ s.output.put pipes.output b = some output ∧
      s' = { s with unsent := rest, output := output }) ∨
    (s.parent = .read ∧ ∃ b input, s.input.take = some (b, input) ∧
      s' = { s with input := input, responseBody := s.responseBody ++ [b] }) ∨
    (s.parent = .read ∧ s.input.take = none ∧ s.exited = true ∧ s' = { s with parent := .waitpid }) ∨
    (s.parent = .waitpid ∧ s.exited = true ∧ s' = { s with parent := .done }) := by
  unfold stepParent at taken
  split at taken
  · rename_i pc
    split at taken
    · rename_i sent
      cases taken
      exact .inl ⟨pc, .inl sent, rfl⟩
    · rename_i b rest unsent
      split at taken
      · rename_i exited
        cases taken
        exact .inl ⟨pc, .inr exited, rfl⟩
      · obtain ⟨output, wrote, rfl⟩ := Option.map_eq_some_iff.mp taken
        exact .inr (.inl ⟨pc, b, rest, output, unsent, wrote, rfl⟩)
  · rename_i pc
    split at taken
    · rename_i b input read
      cases taken
      exact .inr (.inr (.inl ⟨pc, b, input, read, rfl⟩))
    · rename_i drained
      split at taken <;> cases taken
      rename_i exited
      exact .inr (.inr (.inr (.inl ⟨pc, drained, exited, rfl⟩)))
  · rename_i pc
    split at taken <;> cases taken
    rename_i exited
    exact .inr (.inr (.inr (.inr ⟨pc, exited, rfl⟩)))
  · cases taken

/-- What the child's steps do. -/
theorem stepChild_cases (taken : s.stepChild pipes = some s') :
    s.exited = false ∧
    ((s.program = [] ∧ s' = { s with exited := true }) ∨
      (∃ rest b output, s.program = .read :: rest ∧ s.output.take = some (b, output) ∧
        s' = { s with program := rest, output := output }) ∨
      (∃ rest b input, s.program = .write b :: rest ∧ s.input.put pipes.input b = some input ∧
        s' = { s with program := rest, input := input })) := by
  unfold stepChild at taken
  split at taken
  · cases taken
  · rename_i running
    refine ⟨Bool.eq_false_iff.mpr running, ?_⟩
    split at taken
    · rename_i finished
      cases taken
      exact .inl ⟨finished, rfl⟩
    · rename_i rest next
      obtain ⟨⟨b, output⟩, read, rfl⟩ := Option.map_eq_some_iff.mp taken
      exact .inr (.inl ⟨rest, b, output, next, read, rfl⟩)
    · rename_i b rest next
      obtain ⟨input, wrote, rfl⟩ := Option.map_eq_some_iff.mp taken
      exact .inr (.inr ⟨rest, b, input, next, wrote, rfl⟩)

theorem progress_parent (inv : s.Progress pipes body program past) (exact : reads program = body.length)
    (taken : s.stepParent pipes = some s') : s'.Progress pipes body program past := by
  have allSent := inv.unsent_nil exact
  obtain ⟨split, output_sound, input_sound, body_eq, read, response, writing, sent, exited_nil, waiting⟩ := inv
  rcases stepParent_cases taken with ⟨pc, stop, rfl⟩ | ⟨pc, b, rest, output, unsent, wrote, rfl⟩ |
    ⟨pc, b, input, took, rfl⟩ | ⟨pc, drained, exited, rfl⟩ | ⟨pc, exited, rfl⟩
  · -- the write loop ends, with all of the body sent
    refine ⟨split, output_sound, input_sound, body_eq, read, response, nofun, fun _ => ?_, exited_nil,
      by rintro (h | h) <;> cases h⟩
    rcases stop with all | exited
    · exact all
    · exact allSent exited
  · refine ⟨split, output_sound.put wrote, input_sound, ?_, ?_, response, writing,
      fun notWriting => absurd pc notWriting, exited_nil, waiting⟩
    · obtain ⟨-, rfl⟩ := Channel.put_eq_some wrote
      rw [unsent, List.length_cons] at body_eq
      show body.length = puts (.put :: s.output.past) + rest.length
      rw [puts_put]
      omega
    · obtain ⟨-, rfl⟩ := Channel.put_eq_some wrote
      exact (takes_put s.output.past).trans read
  · refine ⟨split, output_sound, input_sound.take took, body_eq, read, ?_, fun writing => ?_, sent, exited_nil,
      fun waiting => ?_⟩
    · obtain ⟨next, -⟩ := Channel.take_eq_some took
      show written past = (s.responseBody ++ [b]) ++ input.bytes
      rw [response, next, List.append_assoc, List.singleton_append]
    · exact absurd (pc.symm.trans writing) (by decide)
    · rcases waiting with waiting | waiting
      · exact absurd (pc.symm.trans waiting) (by decide)
      · exact absurd (pc.symm.trans waiting) (by decide)
  · exact ⟨split, output_sound, input_sound, body_eq, read, response, nofun,
      fun _ => sent (by rw [pc]; decide), exited_nil, fun _ => ⟨exited, Channel.take_eq_none drained⟩⟩
  · exact ⟨split, output_sound, input_sound, body_eq, read, response, nofun,
      fun _ => sent (by rw [pc]; decide), exited_nil, fun _ => waiting (.inl pc)⟩

theorem progress_child (inv : s.Progress pipes body program past) (taken : s.stepChild pipes = some s') :
    ∃ past', s'.Progress pipes body program past' := by
  obtain ⟨split, output_sound, input_sound, body_eq, read, response, writing, sent, exited_nil, waiting⟩ := inv
  obtain ⟨running, moves⟩ := stepChild_cases taken
  have notExited : s.exited ≠ true := by
    rw [running]
    decide
  have notWaiting : ¬ (s.parent = .waitpid ∨ s.parent = .done) := fun w => notExited (waiting w).1
  rcases moves with ⟨finished, rfl⟩ | ⟨rest, b, output, next, took, rfl⟩ | ⟨rest, b, input, next, wrote, rfl⟩
  · exact ⟨past, split, output_sound, input_sound, body_eq, read, response, writing, sent, fun _ => finished,
      fun w => absurd w notWaiting⟩
  · refine ⟨past ++ [.read], ?_, output_sound.take took, input_sound, ?_, ?_, ?_, writing, sent,
      fun exited => absurd exited notExited, fun w => absurd w notWaiting⟩
    · rw [split, next, List.append_assoc, List.singleton_append]
    · obtain ⟨-, accesses⟩ := Channel.take_eq_some took
      show body.length = puts output.past + s.unsent.length
      rw [accesses, puts_take]
      exact body_eq
    · obtain ⟨-, accesses⟩ := Channel.take_eq_some took
      show takes output.past = reads (past ++ [.read])
      rw [accesses, takes_take, read, reads_append, reads_read]
      rfl
    · show written (past ++ [.read]) = s.responseBody ++ s.input.bytes
      rw [written_append, ← response]
      exact List.append_nil _
  · obtain ⟨-, inputEq⟩ := Channel.put_eq_some wrote
    refine ⟨past ++ [.write b], ?_, output_sound, input_sound.put wrote, body_eq, ?_, ?_, ?_, sent,
      fun exited => absurd exited notExited, fun w => absurd w notWaiting⟩
    · rw [split, next, List.append_assoc, List.singleton_append]
    · show takes s.output.past = reads (past ++ [.write b])
      rw [reads_append]
      exact read
    · show written (past ++ [.write b]) = s.responseBody ++ input.bytes
      rw [written_append, response, List.append_assoc, inputEq]
      rfl
    · intro pc
      refine ⟨(writing pc).1, ?_⟩
      show takes input.past = 0
      rw [inputEq]
      exact (takes_put s.input.past).trans (writing pc).2

theorem progress_of_reachable (exact : reads program = body.length)
    (reached : (machine pipes body program).Reachable s) : ∃ past, s.Progress pipes body program past := by
  refine reached.invariant ?_ ?_
  · refine ⟨[], rfl, Channel.sound_new, Channel.sound_new, ?_, rfl, rfl, fun _ => ⟨rfl, rfl⟩,
      fun moved => absurd rfl moved, nofun, by rintro (h | h) <;> cases h⟩
    exact (Nat.zero_add _).symm
  · rintro s a s' ⟨past, inv⟩ _ taken
    cases a with
    | parent => exact ⟨past, progress_parent inv exact taken⟩
    | child => exact progress_child inv taken

/-! ## No deadlock without a full pipe -/

/-- A child that cannot go on waits for a byte, or for room. -/
theorem childBlocked_cases (running : s.exited = false) (blocked : s.stepChild pipes = none) :
    (∃ rest, s.program = .read :: rest ∧ s.output.bytes = []) ∨
      ∃ b rest, s.program = .write b :: rest ∧ pipes.input.room s.input.past = false := by
  unfold stepChild at blocked
  simp only [running, Bool.false_eq_true, if_false] at blocked
  split at blocked
  case h_1 => cases blocked
  case h_2 rest next => exact .inl ⟨rest, next, Channel.take_eq_none (Option.map_eq_none_iff.mp blocked)⟩
  case h_3 b rest next => exact .inr ⟨b, rest, next, Channel.put_eq_none (Option.map_eq_none_iff.mp blocked)⟩

/-- While the child runs, a parent that cannot go on waits for room, for a byte, or for the
child to exit. -/
theorem parentBlocked_cases (running : s.exited = false) (blocked : s.stepParent pipes = none) :
    (s.parent = .write ∧ s.unsent ≠ [] ∧ pipes.output.room s.output.past = false) ∨
      (s.parent = .read ∧ s.input.bytes = []) ∨ s.parent = .waitpid ∨ s.parent = .done := by
  unfold stepParent at blocked
  simp only [running, Bool.false_eq_true, if_false] at blocked
  split at blocked
  case h_1 pc =>
    split at blocked
    case h_1 => cases blocked
    case h_2 b rest unsent =>
      exact .inl ⟨pc, by simp [unsent], Channel.put_eq_none (Option.map_eq_none_iff.mp blocked)⟩
  case h_2 pc =>
    split at blocked
    case h_1 => cases blocked
    case h_2 drained => exact .inr (.inl ⟨pc, Channel.take_eq_none drained⟩)
  case h_3 pc => exact .inr (.inr (.inl pc))
  case h_4 pc => exact .inr (.inr (.inr pc))

/-- Where the two block: the child at a write into a full pipe, and the parent at one into
the other. -/
theorem blocked_of_deadlocked (inv : s.Progress pipes body program past) (exact : reads program = body.length)
    (dead : s.Deadlocked pipes) :
    s.parent = .write ∧ s.unsent ≠ [] ∧ pipes.output.room s.output.past = false ∧
      pipes.input.room s.input.past = false ∧ ∃ b rest, s.program = .write b :: rest := by
  obtain ⟨⟨notDone, parent⟩, running, child⟩ := dead
  rcases parentBlocked_cases running parent with ⟨pc, unsent, full⟩ | ⟨pc, empty⟩ | pc | pc
  · rcases childBlocked_cases running child with ⟨rest, next, empty⟩ | ⟨b, rest, next, full'⟩
    · exact absurd (inv.output.room empty) (Bool.eq_false_iff.mp full)
    · exact ⟨pc, unsent, full, full', b, rest, next⟩
  · rcases childBlocked_cases running child with ⟨rest, next, empty'⟩ | ⟨b, rest, next, full'⟩
    · -- the whole body is sent, and read, and yet the child is to read more
      have body_eq := inv.body
      have count := inv.output.count
      rw [inv.sent (by rw [pc]; decide), List.length_nil, ← exact, inv.split, next, reads_append,
        reads_read] at body_eq
      rw [empty', List.length_nil, inv.read] at count
      omega
    · exact absurd (inv.input.room empty) (Bool.eq_false_iff.mp full')
  · have exited := (inv.waiting (.inl pc)).1
    rw [running] at exited
    cases exited
  · exact absurd pc notDone

/-- The child may find its pipe full only once it has read enough for the parent to go on. -/
def ReadsEnough (pipes : Pipes) (body : Bytes) (program : List Op) : Prop :=
  ∀ k r, pipes.input.FullAt k → readsBefore k program = some r → pipes.output.Holds body.length r

/-- **The child that has read enough.** Then no state reached is a deadlock. -/
theorem not_deadlocked (exact : reads program = body.length) (enough : ReadsEnough pipes body program)
    (reached : (machine pipes body program).Reachable s) : ¬ s.Deadlocked pipes := by
  intro dead
  obtain ⟨past, inv⟩ := progress_of_reachable exact reached
  obtain ⟨writing, unsent, full, full', b, rest, next⟩ := blocked_of_deadlocked inv exact dead
  obtain ⟨noResponse, unread⟩ := inv.writing writing
  -- the parent has not read, so the accesses to its pipe are the child's writes
  have response := congrArg List.length inv.response
  have count := inv.input.count
  rw [noResponse, List.nil_append] at response
  have accesses := eq_replicate_of_takes unread
  rw [count, unread, Nat.zero_add, ← response] at accesses
  have fullAt : pipes.input.FullAt (written past).length := by
    constructor
    · apply Pipe.Possible.before
      rw [← accesses]
      exact inv.input.possible
    · rw [← accesses]
      exact full'
  have found := readsBefore_append past b rest
  rw [← next, ← inv.split] at found
  have more := List.length_pos_iff.mpr unsent
  have body_eq := inv.body
  have room := enough _ _ fullAt found s.output.past inv.output.possible inv.read (by omega)
  exact absurd room (Bool.eq_false_iff.mp full)

/-! ## The deadlock of a child that writes first -/

/-- A state reached with the parent writing, the child through `past`, and the accesses to
the two pipes as they come. -/
structure Stage (pipes : Pipes) (body : Bytes) (program past rest : List Op) (accesses : List Access)
    (s : Exchange) : Prop where
  reached : (machine pipes body program).Reachable s
  parent : s.parent = .write
  running : s.exited = false
  program : s.program = rest
  unsent : body.length = puts accesses + s.unsent.length
  output : s.output.past = accesses
  pending : puts accesses = takes accesses + s.output.bytes.length
  input : s.input.past = List.replicate (written past).length .put

variable {rest : List Op} {accesses : List Access}

theorem Stage.send (stage : Stage pipes body program past rest accesses s)
    (room : pipes.output.room accesses = true) (more : puts accesses < body.length) :
    ∃ s', Stage pipes body program past rest (.put :: accesses) s' := by
  obtain ⟨reached, parent, running, next, unsent, output, pending, input⟩ := stage
  obtain ⟨b, unsent', eq⟩ := List.exists_cons_of_length_pos (l := s.unsent) (by omega)
  have taken : (machine pipes body program).step s .parent =
      some { s with unsent := unsent', output := ⟨s.output.bytes ++ [b], .put :: s.output.past⟩ } := by
    simp [machine, stepParent, parent, eq, running, Channel.put, output, room]
  refine ⟨_, .step reached trivial taken, parent, running, next, ?_, congrArg _ output, ?_, input⟩
  · rw [eq, List.length_cons] at unsent
    rw [puts_put]
    show body.length = puts accesses + 1 + unsent'.length
    omega
  · rw [puts_put, takes_put]
    show puts accesses + 1 = takes accesses + (s.output.bytes ++ [b]).length
    rw [List.length_append, List.length_singleton]
    omega

theorem Stage.childRead (stage : Stage pipes body program past (.read :: rest) accesses s)
    (available : takes accesses < puts accesses) :
    ∃ s', Stage pipes body program (past ++ [.read]) rest (.take :: accesses) s' := by
  obtain ⟨reached, parent, running, next, unsent, output, pending, input⟩ := stage
  obtain ⟨b, bytes, eq⟩ := List.exists_cons_of_length_pos (l := s.output.bytes) (by omega)
  have taken : (machine pipes body program).step s .child =
      some { s with program := rest, output := ⟨bytes, .take :: s.output.past⟩ } := by
    simp [machine, stepChild, running, next, Channel.take, eq]
  refine ⟨_, .step reached trivial taken, parent, running, rfl, unsent, congrArg _ output, ?_, ?_⟩
  · rw [eq, List.length_cons] at pending
    rw [puts_take, takes_take]
    show puts accesses = takes accesses + 1 + bytes.length
    omega
  · rw [written_append]
    show s.input.past = List.replicate (written past ++ []).length .put
    rw [List.append_nil]
    exact input

theorem Stage.childWrite {b : UInt8} (stage : Stage pipes body program past (.write b :: rest) accesses s)
    (room : pipes.input.room (List.replicate (written past).length .put) = true) :
    ∃ s', Stage pipes body program (past ++ [.write b]) rest accesses s' := by
  obtain ⟨reached, parent, running, next, unsent, output, pending, input⟩ := stage
  have taken : (machine pipes body program).step s .child =
      some { s with program := rest, input := ⟨s.input.bytes ++ [b], .put :: s.input.past⟩ } := by
    simp [machine, stepChild, running, next, Channel.put, input, room]
  refine ⟨_, .step reached trivial taken, parent, running, rfl, unsent, output, pending, ?_⟩
  rw [written_append, List.length_append]
  show .put :: s.input.past = List.replicate ((written past).length + 1) .put
  rw [input, List.replicate_succ]

/-- Whatever accesses a pipe can have come about, while the child's writes find room. -/
theorem exists_stage {k : Nat} (fullAt : pipes.input.FullAt k) (split : program = past ++ rest)
    (few : (written past).length ≤ k) (possible : pipes.output.Possible accesses)
    (read : takes accesses = reads past) (unsent : puts accesses ≤ body.length) :
    ∃ s, Stage pipes body program past rest accesses s := by
  -- by what the child has executed, and for the same of it by the accesses to its stdin
  induction past using List.reverseRecOn generalizing rest accesses with
  | nil =>
    induction accesses with
    | nil => exact ⟨new body program, .init, rfl, rfl, split, (Nat.zero_add _).symm, rfl, rfl, rfl⟩
    | cons access accesses ih =>
      cases access with
      | put =>
        rw [puts_put] at unsent
        obtain ⟨s, stage⟩ := ih possible.2 read (by omega)
        exact stage.send possible.1 (by omega)
      | take =>
        rw [takes_take] at read
        cases read
  | append_singleton past op ih =>
    rw [List.append_assoc, List.singleton_append] at split
    cases op with
    | write b =>
      rw [written_append, List.length_append] at few
      have less : (written past).length < k := few
      rw [reads_append] at read
      obtain ⟨s, stage⟩ := ih split (Nat.le_of_lt less) possible read unsent
      exact stage.childWrite (fullAt.before _ less)
    | read =>
      rw [reads_append, reads_read] at read
      rw [written_append] at few
      have few : (written past).length ≤ k := by
        rw [List.length_append] at few
        exact few
      induction accesses with
      | nil => cases read
      | cons access accesses inner =>
        cases access with
        | put =>
          rw [puts_put] at unsent
          obtain ⟨s, stage⟩ := inner possible.2 (by omega) read
          exact stage.send possible.1 (by omega)
        | take =>
          rw [takes_take] at read
          obtain ⟨s, stage⟩ := ih split few possible.2 (Nat.succ.inj read) unsent
          exact stage.childRead possible.1

theorem Stage.deadlocked {b : UInt8} (stage : Stage pipes body program past (.write b :: rest) accesses s)
    (more : puts accesses < body.length) (full : pipes.output.room accesses = false)
    (full' : pipes.input.room (List.replicate (written past).length .put) = false) : s.Deadlocked pipes := by
  obtain ⟨-, parent, running, next, unsent, output, -, input⟩ := stage
  obtain ⟨c, unsent', eq⟩ := List.exists_cons_of_length_pos (l := s.unsent) (by omega)
  constructor
  · constructor
    · rw [parent]
      decide
    · simp [stepParent, parent, eq, running, Channel.put, output, full]
  · exact ⟨running, by simp [stepChild, running, next, Channel.put, input, full']⟩

/-- A child that has not read enough when its pipe is full meets a parent that waits for it. -/
theorem exists_deadlocked {k r : Nat} (fullAt : pipes.input.FullAt k) (found : readsBefore k program = some r)
    (early : ¬ pipes.output.Holds body.length r) :
    ∃ s, (machine pipes body program).Reachable s ∧ s.Deadlocked pipes := by
  obtain ⟨past, b, rest, split, rfl, rfl⟩ := split_of_readsBefore found
  unfold Pipe.Holds at early
  push Not at early
  obtain ⟨accesses, possible, read, more, full⟩ := early
  obtain ⟨s, stage⟩ := exists_stage fullAt split (Nat.le_refl _) possible read (Nat.le_of_lt more)
  exact ⟨s, stage.reached, stage.deadlocked more (Bool.eq_false_iff.mpr full) fullAt.full⟩

/-- For pipes that count, the body is at most what the one takes after the reads that come
before the byte that fills the other. -/
theorem readsEnough_counts {output input : Nat → Nat} (counts : pipes.output.Counts output)
    (counts' : pipes.input.Counts input) :
    ReadsEnough pipes body program ↔
      ∀ r, readsBefore (input 0) program = some r → body.length ≤ output r := by
  unfold ReadsEnough
  constructor
  · intro enough r found
    exact (counts.holds_iff _ _).mp (enough (input 0) r ((counts'.fullAt_iff _).mpr rfl) found)
  · intro enough k r fullAt found
    obtain rfl := (counts'.fullAt_iff k).mp fullAt
    exact (counts.holds_iff _ _).mpr (enough r found)

/-- Pipes of `K` bytes. -/
def bytePipes (K : Nat) (pos : 0 < K) : Pipes where
  output := .bytes K pos
  input := .bytes K pos

/-- Pipes of `N` pages of `P` bytes. -/
def pagePipes (N P : Nat) (pos : 0 < N) (bytes : 0 < P) : Pipes where
  output := .pages N P pos bytes
  input := .pages N P pos bytes

/-- With pipes of `K` bytes: the body has at most `K` bytes more than the child reads before
it writes its byte number `K` (from zero). -/
theorem readsEnough_bytes (K : Nat) (pos : 0 < K) (body : Bytes) (program : List Op) :
    ReadsEnough (bytePipes K pos) body program ↔ ∀ r, readsBefore K program = some r → body.length ≤ r + K := by
  rw [readsEnough_counts (Pipe.counts_bytes K pos) (Pipe.counts_bytes K pos), Nat.zero_add]

/-- With pipes of `N` pages of `P` bytes, only the pages that are wholly read count. -/
theorem readsEnough_pages (N P : Nat) (pos : 0 < N) (bytes : 0 < P) (body : Bytes) (program : List Op) :
    ReadsEnough (pagePipes N P pos bytes) body program ↔
      ∀ r, readsBefore (N * P) program = some r → body.length ≤ (r / P + N) * P := by
  rw [readsEnough_counts (Pipe.counts_pages N P pos bytes) (Pipe.counts_pages N P pos bytes), Nat.zero_div,
    Nat.zero_add]

/-- **When the exchange is free of deadlock.** For a child that reads its `CONTENT_LENGTH`
bytes and exits, no state reached has both sides blocked if and only if the child, when its
pipe is full for the first time, has read so much that the rest of the body finds room. For
pipes that count bytes, and for pipes of pages, that is a bound on the body. And once the read
loop has ended, the response body is what the child wrote. -/
theorem exchange_deadlockFree_iff (pipes : Pipes) (body : Bytes) (program : List Op)
    (exact : reads program = body.length) :
    ((∀ s, (machine pipes body program).Reachable s → ¬ s.Deadlocked pipes) ↔ ReadsEnough pipes body program) ∧
    (∀ s, (machine pipes body program).Reachable s → s.parent = .waitpid ∨ s.parent = .done →
      s.responseBody = written program) ∧
    (∀ (K : Nat) (pos : 0 < K),
      ReadsEnough (bytePipes K pos) body program ↔ ∀ r, readsBefore K program = some r → body.length ≤ r + K) ∧
    ∀ (N P : Nat) (pos : 0 < N) (bytes : 0 < P), ReadsEnough (pagePipes N P pos bytes) body program ↔
      ∀ r, readsBefore (N * P) program = some r → body.length ≤ (r / P + N) * P := by
  refine ⟨?_, ?_, fun K pos => readsEnough_bytes K pos body program,
    fun N P pos bytes => readsEnough_pages N P pos bytes body program⟩
  · constructor
    · intro free k r fullAt found
      by_contra early
      obtain ⟨s, reached, dead⟩ := exists_deadlocked fullAt found early
      exact free s reached dead
    · intro enough s reached
      exact not_deadlocked exact enough reached
  · intro s reached ended
    obtain ⟨past, inv⟩ := progress_of_reachable exact reached
    obtain ⟨exited, drained⟩ := inv.waiting ended
    have split := inv.split
    rw [inv.exited exited, List.append_nil] at split
    have response := inv.response
    rw [drained, List.append_nil] at response
    rw [split, response]

/-- A page of two bytes each way: a child that reads its three bytes before it answers, and
one that reads one, which frees no page, and answers before it reads on. -/
theorem exchange_deadlockFree_iff_page :
    (¬ ∃ s, (machine (pagePipes 1 2 (by decide) (by decide)) (ascii "abc")
        [.read, .read, .read, .write 97, .write 98, .write 99]).Reachable s ∧
      s.Deadlocked (pagePipes 1 2 (by decide) (by decide))) ∧
    ∃ s, (machine (pagePipes 1 2 (by decide) (by decide)) (ascii "abc")
        [.read, .write 97, .write 98, .write 99, .read, .read]).Reachable s ∧
      s.Deadlocked (pagePipes 1 2 (by decide) (by decide)) := by
  constructor
  · rintro ⟨s, reached, dead⟩
    obtain ⟨iff, -⟩ := exchange_deadlockFree_iff (pagePipes 1 2 (by decide) (by decide)) (ascii "abc")
      [.read, .read, .read, .write 97, .write 98, .write 99] (by decide)
    refine iff.mpr ?_ s reached dead
    rw [readsEnough_pages]
    intro r found
    cases (show readsBefore (1 * 2) _ = some 3 from rfl).symm.trans found
    decide
  · obtain ⟨iff, -⟩ := exchange_deadlockFree_iff (pagePipes 1 2 (by decide) (by decide)) (ascii "abc")
      [.read, .write 97, .write 98, .write 99, .read, .read] (by decide)
    by_contra free
    have enough := iff.mp fun s reached dead => free ⟨s, reached, dead⟩
    rw [readsEnough_pages] at enough
    exact absurd (enough 1 rfl) (by decide)

/-- A child that writes two bytes before it reads, on pipes of one byte. -/
theorem exchange_deadlocks :
    ∃ s, (machine (bytePipes 1 (by decide)) (ascii "ab") [.write 97, .write 98, .read, .read]).Reachable s ∧
      s.Deadlocked (bytePipes 1 (by decide)) := by
  refine ⟨⟨.write, ascii "b", ⟨ascii "a", [.put]⟩, ⟨[97], [.put]⟩, [.write 98, .read, .read], false, []⟩, ?_, ?_⟩
  · exact Machine.Reachable.exec .init (rfl :
      (machine (bytePipes 1 (by decide)) (ascii "ab") [.write 97, .write 98, .read, .read]).exec _
        [.parent, .child] = some _)
  · constructor <;> decide

end Exchange

end HttpServer.Cgi
