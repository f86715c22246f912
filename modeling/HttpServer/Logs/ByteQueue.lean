import HttpServer.Lib.Refinement
import HttpServer.Logs.Buffer

/-!
# Buffers are byte queues

`Queue` is what a buffer is for: the items pushed since the last reset, of which the first
`consumed` have been read. Any number of buffers, pushed to, read, reset and swapped in any
order, refine as many queues (`buffer_refines_queue`), as long as no size wraps; a `push` of
nearly `2 ^ 64` bytes makes a buffer shrink in place of growing (`push_shrinks`).
-/

namespace HttpServer.Logs
open Lib

/-! ## Queues -/

/-- The items pushed since the last reset, and how many of them have been read. -/
structure Queue (α : Type*) where
  pushed : List α
  consumed : Nat

/-- What can be done to the queues, or the buffers, indexed by `ι`. A push that has to grow a
buffer may leave by an exception instead. -/
inductive QueueAction (ι α : Type*) where
  | push (i : ι) (data : List α)
  | pushThrows (i : ι) (data : List α)
  | moveReader (i : ι) (len : Nat)
  | reset (i : ι)
  | swap (i j : ι)

namespace Queue
variable {ι α : Type*} [DecidableEq ι]

/-- Nothing has been pushed. -/
def new : Queue α := ⟨[], 0⟩

/-- The items still to be read. -/
def contents (q : Queue α) : List α := q.pushed.drop q.consumed

def push (q : Queue α) (data : List α) : Queue α := { q with pushed := q.pushed ++ data }

def read (q : Queue α) (len : Nat) : Queue α := { q with consumed := q.consumed + len }

/-- The queues as a machine. Only what is there can be read. -/
def machine (ι α : Type*) [DecidableEq ι] : Machine (ι → Queue α) (QueueAction ι α) where
  init := fun _ => new
  step q
    | .push i data => some (Function.update q i ((q i).push data))
    | .pushThrows _ _ => some q
    | .moveReader i len =>
      if len ≤ (q i).contents.length then some (Function.update q i ((q i).read len)) else none
    | .reset i => some (Function.update q i new)
    | .swap i j => some (Function.update (Function.update q i (q j)) j (q i))

theorem contents_push {q : Queue α} (within : q.consumed ≤ q.pushed.length) (data : List α) :
    (q.push data).contents = q.contents ++ data := List.drop_append_of_le_length within

theorem contents_read (q : Queue α) (len : Nat) : (q.read len).contents = q.contents.drop len :=
  List.drop_drop.symm

end Queue

/-! ## Buffers -/

namespace Buffer

/-- `moveReader` within its bound skips bytes of the readable region. -/
theorem moveReader_ok {b : Buffer} (wf : b.Wf) {len : Nat} (within : len ≤ b.readable.length) :
    ∃ b', b.moveReader len = .ok b' ∧ b'.Wf ∧ b'.readable = b.readable.drop len := by
  obtain ⟨order, inside, size⟩ := wf
  have bound : len ≤ b.readAbleSize := length_readable ⟨order, inside, size⟩ ▸ within
  have ordered : b.readerIdx + len ≤ b.writerIdx := by
    unfold readAbleSize at bound
    omega
  unfold MAX_VECTOR_SIZE at size
  have wrap : (b.readerIdx + len) % 2 ^ 64 = b.readerIdx + len := Nat.mod_eq_of_lt (by omega)
  refine ⟨{ b with readerIdx := b.readerIdx + len }, ?_, ?_, ?_⟩
  · rw [moveReader, if_pos bound, wrap]
  · constructor
    case order => exact ordered
    case inside => exact inside
    case size => exact size
  · exact List.drop_drop.symm

/-- Beyond its bound the assertion fails. -/
theorem moveReader_error {b : Buffer} (wf : b.Wf) {len : Nat} (beyond : b.readable.length < len) :
    b.moveReader len = .error .assertion := by
  rw [length_readable wf] at beyond
  exact if_neg (Nat.not_le_of_lt beyond)

/-- A message that does not fit into what the buffer has grown to is copied past its end. -/
theorem push_outside {b g : Buffer} {data : Bytes} (grown : b.ensureEnoughSize data.length = .ok g)
    (outside : g.buffer.length < g.writerIdx + data.length) : b.push data = .error .outOfBounds := by
  have copied : g.copy data = .error .outOfBounds := if_neg (Nat.not_le_of_lt outside)
  unfold push
  rw [grown]
  simp only [bind, Except.bind, copied]

end Buffer

/-- Buffers, by an index. -/
abbrev Buffers (ι : Type*) := ι → Buffer

namespace Buffers
variable {ι : Type*} [DecidableEq ι]

/-- One operation on the buffers. -/
def step (s : Buffers ι) : QueueAction ι UInt8 → Option (Buffers ι)
  | .push i data =>
    match (s i).push data with
    | .ok b => some (Function.update s i b)
    | .error _ => none
  | .pushThrows i data => if (s i).writeAbleSize < data.length then some s else none
  | .moveReader i len =>
    match (s i).moveReader len with
    | .ok b => some (Function.update s i b)
    | .error _ => none
  | .reset i => some (Function.update s i (s i).reset)
  | .swap i j =>
    let swapped := (s i).swap (s j)
    some (Function.update (Function.update s i swapped.1) j swapped.2)

/-- The buffers as a machine. -/
def machine (ι : Type*) [DecidableEq ι] : Machine (Buffers ι) (QueueAction ι UInt8) := ⟨fun _ => .new, step⟩

/-- No size wraps in this operation. -/
def Fits (s : Buffers ι) : QueueAction ι UInt8 → Prop
  | .push i data => (s i).SizesFit data.length
  | _ => True

/-- The buffer holds what is to be read of the queue. -/
structure Holds (b : Buffer) (q : Queue UInt8) : Prop where
  wf : b.Wf
  readable : b.readable = q.contents
  within : q.consumed ≤ q.pushed.length

theorem holds_new : Holds .new .new := ⟨Buffer.wf_new, Buffer.readable_new, Nat.le_refl 0⟩

theorem Holds.push {b b' : Buffer} {q : Queue UInt8} {data : Bytes} (holds : Holds b q) (fits : b.SizesFit data.length)
    (ok : b.push data = .ok b') : Holds b' (q.push data) := by
  obtain ⟨wf, readable⟩ := Buffer.push_ok holds.wf fits ok
  constructor
  case wf => exact wf
  case readable => rw [readable, holds.readable, Queue.contents_push holds.within]
  case within => exact holds.within.trans (by simp [Queue.push])

theorem Holds.moveReader {b b' : Buffer} {q : Queue UInt8} {len : Nat} (holds : Holds b q)
    (ok : b.moveReader len = .ok b') : len ≤ q.contents.length ∧ Holds b' (q.read len) := by
  by_cases within : len ≤ b.readable.length
  · obtain ⟨c, moved, wf, readable⟩ := Buffer.moveReader_ok holds.wf within
    obtain rfl : b' = c := Except.ok.inj (ok.symm.trans moved)
    have bound := holds.within
    rw [holds.readable] at within
    refine ⟨within, ⟨wf, ?_, ?_⟩⟩
    · rw [readable, holds.readable, Queue.contents_read]
    · rw [Queue.contents, List.length_drop] at within
      show q.consumed + len ≤ q.pushed.length
      omega
  · rw [Buffer.moveReader_error holds.wf (Nat.lt_of_not_le within)] at ok
    cases ok

theorem Holds.reset {b : Buffer} {q : Queue UInt8} (holds : Holds b q) : Holds b.reset .new :=
  ⟨Buffer.wf_reset holds.wf, Buffer.readable_reset b, Nat.le_refl 0⟩

/-- One buffer and its queue change. -/
theorem holds_update {s : Buffers ι} {q : ι → Queue UInt8} (holds : ∀ i, Holds (s i) (q i)) (i : ι) {b : Buffer}
    {p : Queue UInt8} (new : Holds b p) (j : ι) : Holds (Function.update s i b j) (Function.update q i p j) := by
  by_cases same : j = i
  · subst same
    rw [Function.update_self, Function.update_self]
    exact new
  · rw [Function.update_of_ne same, Function.update_of_ne same]
    exact holds j

/-- **One operation.** Each buffer goes on holding its queue. -/
theorem refines_queues :
    (machine ι).Refines (Queue.machine ι UInt8) id Fits fun s q => ∀ i, Holds (s i) (q i) := by
  constructor
  case init => exact fun _ => holds_new
  case step =>
    intro s q a s' holds fits taken
    cases a with
    | push i data =>
      simp only [machine, step] at taken
      split at taken <;> cases taken
      rename_i ok
      exact ⟨_, rfl, holds_update holds i ((holds i).push fits ok)⟩
    | pushThrows i data =>
      simp only [machine, step] at taken
      split at taken <;> cases taken
      exact ⟨_, rfl, holds⟩
    | moveReader i len =>
      simp only [machine, step] at taken
      split at taken <;> cases taken
      rename_i ok
      obtain ⟨within, held⟩ := (holds i).moveReader ok
      exact ⟨_, if_pos within, holds_update holds i held⟩
    | reset i =>
      cases taken
      exact ⟨_, rfl, holds_update holds i (holds i).reset⟩
    | swap i j =>
      cases taken
      exact ⟨_, rfl, holds_update (holds_update holds i (holds j)) j (holds i)⟩

/-- **Buffers refine byte queues.** After every sequence of operations in which no size wraps,
each buffer has its indices in order and in the vector, and its readable region is what has
been pushed since the last reset without what has been read; and whatever is pushed next, the
growing keeps that region, the copy and the assertion go through, and the only way to fail is
for want of memory. -/
theorem buffer_refines_queue {ops : List (QueueAction ι UInt8)} {s : Buffers ι} (run : (machine ι).RunIf Fits ops s) :
    (∃ q, (Queue.machine ι UInt8).exec (fun _ => .new) ops = some q ∧ ∀ i, (s i).readable = (q i).contents) ∧
    (∀ i, (s i).readerIdx ≤ (s i).writerIdx ∧ (s i).writerIdx ≤ (s i).buffer.length) ∧
    (∀ i, ∀ data : Bytes, (s i).SizesFit data.length →
      ((∃ b, (s i).push data = .ok b) ∨ (s i).push data = .error .lengthError) ∧
      ∀ b, (s i).ensureEnoughSize data.length = .ok b → b.readable = (s i).readable) := by
  obtain ⟨q, ran, holds⟩ := refines_queues.run run
  rw [List.map_id] at ran
  refine ⟨⟨q, ran, fun i => (holds i).readable⟩, fun i => ⟨(holds i).wf.order, (holds i).wf.inside⟩, ?_⟩
  intro i data fits
  constructor
  · cases pushed : (s i).push data with
    | ok b => exact .inl ⟨b, rfl⟩
    | error fault => exact .inr (congrArg Except.error (Buffer.push_error (holds i).wf fits pushed))
  · exact fun b grown => (Buffer.grown_of_ensureEnoughSize (holds i).wf fits grown).readable

/-- A message that fits is pushed, and part of it is read. -/
theorem run_push_read (i : ι) {data : Bytes} (room : data.length ≤ Buffer.new.writeAbleSize) {len : Nat}
    (within : len ≤ data.length) : ∃ s, (machine ι).RunIf Fits [.push i data, .moveReader i len] s := by
  obtain ⟨b, pushed, wf, readable, -⟩ := Buffer.push_fits Buffer.wf_new room
  obtain ⟨c, moved, -⟩ := Buffer.moveReader_ok wf (by simpa [readable] using within)
  have first : (machine ι).RunIf Fits [.push i data] (Function.update (fun _ => .new) i b) := by
    apply Machine.RunIf.init.step
    · exact fun more => absurd room (Nat.not_le_of_lt more)
    · simp [machine, step, pushed]
  have permitted : Fits (Function.update (fun _ => .new) i b) (.moveReader i len) := trivial
  refine ⟨Function.update (Function.update (fun _ => .new) i b) i c, first.step permitted ?_⟩
  simp [machine, step, moved]

/-- Two bytes pushed and one of them read. -/
theorem buffer_refines_queue_two :
    ∃ s : Buffers Unit, (machine Unit).RunIf Fits [.push () (ascii "hi"), .moveReader () 1] s ∧
      (∃ q, (Queue.machine Unit UInt8).exec (fun _ => .new) [.push () (ascii "hi"), .moveReader () 1] = some q ∧
        ∀ i, (s i).readable = (q i).contents) ∧
      (∀ i, (s i).readerIdx ≤ (s i).writerIdx ∧ (s i).writerIdx ≤ (s i).buffer.length) ∧
      (∀ i, ∀ data : Bytes, (s i).SizesFit data.length →
        ((∃ b, (s i).push data = .ok b) ∨ (s i).push data = .error .lengthError) ∧
        ∀ b, (s i).ensureEnoughSize data.length = .ok b → b.readable = (s i).readable) := by
  have room : (ascii "hi").length ≤ Buffer.new.writeAbleSize := by
    rw [Buffer.room_new]
    decide
  obtain ⟨s, run⟩ := run_push_read () room (by decide : 1 ≤ (ascii "hi").length)
  exact ⟨s, run, buffer_refines_queue run⟩

/-- A message that makes the size a new buffer grows to wrap to zero. -/
def wrapping : Bytes := List.replicate (2 ^ 64 - 2 ^ 21) 0

theorem length_wrapping : wrapping.length = 2 ^ 64 - 2 ^ 21 := by
  unfold wrapping
  exact List.length_replicate

/-- One byte and then a message of `2 ^ 64 - 2 ^ 21` bytes: their number fits in `size_t`, but the
buffer shrinks to nothing, the byte is lost, the copy goes past the end and the assertion of
`moveWriter` does not hold. -/
theorem push_shrinks :
    (ascii "a").length + wrapping.length < 2 ^ 64 ∧
    ∃ b g, Buffer.new.push (ascii "a") = .ok b ∧ b.readable = ascii "a" ∧
      b.ensureEnoughSize wrapping.length = .ok g ∧ g.readable = [] ∧ b.push wrapping = .error .outOfBounds ∧
      g.moveWriter wrapping.length = .error .assertion := by
  have length := length_wrapping
  generalize wrapping = w at *
  have room : (ascii "a").length ≤ Buffer.new.writeAbleSize := by
    rw [Buffer.room_new]
    decide
  obtain ⟨b, pushed, wf, readable, size, reader, writer⟩ := Buffer.push_fits Buffer.wf_new room
  have size : b.buffer.length = 2 ^ 20 := by
    rw [size]
    unfold Buffer.new
    rw [List.length_replicate]
    decide
  have one : b.writerIdx = 1 := writer
  have wraps : b.newSize (2 ^ 64 - 2 ^ 21) = 0 := by
    rw [Buffer.newSize, size]
    decide
  have grown : b.ensureEnoughSize w.length = .ok { b with buffer := [] } := by
    have more : ¬ w.length ≤ b.writeAbleSize := by
      rw [length, Buffer.writeAbleSize, size]
      omega
    rw [Buffer.ensureEnoughSize, if_neg more, length, wraps]
    simp [Buffer.resize]
  have single : (ascii "a").length = 1 := by decide
  refine ⟨by omega, b, { b with buffer := [] }, pushed, readable, grown, by simp [Buffer.readable], ?_, ?_⟩
  · apply Buffer.push_outside grown
    show 0 < b.writerIdx + w.length
    omega
  · rw [length]
    simp [Buffer.moveWriter, one]

end Buffers

end HttpServer.Logs
