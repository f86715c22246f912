import HttpServer.Lib.Bytes

/-!
# The buffer of the asynchronous logger

`Buffer` with its three fields. What is between the reader and the writer index is
`readable`, the queue of bytes the buffer stands for; `push_ok` and `push_error` say that a
`push` appends to it or fails for want of memory, and never by its assertion or by writing
past the end. Sizes are `size_t`, so this takes that the size a buffer grows to does not wrap
(`SizesFit`); it never does for a message no longer than `std::string` allows.
-/

namespace HttpServer.Logs
open Lib

/-- `DEFAULT_BUFFER_SIZE`. -/
def DEFAULT_BUFFER_SIZE : Nat := 1 * 1024 * 1024

/-- `THRESHOLD_BUFFER_SIZE`. -/
def THRESHOLD_BUFFER_SIZE : Nat := 5 * 1024 * 1024

/-- `INCREMENT_BUFFER_SIZE`. -/
def INCREMENT_BUFFER_SIZE : Nat := 1 * 1024 * 1024

/-- The `max_size` of a `vector<char>`. -/
def MAX_VECTOR_SIZE : Nat := 2 ^ 63 - 1

/-- `Buffer`. -/
structure Buffer where
  buffer : Bytes
  readerIdx : Nat
  writerIdx : Nat
  deriving DecidableEq

/-- A buffer as constructed. -/
def Buffer.new : Buffer := ⟨List.replicate DEFAULT_BUFFER_SIZE 0, 0, 0⟩

/-- How an operation on a buffer fails: `resize` throws, bytes are copied past the end, or
an assertion does not hold. -/
inductive Fault where
  | lengthError
  | outOfBounds
  | assertion
  deriving DecidableEq, Repr

namespace Buffer

/-- `readAbleSize`. -/
def readAbleSize (b : Buffer) : Nat := b.writerIdx - b.readerIdx

/-- `writeAbleSize`. -/
def writeAbleSize (b : Buffer) : Nat := b.buffer.length - b.writerIdx

/-- `empty`. -/
def empty (b : Buffer) : Bool := b.readerIdx = b.writerIdx

/-- `reset`. -/
def reset (b : Buffer) : Buffer := { b with readerIdx := 0, writerIdx := 0 }

/-- `swap`: this buffer and the other, exchanged. -/
def swap (b other : Buffer) : Buffer × Buffer := (other, b)

/-- `vector::resize`: cut off, or filled up with zeros. -/
def resize (b : Buffer) (size : Nat) : Except Fault Buffer :=
  if size ≤ MAX_VECTOR_SIZE then
    .ok { b with buffer := b.buffer.take size ++ List.replicate (size - b.buffer.length) 0 }
  else .error .lengthError

/-- The size `ensureEnoughSize` grows to. -/
def newSize (b : Buffer) (len : Nat) : Nat :=
  if b.buffer.length < THRESHOLD_BUFFER_SIZE then (b.buffer.length * 2 + len) % 2 ^ 64
  else (b.buffer.length + INCREMENT_BUFFER_SIZE + len) % 2 ^ 64

/-- `ensureEnoughSize`. -/
def ensureEnoughSize (b : Buffer) (len : Nat) : Except Fault Buffer :=
  if len ≤ b.writeAbleSize then .ok b else b.resize (b.newSize len)

/-- `std::copy` to the writer index. -/
def copy (b : Buffer) (data : Bytes) : Except Fault Buffer :=
  if b.writerIdx + data.length ≤ b.buffer.length then
    .ok { b with buffer := b.buffer.take b.writerIdx ++ data ++ b.buffer.drop (b.writerIdx + data.length) }
  else .error .outOfBounds

/-- `moveWriter`. -/
def moveWriter (b : Buffer) (len : Nat) : Except Fault Buffer :=
  if (len + b.writerIdx) % 2 ^ 64 ≤ b.buffer.length then .ok { b with writerIdx := (b.writerIdx + len) % 2 ^ 64 }
  else .error .assertion

/-- `moveReader`. -/
def moveReader (b : Buffer) (len : Nat) : Except Fault Buffer :=
  if len ≤ b.readAbleSize then .ok { b with readerIdx := (b.readerIdx + len) % 2 ^ 64 } else .error .assertion

/-- `push`. -/
def push (b : Buffer) (data : Bytes) : Except Fault Buffer := do
  let b ← b.ensureEnoughSize data.length
  let b ← b.copy data
  b.moveWriter data.length

/-! ## The bytes a buffer stands for -/

/-- The bytes from `begin()` on, `readAbleSize()` many. -/
def readable (b : Buffer) : Bytes := (b.buffer.take b.writerIdx).drop b.readerIdx

/-- The indices are in order and in the vector. -/
structure Wf (b : Buffer) : Prop where
  order : b.readerIdx ≤ b.writerIdx
  inside : b.writerIdx ≤ b.buffer.length
  size : b.buffer.length ≤ MAX_VECTOR_SIZE

theorem wf_new : new.Wf := by
  constructor
  · exact Nat.le_refl 0
  · exact Nat.zero_le _
  · show (List.replicate DEFAULT_BUFFER_SIZE (0 : UInt8)).length ≤ MAX_VECTOR_SIZE
    rw [List.length_replicate]
    decide

@[simp] theorem readable_new : new.readable = [] := by simp [new, readable]

theorem room_of_start {b : Buffer} (start : b.writerIdx = 0) : b.writeAbleSize = b.buffer.length := by
  unfold writeAbleSize
  omega

theorem room_new : new.writeAbleSize = DEFAULT_BUFFER_SIZE := (room_of_start rfl).trans List.length_replicate

theorem wf_reset {b : Buffer} (wf : b.Wf) : b.reset.Wf := ⟨Nat.le_refl 0, Nat.zero_le _, wf.size⟩

@[simp] theorem readable_reset (b : Buffer) : b.reset.readable = [] := by simp [reset, readable]

theorem length_readable {b : Buffer} (wf : b.Wf) : b.readable.length = b.readAbleSize := by
  have := wf.inside
  simp [readable, readAbleSize, Nat.min_eq_left this]

theorem empty_iff {b : Buffer} (wf : b.Wf) : b.empty = true ↔ b.readable = [] := by
  have order := wf.order
  have length := length_readable wf
  rw [← List.length_eq_zero_iff, length, empty, readAbleSize, decide_eq_true_eq]
  omega

/-! ## What a push does -/

/-- The size that `ensureEnoughSize` means to grow to. -/
def grownSize (b : Buffer) (len : Nat) : Nat :=
  if b.buffer.length < THRESHOLD_BUFFER_SIZE then b.buffer.length * 2 + len
  else b.buffer.length + INCREMENT_BUFFER_SIZE + len

/-- If the buffer has to grow, its new size is a `size_t`. -/
def SizesFit (b : Buffer) (len : Nat) : Prop := b.writeAbleSize < len → b.grownSize len < 2 ^ 64

/-- The `max_size` of a `std::string`. -/
def MAX_STRING_SIZE : Nat := 2 ^ 62 - 1

variable {b b' : Buffer} {data : Bytes} {len : Nat}

theorem newSize_eq (fits : b.grownSize len < 2 ^ 64) : b.newSize len = b.grownSize len := by
  unfold grownSize at fits
  unfold newSize grownSize
  split
  · rename_i small
    rw [if_pos small] at fits
    exact Nat.mod_eq_of_lt fits
  · rename_i large
    rw [if_neg large] at fits
    exact Nat.mod_eq_of_lt fits

/-- For a message of a `std::string` no sum of sizes wraps. -/
theorem sizesFit_of_short (wf : b.Wf) (short : len ≤ MAX_STRING_SIZE) : b.SizesFit len := by
  intro _
  have size := wf.size
  unfold MAX_STRING_SIZE at short
  unfold MAX_VECTOR_SIZE at size
  unfold grownSize THRESHOLD_BUFFER_SIZE INCREMENT_BUFFER_SIZE
  split <;> omega

theorem newSize_ge (wf : b.Wf) (fits : b.SizesFit len) (more : b.writeAbleSize < len) :
    b.buffer.length ≤ b.newSize len ∧ b.writerIdx + len ≤ b.newSize len := by
  have inside := wf.inside
  rw [newSize_eq (fits more)]
  unfold grownSize
  split <;> omega

/-- What `ensureEnoughSize` leaves: room for the message, and the old bytes in front. -/
structure Grown (b b' : Buffer) (len : Nat) : Prop where
  readerIdx : b'.readerIdx = b.readerIdx
  writerIdx : b'.writerIdx = b.writerIdx
  room : b.writerIdx + len ≤ b'.buffer.length
  size : b'.buffer.length ≤ MAX_VECTOR_SIZE
  old : b'.buffer.take b.writerIdx = b.buffer.take b.writerIdx

theorem Grown.readable (grown : Grown b b' len) : b'.readable = b.readable := by
  unfold Buffer.readable
  rw [grown.writerIdx, grown.readerIdx, grown.old]

theorem grown_of_ensureEnoughSize (wf : b.Wf) (fits : b.SizesFit len) (ok : b.ensureEnoughSize len = .ok b') :
    Grown b b' len := by
  unfold ensureEnoughSize at ok
  split at ok
  · rename_i fits
    cases ok
    have inside := wf.inside
    unfold writeAbleSize at fits
    exact ⟨rfl, rfl, by omega, wf.size, rfl⟩
  · rename_i more
    obtain ⟨longer, room⟩ := newSize_ge wf fits (Nat.lt_of_not_le more)
    have inside := wf.inside
    unfold resize at ok
    split at ok
    · rename_i size
      cases ok
      have length : (b.buffer.take (b.newSize len) ++ List.replicate (b.newSize len - b.buffer.length) 0).length =
          b.newSize len := by
        rw [List.length_append, List.length_take, List.length_replicate]
        omega
      constructor
      case readerIdx => rfl
      case writerIdx => rfl
      case room =>
        show b.writerIdx + len ≤ (_ ++ _ : Bytes).length
        rwa [length]
      case size =>
        show (_ ++ _ : Bytes).length ≤ MAX_VECTOR_SIZE
        rwa [length]
      case old => rw [List.take_of_length_le longer, List.take_append_of_le_length inside]
    · cases ok

/-- After growing, the copy and the assertion go through. -/
theorem copy_moveWriter (wf : b.Wf) {g : Buffer} (grown : Grown b g data.length) :
    ∃ b', (g.copy data >>= fun c => c.moveWriter data.length) = .ok b' ∧ b'.Wf ∧
      b'.readable = b.readable ++ data ∧ b'.buffer.length = g.buffer.length ∧
      b'.readerIdx = b.readerIdx ∧ b'.writerIdx = b.writerIdx + data.length := by
  obtain ⟨order, inside, -⟩ := wf
  obtain ⟨reader, writer, room, size, old⟩ := grown
  unfold MAX_VECTOR_SIZE at size
  have front : (g.buffer.take b.writerIdx).length = b.writerIdx := by
    rw [List.length_take]
    omega
  have length : (g.buffer.take b.writerIdx ++ data ++ g.buffer.drop (b.writerIdx + data.length)).length =
      g.buffer.length := by
    rw [List.length_append, List.length_append, front, List.length_drop]
    omega
  have wrap : (b.writerIdx + data.length) % 2 ^ 64 = b.writerIdx + data.length := Nat.mod_eq_of_lt (by omega)
  refine ⟨⟨g.buffer.take b.writerIdx ++ data ++ g.buffer.drop (b.writerIdx + data.length), b.readerIdx,
    b.writerIdx + data.length⟩, ?_, ?_, ?_, length, rfl, rfl⟩
  · simp only [copy, writer, reader, if_pos room, bind, Except.bind, moveWriter, length,
      Nat.add_comm data.length, wrap]
  · constructor
    case order => exact Nat.le_add_right_of_le order
    case inside => exact length ▸ room
    case size => exact length ▸ size
  · have taken : (g.buffer.take b.writerIdx ++ data ++ g.buffer.drop (b.writerIdx + data.length)).take
        (b.writerIdx + data.length) = g.buffer.take b.writerIdx ++ data := by
      rw [List.take_append_of_le_length (by rw [List.length_append, front])]
      exact List.take_of_length_le (by rw [List.length_append, front])
    show List.drop b.readerIdx (List.take (b.writerIdx + data.length) _) = _
    rw [taken, old, List.drop_append_of_le_length]
    · rfl
    · rw [List.length_take]
      omega

/-- A `push` that returns has appended the message. -/
theorem push_ok (wf : b.Wf) (fits : b.SizesFit data.length) (ok : b.push data = .ok b') :
    b'.Wf ∧ b'.readable = b.readable ++ data := by
  unfold push at ok
  cases ensured : b.ensureEnoughSize data.length with
  | error fault =>
    rw [ensured] at ok
    cases ok
  | ok g =>
    obtain ⟨c, done, wf', readable, -⟩ := copy_moveWriter wf (grown_of_ensureEnoughSize wf fits ensured)
    rw [ensured] at ok
    cases done.symm.trans ok
    exact ⟨wf', readable⟩

/-- A `push` that fails has run out of memory. -/
theorem push_error (wf : b.Wf) (fits : b.SizesFit data.length) {fault : Fault}
    (failed : b.push data = .error fault) : fault = .lengthError := by
  unfold push at failed
  cases ensured : b.ensureEnoughSize data.length with
  | error fault' =>
    have memory : fault' = .lengthError := by
      unfold ensureEnoughSize resize at ensured
      split at ensured
      · cases ensured
      · split at ensured <;> cases ensured
        rfl
    rw [ensured] at failed
    cases failed
    exact memory
  | ok g =>
    obtain ⟨c, done, -⟩ := copy_moveWriter wf (grown_of_ensureEnoughSize wf fits ensured)
    rw [ensured] at failed
    cases done.symm.trans failed

/-- A message that fits is always stored, and in the memory there is. -/
theorem push_fits (wf : b.Wf) (fits : data.length ≤ b.writeAbleSize) :
    ∃ b', b.push data = .ok b' ∧ b'.Wf ∧ b'.readable = b.readable ++ data ∧
      b'.buffer.length = b.buffer.length ∧ b'.readerIdx = b.readerIdx ∧
      b'.writerIdx = b.writerIdx + data.length := by
  have inside := wf.inside
  have grown : Grown b b data.length := by
    unfold writeAbleSize at fits
    exact ⟨rfl, rfl, by omega, wf.size, rfl⟩
  have same : b.ensureEnoughSize data.length = .ok b := if_pos fits
  unfold push
  rw [same]
  exact copy_moveWriter wf grown

end Buffer

end HttpServer.Logs
