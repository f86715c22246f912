import HttpServer.Logs.Delivery

/-!
# The memory of a looper

In the unsafe mode a `push` that does not fit makes the buffer grow, and no buffer ever
shrinks. How large they get depends on the backlog alone: the bytes pending when a message is
stored. A buffer below the threshold at most doubles before it gets room for the message, so
over a whole run neither outgrows twice the largest backlog by more than the threshold
(`memory_of_backlog`).
-/

namespace HttpServer.Logs
open Lib

namespace Buffer
variable {b b' : Buffer} {data : Bytes}

/-- The indices and the size after a `push`. -/
theorem push_size (wf : b.Wf) (fits : b.SizesFit data.length) (ok : b.push data = .ok b') :
    b'.readerIdx = b.readerIdx ∧ b'.writerIdx = b.writerIdx + data.length ∧
      b'.buffer.length = if data.length ≤ b.writeAbleSize then b.buffer.length else b.grownSize data.length := by
  unfold push at ok
  cases ensured : b.ensureEnoughSize data.length with
  | error fault =>
    rw [ensured] at ok
    cases ok
  | ok g =>
    obtain ⟨c, done, -, -, length, reader, writer⟩ := copy_moveWriter wf (grown_of_ensureEnoughSize wf fits ensured)
    rw [ensured] at ok
    cases done.symm.trans ok
    refine ⟨reader, writer, length.trans ?_⟩
    unfold ensureEnoughSize at ensured
    split at ensured
    · rename_i room
      cases ensured
      rw [if_pos room]
    · rename_i more
      have less := Nat.lt_of_not_le more
      obtain ⟨longer, -⟩ := newSize_ge wf fits less
      unfold resize at ensured
      split at ensured <;> cases ensured
      rw [if_neg more, ← newSize_eq (fits less)]
      simp only [List.length_append, List.length_take, List.length_replicate]
      omega

/-- A `push` for which there is memory returns. -/
theorem exists_push (wf : b.Wf) (fits : b.SizesFit data.length) (memory : b.grownSize data.length ≤ MAX_VECTOR_SIZE) :
    ∃ b', b.push data = .ok b' := by
  have ensured : ∃ g, b.ensureEnoughSize data.length = .ok g := by
    unfold ensureEnoughSize
    split
    case isTrue => exact ⟨b, rfl⟩
    case isFalse more =>
      rw [newSize_eq (fits (Nat.lt_of_not_le more))]
      exact ⟨_, if_pos memory⟩
  obtain ⟨g, ensured⟩ := ensured
  obtain ⟨c, done, -⟩ := copy_moveWriter wf (grown_of_ensureEnoughSize wf fits ensured)
  refine ⟨c, ?_⟩
  unfold push
  rw [ensured]
  exact done

/-- A buffer that has been written from its start, by messages after each of which at most
`bound` bytes were pending. -/
structure Modest (bound : Nat) (b : Buffer) : Prop where
  start : b.readerIdx = 0
  size : b.buffer.length ≤ 2 * bound + THRESHOLD_BUFFER_SIZE
  kept : bound ≤ DEFAULT_BUFFER_SIZE → b.buffer.length = DEFAULT_BUFFER_SIZE

variable {bound : Nat}

theorem modest_new (bound : Nat) : new.Modest bound := by
  have length : new.buffer.length = DEFAULT_BUFFER_SIZE := List.length_replicate
  constructor
  case start => rfl
  case size =>
    rw [length]
    unfold DEFAULT_BUFFER_SIZE THRESHOLD_BUFFER_SIZE
    omega
  case kept => exact fun _ => length

theorem Modest.reset (modest : b.Modest bound) : b.reset.Modest bound := ⟨rfl, modest.size, modest.kept⟩

/-- The buffer grows only when the backlog does not fit, and then by what it has and the message. -/
theorem Modest.push (modest : b.Modest bound) (wf : b.Wf) (fits : b.SizesFit data.length) (ok : b.push data = .ok b')
    (within : b.readAbleSize + data.length ≤ bound) : b'.Modest bound := by
  obtain ⟨reader, -, length⟩ := push_size wf fits ok
  have start := modest.start
  unfold readAbleSize at within
  constructor
  case start => rw [reader, start]
  case size =>
    have size := modest.size
    rw [length]
    unfold writeAbleSize grownSize INCREMENT_BUFFER_SIZE
    unfold THRESHOLD_BUFFER_SIZE at size ⊢
    split
    · exact size
    · split <;> omega
  case kept =>
    intro small
    have kept := modest.kept small
    have room : data.length ≤ b.writeAbleSize := by
      unfold writeAbleSize
      omega
    rw [length, if_pos room, kept]

end Buffer

namespace Looper
variable {ι : Type} [DecidableEq ι] {type : AsyncType} {s s' : Looper ι} {bound : Nat}

/-- A message is stored only where at most `bound` bytes are pending with it. -/
def WithinBacklog (bound : Nat) (s : Looper ι) : LooperAction ι → Prop
  | .producer i => ∀ m, s.producers i = .store m → s.proBuf.readAbleSize + m.1.length ≤ bound
  | _ => True

/-- Both buffers are modest. -/
structure Modest (bound : Nat) (s : Looper ι) : Prop where
  delivering : s.Delivering
  pro : s.proBuf.Modest bound
  con : s.conBuf.Modest bound

theorem modest_step {a : LooperAction ι} (inv : s.Modest bound) (within : WithinBacklog bound s a)
    (taken : s.step type a = some s') : s'.Modest bound := by
  have delivering := delivering_step inv.delivering taken
  cases transition_of_step taken with
  | @store i m b pc stored =>
    have fits := Buffer.sizesFit_of_short inv.delivering.pro m.2
    exact ⟨delivering, inv.pro.push inv.delivering.pro fits stored (within m pc), inv.con⟩
  | swap pc => exact ⟨delivering, inv.con, inv.pro⟩
  | reset pc => exact ⟨delivering, inv.pro, inv.con.reset⟩
  | push | acquire | full | fits | doze | signal | release | outOfMemory | wakeProducer | lock | relock | exit | goOn
  | ready | nothing | rest | notifyAll | skip | unlock | callback | wakeConsumer | stop | stopNotify | joined =>
    exact ⟨delivering, inv.pro, inv.con⟩

/-- **The memory of a looper follows its backlog.** In either mode, in every run in which no
message is stored with more than `bound` bytes pending, no buffer ever outgrows twice that bound
by more than the threshold; and with a bound within their initial size the buffers are never
reallocated. -/
theorem memory_of_backlog (reached : (machine ι type).ReachableIf (WithinBacklog bound) s) :
    s.proBuf.buffer.length ≤ 2 * bound + THRESHOLD_BUFFER_SIZE ∧
    s.conBuf.buffer.length ≤ 2 * bound + THRESHOLD_BUFFER_SIZE ∧
    (bound ≤ DEFAULT_BUFFER_SIZE →
      s.proBuf.buffer.length = DEFAULT_BUFFER_SIZE ∧ s.conBuf.buffer.length = DEFAULT_BUFFER_SIZE) := by
  have inv : s.Modest bound := by
    refine reached.invariant ?_ ?_
    · exact ⟨delivering_new, Buffer.modest_new bound, Buffer.modest_new bound⟩
    · intro s a s' inv within taken
      exact modest_step inv within taken
  exact ⟨inv.pro.size, inv.con.size, fun small => ⟨inv.pro.kept small, inv.con.kept small⟩⟩

/-- An unsafe looper when its first producer is about to copy. -/
def unsafeStoring (m : Msg) : Looper Unit :=
  { (new : Looper Unit).setProducer () (.store m) with mutex := some (.producer ()) }

theorem reachable_unsafeStoring (m : Msg) (bound : Nat) :
    (machine Unit .asyncUnsafe).ReachableIf (WithinBacklog bound) (unsafeStoring m) := by
  have called : (machine Unit .asyncUnsafe).step new (.push () m) = some (new.setProducer () (.lock m)) := by
    simp [machine, step, new]
  have locked : (machine Unit .asyncUnsafe).step (new.setProducer () (.lock m)) (.producer ()) =
      some ({ new with mutex := some (.producer ()) }.setProducer () (.test m)) := by
    simp [machine, step, stepProducer, setProducer, new]
  have tested : (machine Unit .asyncUnsafe).step ({ new with mutex := some (.producer ()) }.setProducer () (.test m))
      (.producer ()) = some (unsafeStoring m) := by
    simp [machine, step, stepProducer, setProducer, new, unsafeStoring]
  apply Machine.ReachableIf.step _ _ tested
  · apply Machine.ReachableIf.step _ _ locked
    · exact .step (a := .push () m) .init trivial called
    · intro m' pc
      simp [setProducer] at pc
  · intro m' pc
    simp [setProducer] at pc

/-- A message that does not fit makes the buffer double, and leaves room for the message besides. -/
theorem exists_grown {m : Msg} (more : DEFAULT_BUFFER_SIZE < m.1.length) :
    ∃ s, (machine Unit .asyncUnsafe).ReachableIf (WithinBacklog m.1.length) s ∧ s.pushed = [m] ∧
      s.proBuf.buffer.length = 2 * DEFAULT_BUFFER_SIZE + m.1.length := by
  have size : Buffer.new.buffer.length = DEFAULT_BUFFER_SIZE := List.length_replicate
  have fits := Buffer.sizesFit_of_short Buffer.wf_new m.2
  have grown : Buffer.new.grownSize m.1.length = 2 * DEFAULT_BUFFER_SIZE + m.1.length := by
    rw [Buffer.grownSize, size, if_pos (by decide), Nat.mul_comm]
  have memory : Buffer.new.grownSize m.1.length ≤ Buffer.MAX_STRING_SIZE + Buffer.MAX_STRING_SIZE := by
    have short := m.2
    have start : 2 * DEFAULT_BUFFER_SIZE ≤ Buffer.MAX_STRING_SIZE := by decide
    omega
  obtain ⟨b, stored⟩ := Buffer.exists_push Buffer.wf_new fits (Nat.le_trans memory (by decide))
  have pc : (unsafeStoring m).producers () = .store m := by simp [unsafeStoring, setProducer]
  have taken : (machine Unit .asyncUnsafe).step (unsafeStoring m) (.producer ()) =
      some ({ unsafeStoring m with proBuf := b, pushed := [m] }.setProducer () .notify) := by
    have stored : (unsafeStoring m).proBuf.push m.1 = .ok b := stored
    simp [machine, step, stepProducer, pc, stored]
    rfl
  have within : WithinBacklog m.1.length (unsafeStoring m) (.producer ()) := by
    intro m' at_
    obtain rfl := ProducerPc.store.inj (pc.symm.trans at_)
    have unread : (unsafeStoring m).proBuf.readAbleSize = 0 := rfl
    omega
  obtain ⟨-, -, all⟩ := Buffer.push_size Buffer.wf_new fits stored
  rw [if_neg (by rw [Buffer.room_new]; omega), grown] at all
  exact ⟨_, (reachable_unsafeStoring m m.1.length).step within taken, rfl, all⟩

theorem long_fits : (List.replicate (DEFAULT_BUFFER_SIZE + 1) (0 : UInt8)).length ≤ Buffer.MAX_STRING_SIZE := by
  rw [List.length_replicate]
  decide

/-- A message of a byte more than the buffer was made with. -/
def long : Msg := ⟨List.replicate (DEFAULT_BUFFER_SIZE + 1) 0, long_fits⟩

/-- The buffer has three times the size it was made with. -/
theorem memory_of_backlog_long :
    ∃ s, (machine Unit .asyncUnsafe).ReachableIf (WithinBacklog (DEFAULT_BUFFER_SIZE + 1)) s ∧ s.pushed = [long] ∧
      s.proBuf.buffer.length = 3 * DEFAULT_BUFFER_SIZE + 1 ∧
      s.proBuf.buffer.length ≤ 2 * (DEFAULT_BUFFER_SIZE + 1) + THRESHOLD_BUFFER_SIZE := by
  have length : long.1.length = DEFAULT_BUFFER_SIZE + 1 := List.length_replicate
  obtain ⟨s, reached, pushed, size⟩ := exists_grown (m := long) (by rw [length]; exact Nat.lt_succ_self _)
  rw [length] at reached size
  refine ⟨s, reached, pushed, ?_, (memory_of_backlog reached).1⟩
  rw [size]
  decide

end Looper

end HttpServer.Logs
