import HttpServer.Logs.Looper

/-!
# A drained buffer

A producer of a safe looper waits until its message fits the producer buffer. Such a buffer
never grows, and a swap brings back one that has been reset, so an empty one has room for
`DEFAULT_BUFFER_SIZE` bytes and no more. `drained_iff` draws the line there: a shorter
message never waits for a consumer that has nothing to do, and a longer one can only wait.
-/

namespace HttpServer.Logs
open Lib

/-! ## Buffers that never grow -/

namespace Buffer

/-- A buffer of the size it was made with, read from its start. -/
structure Original (b : Buffer) : Prop where
  wf : b.Wf
  start : b.readerIdx = 0
  size : b.buffer.length = DEFAULT_BUFFER_SIZE

variable {b b' : Buffer} {data : Bytes}

theorem original_new : new.Original := ⟨wf_new, rfl, List.length_replicate⟩

theorem Original.reset (original : b.Original) : b.reset.Original := ⟨wf_reset original.wf, rfl, original.size⟩

/-- An empty buffer has all of its room. -/
theorem Original.drained (original : b.Original) (empty : b.empty = true) :
    b.writeAbleSize = DEFAULT_BUFFER_SIZE := by
  have indices : b.readerIdx = b.writerIdx := of_decide_eq_true empty
  have start := original.start
  have size := original.size
  unfold writeAbleSize
  omega

theorem Original.room_le (original : b.Original) : b.writeAbleSize ≤ DEFAULT_BUFFER_SIZE := by
  have size := original.size
  unfold writeAbleSize
  omega

/-- A message that fits takes up room, and nothing grows. -/
theorem Original.push (original : b.Original) (fits : data.length ≤ b.writeAbleSize) (ok : b.push data = .ok b') :
    b'.Original ∧ b'.writeAbleSize ≤ b.writeAbleSize := by
  obtain ⟨c, pushed, wf, -, size, reader, writer⟩ := push_fits original.wf fits
  obtain rfl : b' = c := Except.ok.inj (ok.symm.trans pushed)
  constructor
  · exact ⟨wf, reader.trans original.start, size.trans original.size⟩
  · unfold writeAbleSize
    omega

end Buffer

/-! ## Where a producer can be -/

/-- What the place of a producer says about the room for its message. A sleeper that would
fit has not been notified yet. -/
def ProducerPc.Placed (b : Buffer) (c : ConsumerPc) : ProducerPc → Prop
  | .sleep m => b.writeAbleSize < m.1.length
  | .asleep m => b.writeAbleSize < m.1.length ∨ c = .notify
  | .store m => m.1.length ≤ b.writeAbleSize
  | _ => True

namespace ProducerPc
variable {b b' : Buffer} {c c' : ConsumerPc} {pc : ProducerPc}

theorem Placed.wake (placed : pc.Placed b c) : pc.wake.Placed b c := by
  cases pc with
  | asleep m => trivial
  | _ => exact placed

/-- A consumer that moves on from anywhere but its notification leaves the sleepers to wait. -/
theorem Placed.consumer (placed : pc.Placed b c) (moves : c = .notify → c' = .notify) : pc.Placed b c' := by
  cases pc with
  | asleep m =>
    rcases placed with full | notify
    · exact .inl full
    · exact .inr (moves notify)
  | _ => exact placed

/-- Without the mutex, less room changes nothing. -/
theorem Placed.fill (placed : pc.Placed b c) (outside : pc.locked = false) (less : b'.writeAbleSize ≤ b.writeAbleSize) :
    pc.Placed b' c := by
  cases pc with
  | asleep m =>
    rcases placed with full | notify
    · exact .inl (by omega)
    · exact .inr notify
  | sleep m | store m => cases outside
  | _ => trivial

/-- Without the mutex, a producer only waits for the notification after a swap. -/
theorem placed_swapped (b : Buffer) (outside : pc.locked = false) : pc.Placed b .notify := by
  cases pc with
  | asleep m => exact .inr rfl
  | sleep m | store m => cases outside
  | _ => trivial

theorem placed_notified (b : Buffer) (c : ConsumerPc) (outside : pc.locked = false) : pc.wake.Placed b c := by
  cases pc with
  | sleep m | store m => cases outside
  | _ => trivial

end ProducerPc

theorem ConsumerPc.notify_wake {c : ConsumerPc} (notify : c = .notify) : c.wake = .notify := by
  subst notify
  rfl

namespace Looper
variable {ι : Type} {s s' : Looper ι}

/-- The invariant of a safe looper's room. -/
structure Fixed (s : Looper ι) : Prop where
  pro : s.proBuf.Original
  con : s.conBuf.Original
  placed : ∀ i, (s.producers i).Placed s.proBuf s.consumer

/-- A step that leaves the buffers alone, and with them the places of the producers. -/
theorem Fixed.keep (inv : s.Fixed) (proBuf : s'.proBuf = s.proBuf) (conBuf : s'.conBuf = s.conBuf)
    (placed : ∀ i, (s'.producers i).Placed s.proBuf s'.consumer) : s'.Fixed := by
  constructor
  · rw [proBuf]
    exact inv.pro
  · rw [conBuf]
    exact inv.con
  · rw [proBuf]
    exact placed

/-- A step of the consumer alone. -/
theorem Fixed.consumer (inv : s.Fixed) (proBuf : s'.proBuf = s.proBuf) (conBuf : s'.conBuf = s.conBuf)
    (producers : s'.producers = s.producers) (moves : s.consumer = .notify → s'.consumer = .notify) : s'.Fixed := by
  apply inv.keep proBuf conBuf
  intro i
  rw [producers]
  exact (inv.placed i).consumer moves

/-- While the consumer has the mutex, no producer has. -/
theorem outside_of_consumer (exclusive : Exclusive s.mutex s.inside) (locked : s.consumer.locked = true) (i : ι) :
    (s.producers i).locked = false := by
  have held : s.inside .consumer = true := locked
  have other : Holder.producer i ≠ .consumer := by simp
  exact exclusive.outside held other

/-- While one producer has the mutex, no other has. -/
theorem outside_of_producer (exclusive : Exclusive s.mutex s.inside) {i j : ι} (locked : (s.producers i).locked = true)
    (different : j ≠ i) : (s.producers j).locked = false := by
  have held : s.inside (.producer i) = true := locked
  have other : Holder.producer j ≠ .producer i := by simpa using different
  exact exclusive.outside held other

variable [DecidableEq ι]

/-- A step of producer `i` that leaves the buffers alone. -/
theorem Fixed.producer {i : ι} {pc : ProducerPc} (inv : s.Fixed) (proBuf : s'.proBuf = s.proBuf)
    (conBuf : s'.conBuf = s.conBuf) (producers : s'.producers = Function.update s.producers i pc)
    (moves : s.consumer = .notify → s'.consumer = .notify) (placed : pc.Placed s.proBuf s'.consumer) : s'.Fixed := by
  apply inv.keep proBuf conBuf
  intro j
  rw [producers]
  by_cases same : j = i
  · subst same
    rw [Function.update_self]
    exact placed
  · rw [Function.update_of_ne same]
    exact (inv.placed j).consumer moves

/-- A message that fits is stored, and the other producers are outside. -/
theorem Fixed.store {i : ι} {m : Msg} {b : Buffer} (inv : s.Fixed) (exclusive : Exclusive s.mutex s.inside)
    (pc : s.producers i = .store m) (stored : s.proBuf.push m.1 = .ok b) :
    Fixed ({ s with proBuf := b, pushed := s.pushed ++ [m] }.setProducer i .notify) := by
  have fits := inv.placed i
  rw [pc] at fits
  obtain ⟨original, less⟩ := inv.pro.push fits stored
  refine ⟨original, inv.con, fun j => ?_⟩
  show (Function.update s.producers i _ j).Placed b s.consumer
  by_cases same : j = i
  · subst same
    rw [Function.update_self]
    trivial
  · rw [Function.update_of_ne same]
    exact (inv.placed j).fill (outside_of_producer exclusive (by rw [pc]; rfl) same) less

theorem fixed_step {a : LooperAction ι} (inv : s.Fixed) (exclusive : Exclusive s.mutex s.inside)
    (taken : s.step .asyncSafe a = some s') : s'.Fixed := by
  cases transition_of_step taken with
  | store pc stored => exact inv.store exclusive pc stored
  | full pc more => exact inv.producer rfl rfl rfl id more
  | fits pc room => exact inv.producer rfl rfl rfl id (room rfl)
  | @doze i m pc =>
    have placed := inv.placed i
    rw [pc] at placed
    exact inv.producer rfl rfl rfl id (.inl placed)
  | wakeProducer => exact inv.producer rfl rfl rfl id (inv.placed _).wake
  | signal pc => exact inv.producer rfl rfl rfl ConsumerPc.notify_wake trivial
  | push | acquire | release | outOfMemory => exact inv.producer rfl rfl rfl id trivial
  | swap pc =>
    exact ⟨inv.con, inv.pro, fun i => ProducerPc.placed_swapped _ (outside_of_consumer exclusive (by rw [pc]; rfl) i)⟩
  | notifyAll pc =>
    exact inv.keep rfl rfl fun i =>
      ProducerPc.placed_notified _ _ (outside_of_consumer exclusive (by rw [pc]; rfl) i)
  | skip pc other => exact absurd rfl other
  | reset pc =>
    refine ⟨inv.pro, inv.con.reset, fun i => (inv.placed i).consumer ?_⟩
    rw [pc]
    exact fun other => absurd other (by decide)
  | lock pc | relock pc | exit pc | goOn pc | ready pc | nothing pc | rest pc | unlock pc | callback pc =>
    exact inv.consumer rfl rfl rfl (by rw [pc]; exact fun other => absurd other (by decide))
  | wakeConsumer | stopNotify => exact inv.consumer rfl rfl rfl ConsumerPc.notify_wake
  | stop | joined => exact inv.consumer rfl rfl rfl id

theorem fixed_of_reachable (reached : (machine ι .asyncSafe).Reachable s) : s.Fixed := by
  have both : s.Fixed ∧ Exclusive s.mutex s.inside := by
    refine reached.invariant ?_ ?_
    · exact ⟨⟨Buffer.original_new, Buffer.original_new, fun _ => trivial⟩, exclusive_of_reachable .init⟩
    · intro s a s' inv _ taken
      exact ⟨fixed_step inv.1 inv.2 taken, exclusive_step inv.2 taken⟩
  exact both.1

/-! ## Who waits for nothing -/

/-- A producer waits with `m` while both buffers are empty and the consumer is asleep. -/
structure Blocked (s : Looper ι) (i : ι) (m : Msg) : Prop where
  producer : s.producers i = .asleep m
  pro : s.proBuf.empty = true
  con : s.conBuf.empty = true
  consumer : s.consumer = .asleep

/-- The looper after the first message, `m`, did not fit and the consumer found nothing. -/
def stalled (i : ι) (m : Msg) : Looper ι :=
  { (new : Looper ι).setProducer i (.asleep m) with consumer := .asleep }

theorem reachable_stalled (i : ι) {m : Msg} (long : DEFAULT_BUFFER_SIZE < m.1.length) :
    (machine ι .asyncSafe).Reachable (stalled i m) := by
  have full : Buffer.new.writeAbleSize < m.1.length := by rwa [Buffer.original_new.drained rfl]
  have run : (machine ι .asyncSafe).exec new [.push i m, .producer i, .producer i, .producer i, .consumer, .consumer,
      .consumer, .consumer] = some (stalled i m) := by
    have empty : Buffer.new.empty = true := rfl
    simp [Machine.exec_cons, machine, step, stepProducer, stepConsumer, setProducer, new, stalled, full, empty]
  exact Machine.Reachable.exec .init run

theorem blocked_iff (i : ι) (m : Msg) :
    (∃ s, (machine ι .asyncSafe).Reachable s ∧ s.Blocked i m) ↔ DEFAULT_BUFFER_SIZE < m.1.length := by
  constructor
  · rintro ⟨s, reached, waiting, pro, -, asleep⟩
    have inv := fixed_of_reachable reached
    have placed := inv.placed i
    rw [waiting] at placed
    rcases placed with full | notify
    · rwa [inv.pro.drained pro] at full
    · rw [asleep] at notify
      cases notify
  · intro long
    exact ⟨stalled i m, reachable_stalled i long, ⟨Function.update_self .., rfl, rfl, rfl⟩⟩

/-- A message longer than the buffer never gets past the test. -/
theorem never_stored (reached : (machine ι .asyncSafe).Reachable s) {i : ι} {m : Msg}
    (long : DEFAULT_BUFFER_SIZE < m.1.length) : s.producers i ≠ .store m := by
  intro stored
  have inv := fixed_of_reachable reached
  have fits := inv.placed i
  rw [stored] at fits
  have room := inv.pro.room_le
  have := fits.trans room
  omega

/-- **A drained buffer admits a message of its size.** In every state reached by a safe looper
in which the producer buffer is empty, the predicate of `push` holds of a length if and only
if that is at most `DEFAULT_BUFFER_SIZE`; and a run leads to a producer that waits with a
message, while both buffers are empty and the consumer is asleep, if and only if the message
is longer. -/
theorem drained_iff (ι : Type) [DecidableEq ι] :
    (∀ s : Looper ι, (machine ι .asyncSafe).Reachable s → s.proBuf.empty = true →
      ∀ len, len ≤ s.proBuf.writeAbleSize ↔ len ≤ DEFAULT_BUFFER_SIZE) ∧
    (∀ i m, (∃ s : Looper ι, (machine ι .asyncSafe).Reachable s ∧ s.Blocked i m) ↔
      DEFAULT_BUFFER_SIZE < m.1.length) := by
  constructor
  · intro s reached empty len
    rw [(fixed_of_reachable reached).pro.drained empty]
  · exact blocked_iff

/-- A message of one byte more than the buffer. -/
def oversized : Msg :=
  ⟨List.replicate (DEFAULT_BUFFER_SIZE + 1) 0, by
    rw [List.length_replicate]
    decide⟩

/-- The first message pushed can wait for ever. -/
theorem oversized_blocked :
    (∃ s : Looper Unit, (machine Unit .asyncSafe).Reachable s ∧ s.proBuf.empty = true ∧
      ¬ oversized.1.length ≤ s.proBuf.writeAbleSize) ∧
    (∃ s : Looper Unit, (machine Unit .asyncSafe).Reachable s ∧ s.Blocked () oversized) := by
  have long : DEFAULT_BUFFER_SIZE < oversized.1.length := by
    show _ < (List.replicate (DEFAULT_BUFFER_SIZE + 1) (0 : UInt8)).length
    rw [List.length_replicate]
    exact Nat.lt_succ_self _
  constructor
  · refine ⟨new, .init, rfl, ?_⟩
    show ¬ _ ≤ Buffer.new.writeAbleSize
    rw [Buffer.original_new.drained rfl]
    exact Nat.not_le_of_lt long
  · exact (blocked_iff () oversized).mpr long

end Looper

end HttpServer.Logs
