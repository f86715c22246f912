import HttpServer.Logs.Delivery
import HttpServer.Logs.Drained

/-!
# A safe looper is bounded

What the safe mode is for: the buffers keep the size they were made with. A producer at its
copy has a message that fits (`Fixed.placed`: the test was made under the mutex, and nobody
else has filled the buffer since), so `push` does not grow the buffer, cannot fail, and stores
the whole message.
-/

namespace HttpServer.Logs.Looper
open Lib

variable {ι : Type} [DecidableEq ι] {s : Looper ι}

/-- A producer at its copy stores its message in the memory there is. -/
theorem Fixed.stores {i : ι} {m : Msg} (inv : s.Fixed) (pc : s.producers i = .store m) :
    s.proBuf.ensureEnoughSize m.1.length = .ok s.proBuf ∧
    s.step .asyncSafe (.outOfMemory i) = none ∧
    ∃ s', s.step .asyncSafe (.producer i) = some s' ∧ s'.pushed = s.pushed ++ [m] ∧
      s'.proBuf.readable = s.proBuf.readable ++ m.1 ∧ s'.proBuf.buffer.length = s.proBuf.buffer.length := by
  have fits := inv.placed i
  rw [pc] at fits
  obtain ⟨b, pushed, -, readable, size, -⟩ := Buffer.push_fits inv.pro.wf fits
  refine ⟨if_pos fits, ?_, { s with proBuf := b, pushed := s.pushed ++ [m] }.setProducer i .notify, ?_, rfl, ?_, ?_⟩
  · simp only [step, stepOutOfMemory, pc]
    exact if_neg (Nat.not_lt_of_le fits)
  · simp only [step, stepProducer, pc, pushed]
  · exact readable
  · exact size

/-- **A safe looper is bounded.** In every state reached, both buffers have their initial size; a
producer that is let through to its copy does not make the buffer grow, and the copy stores
the whole message; and what was stored is handed over, in hand, or still in the buffer. -/
theorem safe_bounded (reached : (machine ι .asyncSafe).Reachable s) :
    s.proBuf.buffer.length = DEFAULT_BUFFER_SIZE ∧ s.conBuf.buffer.length = DEFAULT_BUFFER_SIZE ∧
    (∀ i m, s.producers i = .store m →
      s.proBuf.ensureEnoughSize m.1.length = .ok s.proBuf ∧
      s.step .asyncSafe (.outOfMemory i) = none ∧
      ∃ s', s.step .asyncSafe (.producer i) = some s' ∧ s'.pushed = s.pushed ++ [m] ∧
        s'.proBuf.readable = s.proBuf.readable ++ m.1 ∧ s'.proBuf.buffer.length = s.proBuf.buffer.length) ∧
    s.handed.flatten ++ s.inHand ++ s.proBuf.readable = bytes s.pushed := by
  have inv := fixed_of_reachable reached
  obtain ⟨b, sim⟩ := (delivering_of_reachable reached).simulates
  exact ⟨inv.pro.size, inv.con.size, fun i m pc => inv.stores pc, sim.bytes_eq⟩

/-- The looper when its first producer is about to copy. -/
def storing (i : ι) (m : Msg) : Looper ι :=
  { (new : Looper ι).setProducer i (.store m) with mutex := some (.producer i) }

theorem reachable_storing (i : ι) {m : Msg} (fits : m.1.length ≤ Buffer.new.writeAbleSize) :
    (machine ι .asyncSafe).Reachable (storing i m) := by
  have run : (machine ι .asyncSafe).exec new [.push i m, .producer i, .producer i] = some (storing i m) := by
    simp [Machine.exec_cons, machine, step, stepProducer, setProducer, new, storing, Nat.not_lt_of_le fits]
  exact Machine.Reachable.exec .init run

theorem safe_bounded_storing :
    (storing () short).producers () = .store short ∧
    (storing () short).proBuf.buffer.length = DEFAULT_BUFFER_SIZE ∧
    (storing () short).conBuf.buffer.length = DEFAULT_BUFFER_SIZE ∧
    (∀ i m, (storing () short).producers i = .store m →
      (storing () short).proBuf.ensureEnoughSize m.1.length = .ok (storing () short).proBuf ∧
      (storing () short).step .asyncSafe (.outOfMemory i) = none ∧
      ∃ s', (storing () short).step .asyncSafe (.producer i) = some s' ∧
        s'.pushed = (storing () short).pushed ++ [m] ∧
        s'.proBuf.readable = (storing () short).proBuf.readable ++ m.1 ∧
        s'.proBuf.buffer.length = (storing () short).proBuf.buffer.length) ∧
    (storing () short).handed.flatten ++ (storing () short).inHand ++ (storing () short).proBuf.readable =
      bytes (storing () short).pushed := by
  have fits : short.1.length ≤ Buffer.new.writeAbleSize := by
    rw [Buffer.room_new]
    decide
  exact ⟨by simp [storing, setProducer], safe_bounded (reachable_storing () fits)⟩

end HttpServer.Logs.Looper
