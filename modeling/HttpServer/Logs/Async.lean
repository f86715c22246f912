import HttpServer.Logs.Delivery
import HttpServer.Logs.RollingFiles

/-!
# An asynchronous logger on rolling files

`AsyncLogger` with a `RollBySizeSink`: what the looper hands to `reallog` is written by the sink
in the same step. The two invariants, of the looper and of the sink, meet in the buffers handed
over: the files, and the stream of the last one, hold the messages in the order of the pushes,
no message is torn between two files, and when the consumer has exited nothing is missing;
once the sink's stream is closed all of it is in the files (`async_files`).
-/

namespace HttpServer.Logs
open Lib

/-- Chunks that are images are the images of chunks. -/
theorem chunks_of_map {α β : Type*} {f : α → β} {chunks : List (List β)} {items : List α}
    (all : chunks.flatten = items.map f) :
    ∃ parts : List (List α), parts.flatten = items ∧ chunks = parts.map (List.map f) := by
  induction chunks generalizing items with
  | nil => exact ⟨[], by simpa using all, rfl⟩
  | cons chunk chunks ih =>
    obtain ⟨first, rest, rfl, rfl, left⟩ := List.append_eq_map_iff.mp all
    obtain ⟨parts, rfl, rfl⟩ := ih left.symm
    exact ⟨first :: parts, rfl, rfl⟩

/-- All the bytes in the files, in the order in which they were opened. -/
def Disk.stream (d : Disk) : Bytes := (d.opened.map fun name => (d.files name).getD []).flatten

/-- All the bytes written, those that the stream keeps back among them. -/
def Rolling.stream (s : Rolling) : Bytes := (s.disk.opened.map fun name => (s.written name).getD []).flatten

/-- The looper and the sink its callback writes to. -/
structure AsyncLogging (ι : Type) where
  looper : Looper ι
  rolling : Rolling

/-- What the looper does next, with the local time at which the sink rolls if it does, and how
many bytes its stream passes on. -/
structure AsyncAction (ι : Type) where
  action : LooperAction ι
  clock : LocalTime
  passed : Nat

namespace AsyncLogging
variable {ι : Type} [DecidableEq ι]

/-- A step of the looper; its callback is `reallog`. -/
def step (type : AsyncType) (s : AsyncLogging ι) (a : AsyncAction ι) : Option (AsyncLogging ι) :=
  (s.looper.step type a.action).bind fun looper =>
    if a.action = .consumer ∧ s.looper.consumer = .callback then
      (s.rolling.log ⟨s.looper.conBuf.readable, a.clock, a.passed⟩).map fun rolling => ⟨looper, rolling⟩
    else some ⟨looper, s.rolling⟩

/-- The logger as a machine, on a disk with these files. -/
def machine (ι : Type) [DecidableEq ι] (type : AsyncType) (basename : Bytes) (maxFsize : Nat) (lt : LocalTime)
    (files : Bytes → Option Bytes) : Machine (AsyncLogging ι) (AsyncAction ι) :=
  ⟨⟨.new, .new basename maxFsize lt files⟩, step type⟩

variable {type : AsyncType} {basename : Bytes} {maxFsize : Nat} {lt : LocalTime} {files : Bytes → Option Bytes}
  {s s' : AsyncLogging ι}

/-- The sink has been called with what the looper has handed over. -/
structure Linked (type : AsyncType) (basename : Bytes) (maxFsize : Nat) (lt : LocalTime) (files : Bytes → Option Bytes)
    (s : AsyncLogging ι) : Prop where
  looper : (Looper.machine ι type).Reachable s.looper
  sink : ∃ calls, (Rolling.machine basename maxFsize lt files).RunIf (fun _ _ => True) calls s.rolling ∧
    calls.map LogCall.data = s.looper.handed

/-- Only the callback hands anything over. -/
theorem handed_step {s s' : Looper ι} {a : LooperAction ι} (taken : s.step type a = some s') :
    s'.handed = if a = .consumer ∧ s.consumer = .callback then s.handed ++ [s.conBuf.readable] else s.handed := by
  cases Looper.transition_of_step taken with
  | callback pc => rw [if_pos ⟨rfl, pc⟩]
  | lock pc | relock pc | exit pc | goOn pc | ready pc | nothing pc | rest pc | swap pc | notifyAll pc | skip pc
  | unlock pc | reset pc => simp [pc]
  | push | acquire | full | fits | doze | store | signal | release | outOfMemory | wakeProducer | wakeConsumer | stop
  | stopNotify | joined => simp [Looper.setProducer]

theorem linked_step {a : AsyncAction ι} (inv : Linked type basename maxFsize lt files s)
    (taken : s.step type a = some s') : Linked type basename maxFsize lt files s' := by
  obtain ⟨calls, run, data⟩ := inv.sink
  obtain ⟨looper, moved, taken⟩ := Option.bind_eq_some_iff.mp taken
  have handed := handed_step moved
  have reached : (Looper.machine ι type).Reachable looper := .step (a := a.action) inv.looper trivial moved
  split at taken
  · rename_i callback
    obtain ⟨rolling, written, rfl⟩ := Option.map_eq_some_iff.mp taken
    have put : (Rolling.machine basename maxFsize lt files).step s.rolling
        ⟨s.looper.conBuf.readable, a.clock, a.passed⟩ =
        some rolling := written
    rw [if_pos callback] at handed
    have all : (calls ++ [LogCall.mk s.looper.conBuf.readable a.clock a.passed]).map LogCall.data = looper.handed := by
      rw [List.map_append, data, handed, List.map_singleton]
    constructor
    case looper => exact reached
    case sink => exact ⟨_, run.step trivial put, all⟩
  · rename_i other
    cases taken
    rw [if_neg other] at handed
    exact ⟨reached, calls, run, data.trans handed.symm⟩

theorem linked_of_reachable (reached : (machine ι type basename maxFsize lt files).Reachable s) :
    Linked type basename maxFsize lt files s := by
  refine reached.invariant ?_ ?_
  · exact ⟨.init, [], .init, rfl⟩
  · intro s a s' inv _ taken
    exact linked_step inv taken

/-- What the groups hold, the files and the stream hold. -/
theorem stream_of_contents {rolling : Rolling} {groups : List (List Bytes)}
    (contents : rolling.disk.opened.map rolling.written = groups.map fun g => some g.flatten) :
    rolling.stream = groups.flatten.flatten := by
  have texts : (rolling.disk.opened.map fun name => (rolling.written name).getD []) = groups.map List.flatten := by
    have read := congrArg (List.map fun content => Option.getD content []) contents
    simpa [List.map_map, Function.comp_def] using read
  rw [Rolling.stream, texts, List.flatten_flatten]

/-- A stream that keeps nothing back has written all that it was given. -/
theorem stream_of_passed {rolling : Rolling} (passed : rolling.sink.ofs.buffer = []) :
    rolling.disk.stream = rolling.stream := by
  unfold Rolling.stream Disk.stream
  rw [Rolling.written_of_passed passed]

/-- **The files hold the log.** In every state that an asynchronous logger on a rolling sink
reaches, with either type of looper and any number of producers, as long as no file opened was
there before: the messages pushed are those written to the files, file by file in the order of
opening and each message wholly in one file, and then those that are still in the looper; once
the consumer has exited, what is written are the bytes of every message pushed before its exit
check, among them all that were pushed before `stop`; and closing the stream leaves all of it in
the files. -/
theorem async_files (clean : 0 ∉ basename) (reached : (machine ι type basename maxFsize lt files).Reachable s)
    (absent : ∀ name ∈ s.rolling.disk.opened, files name = none) (rolls : s.rolling.disk.opened.length ≤ 2 ^ 31) :
    (∃ (perFile : List (List Msg)) (inLooper : List Msg), perFile.flatten ++ inLooper = s.looper.pushed ∧
      s.rolling.disk.opened.map s.rolling.written = perFile.map (fun messages => some (bytes messages))) ∧
    (s.looper.consumer = .exited → ∃ before atExit, s.looper.beforeStop = some before ∧
      s.looper.atExit = some atExit ∧ before <+: atExit ∧ s.rolling.stream = bytes atExit ∧
      ∀ closed, s.rolling.close = some closed → closed.disk.stream = bytes atExit) := by
  obtain ⟨looper, calls, run, data⟩ := linked_of_reachable reached
  have delivering := Looper.delivering_of_reachable looper
  obtain ⟨b, sim⟩ := delivering.simulates
  -- the files hold the groups in which the sink has stored what it was handed
  obtain ⟨rolled, ran, related⟩ := (Rolling.stores_refines clean lt).run run
  have stores := related ⟨absent, rolls⟩
  have contents := stores.holds.contents
  have chunks : rolled.groups.flatten = s.looper.handed := (Rolled.partitions_of_exec ran).1.trans data
  constructor
  · obtain ⟨parts, flat, groups⟩ := chunks_of_map (chunks.trans sim.finished)
    refine ⟨parts.map List.flatten, b.current ++ b.pending, ?_, ?_⟩
    · rw [← sim.all, Batches.all, ← flat, List.append_assoc, ← List.flatten_flatten]
    · rw [contents, groups, List.map_map, List.map_map]
      apply List.map_congr_left
      intro part _
      simp only [Function.comp_apply, bytes_flatten]
  · intro done
    obtain ⟨atExit, b, complete⟩ := (delivering.exited (by rw [done]; rfl)).2
    obtain ⟨before, stopped, early⟩ := complete.stopped
    have rest : bytes b.pending = [] := by
      unfold bytes
      rw [List.flatten_eq_nil_iff]
      intro text mem
      obtain ⟨m, pending, rfl⟩ := List.mem_map.mp mem
      exact complete.pending m pending
    have all : rolled.groups.flatten.flatten = bytes atExit := by
      rw [chunks, complete.finished, ← complete.all, Batches.all, complete.current, List.append_nil, bytes_append,
        rest, List.append_nil, bytes_flatten]
    refine ⟨before, atExit, stopped, complete.exit, early, (stream_of_contents contents).trans all, ?_⟩
    intro closed shut
    obtain ⟨stores, passed, -⟩ := stores.close shut
    rw [stream_of_passed passed, stream_of_contents stores.holds.contents, all]

/-- What has been handed over stays so. -/
theorem handed_exec {as : List (LooperAction ι)} {l l' : Looper ι} (run : (Looper.machine ι type).exec l as = some l') :
    l.handed <+: l'.handed := by
  induction as generalizing l with
  | nil =>
    cases run
    exact List.prefix_refl _
  | cons a rest ih =>
    obtain ⟨t, moved, run⟩ := Option.bind_eq_some_iff.mp run
    refine List.IsPrefix.trans ?_ (ih run)
    rw [handed_step moved]
    split
    · exact List.prefix_append _ _
    · exact List.prefix_refl _

/-- A run of the looper without a callback leaves the sink alone. -/
theorem exec_looper {as : List (LooperAction ι)} {l : Looper ι} (clock : LocalTime)
    (run : (Looper.machine ι type).exec s.looper as = some l) (same : l.handed = s.looper.handed) :
    (machine ι type basename maxFsize lt files).exec s (as.map fun a => ⟨a, clock, 0⟩) = some ⟨l, s.rolling⟩ := by
  induction as generalizing s with
  | nil =>
    cases run
    rfl
  | cons a rest ih =>
    obtain ⟨t, moved, run⟩ := Option.bind_eq_some_iff.mp run
    have handed := handed_step moved
    have later : t.handed <+: l.handed := handed_exec run
    by_cases callback : a = .consumer ∧ s.looper.consumer = .callback
    · -- it would have handed something over
      rw [if_pos callback] at handed
      have longer := later.length_le
      rw [same, handed, List.length_append, List.length_singleton] at longer
      omega
    · rw [if_neg callback] at handed
      have taken : (machine ι type basename maxFsize lt files).step s ⟨a, clock, 0⟩ = some ⟨t, s.rolling⟩ := by
        show (s.looper.step type a).bind _ = _
        rw [show s.looper.step type a = some t from moved, Option.bind_some, if_neg callback]
      rw [List.map_cons, Machine.exec_cons, taken]
      exact ih run (same.trans handed.symm)

theorem exec_callback {clock : LocalTime} {passed : Nat} {current pending : Bytes} {rolling : Rolling}
    (calling : s.looper.Calling current pending) (written : s.rolling.log ⟨current, clock, passed⟩ = some rolling) :
    (machine ι type basename maxFsize lt files).exec s [⟨.consumer, clock, passed⟩] =
      some ⟨s.looper.called, rolling⟩ := by
  simp [Machine.exec_cons, machine, step, Looper.step, Looper.stepConsumer, calling.pc, calling.con.2, written,
    Looper.called]

/-- Three messages in two rounds, and so in two files; the stream keeps the last byte back until
it is closed. -/
theorem async_files_twoRounds :
    ∃ s, (machine Bool .asyncSafe (ascii "log-") 4 elevenJanuary fun _ => none).Reachable s ∧
      s.rolling.disk.opened.map s.rolling.disk.files = [some (ascii "hihi"), some (ascii "h")] ∧
      ∃ before atExit, s.looper.beforeStop = some before ∧ s.looper.atExit = some atExit ∧ before <+: atExit ∧
        bytes atExit = ascii "hihihi" ∧ s.rolling.stream = bytes atExit ∧
        ∀ closed, s.rolling.close = some closed → closed.disk.stream = bytes atExit := by
  obtain ⟨l₁, ran₁, calling₁, handed₁, pushed₁, stopper⟩ := Looper.exists_calling .asyncSafe true false
    Looper.short Looper.short Looper.short (by decide) (by decide) (by decide)
  obtain ⟨l₂, ran₂, calling₂, handed₂, pushed₂, stop, before⟩ := calling₁.exec_stop .asyncSafe (by decide) stopper
  obtain ⟨l₃, ran₃, exited, handed₃, stopped, atExit⟩ := calling₂.exec_exit .asyncSafe stop
  obtain ⟨r₁, written₁, r₂, written₂, files, opened⟩ : ∃ r₁,
      (Rolling.new (ascii "log-") 4 elevenJanuary fun _ => none).log ⟨ascii "hihi", elevenJanuary, 4⟩ = some r₁ ∧
      ∃ r₂, r₁.log ⟨ascii "hi", elevenJanuary, 1⟩ = some r₂ ∧
        r₂.disk.opened.map r₂.disk.files = [some (ascii "hihi"), some (ascii "h")] ∧ r₂.disk.opened.length = 2 :=
    ⟨_, rfl, _, rfl, by decide, by decide⟩
  have called₁ : l₁.called.handed = [ascii "hihi"] := by
    rw [Looper.called, handed₁, calling₁.con.2]
    rfl
  have called₂ : l₂.called.handed = [ascii "hihi", ascii "hi"] := by
    rw [Looper.called, handed₂, handed₁, calling₂.con.2]
    rfl
  have reached := Machine.Reachable.exec (M := machine Bool .asyncSafe (ascii "log-") 4 elevenJanuary fun _ => none) .init
    (exec_looper elevenJanuary ran₁ handed₁)
  have reached := reached.exec (exec_callback calling₁ written₁)
  have reached := reached.exec (exec_looper elevenJanuary ran₂ (by rw [handed₂, handed₁, called₁]; rfl))
  have reached := reached.exec (exec_callback calling₂ written₂)
  have reached := reached.exec (exec_looper elevenJanuary ran₃ (by rw [handed₃, handed₂, handed₁, called₂]; rfl))
  obtain ⟨before', atExit', eq, eq', early, stream, closed⟩ :=
    (async_files (by decide) reached (fun _ _ => rfl) (by rw [opened]; decide)).2 exited
  refine ⟨_, reached, files, before', atExit', eq, eq', early, ?_, stream, closed⟩
  obtain rfl := Option.some.inj (atExit.symm.trans eq')
  rw [pushed₂, pushed₁]
  decide

end AsyncLogging

end HttpServer.Logs
