import HttpServer.Lib.Rolled
import HttpServer.Logs.FileNames

/-!
# The rolling files hold the stream

`Rolled` is what the sink is for: chunks in groups, one group a file. `Holds` says that the
files opened so far are named by their numbers and hold these groups, the open one with what
its stream keeps back, and `Stores` that the last of them is the open one and `_cur_fsize`
the size of its group. Both need the names not to be taken and fewer files than the counter
has values; under that the sink refines the groups (`stores_refines`), and what holds of the
groups of a list of chunks holds of the files of every run. A name with a NUL in it ends there
for the kernel, so a basename with one makes the sink roll onto its own file.
-/

namespace HttpServer.Logs
open Lib

namespace Rolling

variable (files : Bytes → Option Bytes) (basename : Bytes) (maxFsize : Nat)

/-- None of the files opened was there, and the counter has a value for each. -/
structure Fresh (s : Rolling) : Prop where
  absent : ∀ name ∈ s.disk.opened, files name = none
  counted : s.disk.opened.length ≤ 2 ^ 31

/-- The files opened hold these groups. -/
structure Holds (s : Rolling) (groups : List (List Bytes)) : Prop where
  based : s.sink.basename = basename
  sized : s.sink.maxFsize = maxFsize
  count : s.sink.nameCount = int32 s.disk.opened.length
  named : ∀ (i : Nat) (name : Bytes), s.disk.opened[i]? = some name → ∃ lt, name = fileName basename lt i
  contents : s.disk.opened.map s.written = groups.map fun g => some g.flatten
  others : ∀ name, name ∉ s.disk.opened → s.disk.files name = files name

/-- The last file is open, and its size counted. -/
structure Stores (s : Rolling) (r : Rolled Bytes) : Prop where
  holds : Holds files basename maxFsize s r.groups
  last : s.disk.opened.getLast? = some s.sink.ofs.name
  size : s.sink.curFsize = r.current.flatten.length

variable {files basename maxFsize} {s : Rolling} {r : Rolled Bytes} {groups : List (List Bytes)}

theorem weight_length (group : List Bytes) : Rolled.weight List.length group = group.flatten.length := by
  simp [Rolled.weight]

theorem map_update {name : Bytes} {names : List Bytes} (absent : name ∉ names) (content : Option Bytes) :
    names.map (Function.update files name content) = names.map files := by
  apply List.map_congr_left
  intro other mem
  exact Function.update_of_ne (fun same => absent (by rwa [← same])) _ _

/-- Files with different numbers have different names. -/
theorem Holds.nodup (holds : Holds files basename maxFsize s groups) : s.disk.opened.Nodup := by
  refine List.pairwise_iff_getElem.mpr fun i j hi hj less same => ?_
  obtain ⟨lt, eq⟩ := holds.named i _ (List.getElem?_eq_getElem hi)
  obtain ⟨lt', eq'⟩ := holds.named j _ (List.getElem?_eq_getElem hj)
  rw [eq, eq', fileName_eq_iff] at same
  omega

/-! ## A file is opened -/

theorem openNew_opened (s : Rolling) (lt : LocalTime) :
    (s.openNew lt).disk.opened = s.disk.opened ++ [(s.openNew lt).sink.ofs.name] := by
  simp [openNew, RollBySizeSink.creatNewFile, Disk.openAppend]

theorem int32_count {n : Nat} (room : n < 2 ^ 31) : int32 n = n := int32_of_bounds (by omega) (by omega)

/-- The name of the next file. -/
theorem Holds.next (holds : Holds files basename maxFsize s groups) (clean : 0 ∉ basename)
    (room : s.disk.opened.length < 2 ^ 31) (lt : LocalTime) :
    (s.openNew lt).sink.ofs.name = fileName basename lt s.disk.opened.length := by
  have plain : (0 : UInt8) ∉ fileName basename lt s.disk.opened.length := by
    have stamp : (0 : UInt8) ∉ lt.stamp := fun mem => (digit_facts (lt.stamp_digits _ mem)).2.2.2 rfl
    simp [fileName, decimalInt_natCast, decimal_clean, clean, stamp, ascii]
  simp only [openNew, RollBySizeSink.creatNewFile, holds.based, holds.count, int32_count room]
  exact cStr_eq_self plain

/-- It has a number of its own. -/
theorem Holds.unused (holds : Holds files basename maxFsize s groups) (clean : 0 ∉ basename)
    (room : s.disk.opened.length < 2 ^ 31) (lt : LocalTime) : (s.openNew lt).sink.ofs.name ∉ s.disk.opened := by
  rw [holds.next clean room lt]
  intro mem
  obtain ⟨i, bound, eq⟩ := List.getElem_of_mem mem
  obtain ⟨lt', eq'⟩ := holds.named i _ (List.getElem?_eq_getElem bound)
  rw [eq, fileName_eq_iff] at eq'
  omega

/-- For the files that are not open, what is written is there. -/
theorem map_written {names : List Bytes} (absent : s.sink.ofs.name ∉ names) :
    names.map s.written = names.map s.disk.files := by
  apply List.map_congr_left
  intro name mem
  exact if_neg fun same => absent (by rwa [← same])

/-- And once the stream has passed on everything, for all files. -/
theorem written_of_passed (passed : s.sink.ofs.buffer = []) : s.written = s.disk.files := by
  funext name
  unfold written
  split
  · rw [passed]
    simp
  · rfl

/-- A new file adds an empty group, once the stream has passed on everything. -/
theorem Holds.openNew (holds : Holds files basename maxFsize s groups) (clean : 0 ∉ basename) (lt : LocalTime)
    (passed : s.sink.ofs.buffer = []) (fresh : Fresh files (s.openNew lt)) :
    Holds files basename maxFsize (s.openNew lt) (groups ++ [[]]) := by
  have opened := openNew_opened s lt
  have room : s.disk.opened.length < 2 ^ 31 := by
    have counted := fresh.counted
    rw [opened, List.length_append, List.length_singleton] at counted
    omega
  have name := holds.next clean room lt
  have unused := holds.unused clean room lt
  have absent : s.disk.files (s.openNew lt).sink.ofs.name = none := by
    rw [holds.others _ unused]
    exact fresh.absent _ (by simp [opened])
  have made : (s.openNew lt).disk.files = Function.update s.disk.files (s.openNew lt).sink.ofs.name (some []) := by
    exact if_pos absent
  have empty : (s.openNew lt).written (s.openNew lt).sink.ofs.name = some [] := by
    unfold written
    rw [if_pos rfl, made, Function.update_self]
    rfl
  constructor
  case based => exact holds.based
  case sized => exact holds.sized
  case count =>
    rw [opened, List.length_append, List.length_singleton]
    simp only [Rolling.openNew, RollBySizeSink.creatNewFile, holds.count, int32_count room, Nat.cast_add, Nat.cast_one]
  case named =>
    intro i other at_
    rw [opened] at at_
    rcases lt_or_ge i s.disk.opened.length with before | after
    · rw [List.getElem?_append_left before] at at_
      exact holds.named i other at_
    · rw [List.getElem?_append_right after, List.getElem?_singleton] at at_
      split at at_
      · refine ⟨lt, ?_⟩
        rw [← Option.some.inj at_, name]
        congr 1
        omega
      · cases at_
  case contents =>
    rw [opened, List.map_append, List.map_append, map_written unused, made, map_update unused,
      ← written_of_passed passed, holds.contents, List.map_singleton, empty]
    rfl
  case others =>
    intro other absent
    rw [opened, List.mem_append, List.mem_singleton, not_or] at absent
    rw [made, Function.update_of_ne absent.2]
    exact holds.others other absent.1

/-! ## A chunk is written -/

/-- The open file holds the open group but for what the stream keeps back, the others those
that are closed. -/
theorem Stores.split (stores : Stores files basename maxFsize s r) :
    ∃ before content, s.disk.opened = before ++ [s.sink.ofs.name] ∧ s.sink.ofs.name ∉ before ∧
      before.map s.disk.files = r.closed.map (fun g => some g.flatten) ∧
      s.disk.files s.sink.ofs.name = some content ∧ content ++ s.sink.ofs.buffer = r.current.flatten := by
  obtain ⟨before, split⟩ := List.getLast?_eq_some_iff.mp stores.last
  have nodup := stores.holds.nodup
  rw [split, List.nodup_append] at nodup
  have apart : s.sink.ofs.name ∉ before := fun mem => nodup.2.2 _ mem _ (by simp) rfl
  have contents := stores.holds.contents
  rw [split, Rolled.groups, List.map_append, List.map_append, map_written apart] at contents
  obtain ⟨closed, current⟩ := List.append_inj' contents (by simp)
  have current : s.written s.sink.ofs.name = some r.current.flatten := by simpa using current
  unfold written at current
  rw [if_pos rfl] at current
  obtain ⟨content, found, whole⟩ := Option.map_eq_some_iff.mp current
  exact ⟨before, content, split, apart, closed, found, whole⟩

/-- The sink with other bytes in the open file and in its stream. -/
def reopen (s : Rolling) (content left : Bytes) (size : Nat) : Rolling where
  sink := { s.sink with ofs := ⟨s.sink.ofs.name, left⟩, curFsize := size }
  disk := { s.disk with files := Function.update s.disk.files s.sink.ofs.name (some content) }

theorem reopen_written (s : Rolling) (content left : Bytes) (size : Nat) :
    (s.reopen content left size).written s.sink.ofs.name = some (content ++ left) := by
  simp [written, reopen]

/-- What changes in the open file and its stream changes the last group. -/
theorem Stores.reopen (stores : Stores files basename maxFsize s r) {content left : Bytes} {current : List Bytes}
    (whole : content ++ left = current.flatten) :
    Stores files basename maxFsize (s.reopen content left current.flatten.length) { r with current := current } := by
  obtain ⟨before, _, split, apart, closed, -, -⟩ := stores.split
  obtain ⟨based, sized, count, named, -, others⟩ := stores.holds
  refine ⟨⟨based, sized, count, named, ?_, ?_⟩, stores.last, rfl⟩
  · have open_ := s.reopen_written content left current.flatten.length
    have rest : before.map (s.reopen content left current.flatten.length).written =
        before.map (s.reopen content left current.flatten.length).disk.files := map_written apart
    show s.disk.opened.map _ = _
    rw [split, Rolled.groups, List.map_append, List.map_append, List.map_singleton, List.map_singleton, open_, rest,
      whole]
    show before.map (Function.update s.disk.files s.sink.ofs.name (some content)) ++ _ = _
    rw [map_update apart, closed]
  · intro other absent
    have elsewhere : other ≠ s.sink.ofs.name := by
      rintro rfl
      apply absent
      show s.sink.ofs.name ∈ s.disk.opened
      rw [split]
      exact List.mem_append_right _ (List.mem_singleton_self _)
    exact (Function.update_of_ne elsewhere _ _).trans (others other absent)

/-- What a write does to the open file and its stream. -/
theorem write_cases {data content : Bytes} {passed : Nat} {s' : Rolling} (taken : s.write data passed = some s')
    (found : s.disk.files s.sink.ofs.name = some content) :
    ∃ inFile left, s.sink.ofs.buffer ++ data = inFile ++ left ∧ left.length ≤ BUFSIZ ∧
      left.length ≤ (s.sink.ofs.buffer ++ data).length - passed ∧ content.length + inFile.length < 2 ^ 63 ∧
      s' = s.reopen (content ++ inFile) left s.sink.curFsize := by
  obtain ⟨disk, stored, rfl⟩ := Option.map_eq_some_iff.mp taken
  simp only [Disk.write, found] at stored
  split_ifs at stored with fits
  obtain rfl := Option.some.inj stored
  refine ⟨_, _, (List.take_append_drop _ _).symm, ?_, ?_, fits, rfl⟩
  · rw [List.length_drop]
    omega
  · rw [List.length_drop]
    omega

/-- A chunk goes to the end of the last file, and the others stay as they are. -/
theorem Stores.write (stores : Stores files basename maxFsize s r) {data : Bytes} {passed : Nat} {s' : Rolling}
    (taken : s.write data passed = some s') :
    Stores files basename maxFsize
      { s' with sink := { s'.sink with curFsize := (s'.sink.curFsize + data.length) % 2 ^ 64 } }
      { r with current := r.current ++ [data] } := by
  obtain ⟨_, content, -, -, -, found, whole⟩ := stores.split
  obtain ⟨inFile, left, pending, kept, -, fits, rfl⟩ := write_cases taken found
  have all : content ++ inFile ++ left = (r.current ++ [data]).flatten := by
    rw [List.flatten_append, List.flatten_singleton, ← whole, List.append_assoc, ← pending, List.append_assoc]
  have size : (s.sink.curFsize + data.length) % 2 ^ 64 = (r.current ++ [data]).flatten.length := by
    have lengths := congrArg List.length all
    rw [List.flatten_append, List.flatten_singleton] at lengths ⊢
    simp only [List.length_append] at lengths ⊢
    rw [stores.size]
    unfold BUFSIZ at kept
    exact Nat.mod_eq_of_lt (by omega)
  have stored := stores.reopen all
  rw [← size] at stored
  exact stored

/-- `close` passes on what the stream has, and nothing else changes. -/
theorem Stores.close (stores : Stores files basename maxFsize s r) {s' : Rolling} (taken : s.close = some s') :
    Stores files basename maxFsize s' r ∧ s'.sink.ofs.buffer = [] ∧ s'.disk.opened = s.disk.opened := by
  obtain ⟨_, content, -, -, -, found, whole⟩ := stores.split
  obtain ⟨inFile, left, pending, -, passed, -, rfl⟩ := write_cases taken found
  rw [List.append_nil, Nat.sub_self, Nat.le_zero, List.length_eq_zero_iff] at passed
  subst passed
  rw [List.append_nil, List.append_nil] at pending
  have all : content ++ inFile ++ [] = r.current.flatten := by rw [List.append_nil, ← pending, whole]
  have stored := stores.reopen all
  rw [← stores.size] at stored
  exact ⟨stored, rfl, rfl⟩

/-! ## Runs -/

theorem stores_new (clean : 0 ∉ basename) (lt : LocalTime) (fresh : Fresh files (new basename maxFsize lt files)) :
    Stores files basename maxFsize (new basename maxFsize lt files) Rolled.new := by
  constructor
  case last =>
    unfold new
    rw [openNew_opened, List.getLast?_concat]
  case size => simp [new, openNew, RollBySizeSink.creatNewFile, Rolled.new]
  case holds =>
    have empty : Holds files basename maxFsize ⟨⟨basename, ⟨[], []⟩, maxFsize, 0, 0⟩, ⟨files, []⟩⟩ [] := by
      constructor <;> simp [int32]
    exact empty.openNew clean lt rfl fresh

/-- The sink rolls when a group is closed. -/
theorem Stores.roll (stores : Stores files basename maxFsize s r) (clean : 0 ∉ basename) {lt : LocalTime}
    {s' : Rolling} (taken : s.roll lt = some s') (fresh : Fresh files s') :
    Stores files basename maxFsize s'
      (if maxFsize ≤ Rolled.weight List.length r.current then ⟨r.groups, []⟩ else r) := by
  have same : s.sink.maxFsize ≤ s.sink.curFsize ↔ maxFsize ≤ Rolled.weight List.length r.current := by
    rw [stores.holds.sized, stores.size, weight_length]
  unfold Rolling.roll at taken
  simp only [same] at taken
  split_ifs at taken ⊢ with full
  · obtain ⟨closed, shut, rfl⟩ := Option.map_eq_some_iff.mp taken
    obtain ⟨stores, passed, -⟩ := stores.close shut
    have holds := stores.holds.openNew clean lt passed ⟨fresh.absent, fresh.counted⟩
    constructor
    case holds => exact ⟨holds.based, holds.sized, holds.count, holds.named, holds.contents, holds.others⟩
    case last =>
      rw [openNew_opened, List.getLast?_concat]
    case size => simp
  · cases taken
    exact stores

theorem log_cases {s' : Rolling} {call : LogCall} (taken : s.log call = some s') :
    ∃ rolled stored, s.roll call.clock = some rolled ∧ rolled.write call.data call.passed = some stored ∧
      s' = { stored with
        sink := { stored.sink with curFsize := (stored.sink.curFsize + call.data.length) % 2 ^ 64 } } := by
  obtain ⟨rolled, first, taken⟩ := Option.bind_eq_some_iff.mp taken
  obtain ⟨stored, written, eq⟩ := Option.map_eq_some_iff.mp taken
  exact ⟨rolled, stored, first, written, eq.symm⟩

theorem write_opened {data : Bytes} {passed : Nat} {s' : Rolling} (taken : s.write data passed = some s') :
    s'.disk.opened = s.disk.opened := by
  obtain ⟨disk, stored, rfl⟩ := Option.map_eq_some_iff.mp taken
  unfold Disk.write at stored
  split at stored
  · split_ifs at stored
    cases stored
    simp only
  · cases stored

/-- What is fresh after a call was fresh before. -/
theorem Fresh.of_roll {lt : LocalTime} {s' : Rolling} (taken : s.roll lt = some s') (fresh : Fresh files s') :
    Fresh files s := by
  unfold Rolling.roll at taken
  split_ifs at taken
  · obtain ⟨closed, shut, rfl⟩ := Option.map_eq_some_iff.mp taken
    have opened : (closed.openNew lt).disk.opened = _ := openNew_opened closed lt
    rw [write_opened shut] at opened
    obtain ⟨absent, counted⟩ := fresh
    simp only [opened] at absent counted
    rw [List.length_append] at counted
    exact ⟨fun name mem => absent name (List.mem_append_left _ mem), by omega⟩
  · cases taken
    exact fresh

/-- The sink refines the groups, as long as its names are fresh. -/
theorem stores_refines (clean : 0 ∉ basename) (lt : LocalTime) :
    (machine basename maxFsize lt files).Refines (Rolled.machine List.length maxFsize) LogCall.data
      (fun _ _ => True) (fun s r => Fresh files s → Stores files basename maxFsize s r) := by
  constructor
  case init => exact stores_new clean lt
  case step =>
    intro s r call s' related _ taken
    refine ⟨_, rfl, fun fresh => ?_⟩
    obtain ⟨rolled, stored, first, written, rfl⟩ := log_cases taken
    have freshRolled : Fresh files rolled := by
      obtain ⟨absent, counted⟩ := fresh
      simp only [write_opened written] at absent counted
      exact ⟨absent, counted⟩
    have stores := ((related (freshRolled.of_roll first)).roll clean first freshRolled).write written
    unfold Rolled.put
    split_ifs at stores ⊢ with full
    · exact stores
    · exact stores

/-- The files of every run whose names are fresh are distinct and the last one is open. Its size
and the bytes that its stream keeps back are counted. With these the files hold the chunks in
groups: every file but the last is full, and none has more than the longest chunk beyond that. -/
theorem rolling_partitions (basename : Bytes) (maxFsize : Nat) (lt : LocalTime) (files : Bytes → Option Bytes)
    (clean : 0 ∉ basename) {calls : List LogCall} {s : Rolling}
    (run : (machine basename maxFsize lt files).RunIf (fun _ _ => True) calls s)
    (absent : ∀ name ∈ s.disk.opened, files name = none) (rolls : s.disk.opened.length ≤ 2 ^ 31) :
    s.disk.opened.Nodup ∧
    ∃ (before : List Bytes) (content : Bytes) (groups : List (List Bytes)) (last : List Bytes),
      s.disk.opened = before ++ [s.sink.ofs.name] ∧ (groups ++ [last]).flatten = calls.map LogCall.data ∧
      before.map s.disk.files = groups.map (fun g => some g.flatten) ∧
      s.disk.files s.sink.ofs.name = some content ∧ content ++ s.sink.ofs.buffer = last.flatten ∧
      s.sink.curFsize = content.length + s.sink.ofs.buffer.length ∧
      (∀ g ∈ groups, maxFsize ≤ g.flatten.length) ∧
      ∀ longest, (∀ call ∈ calls, call.data.length ≤ longest) →
        ∀ g ∈ groups ++ [last], g.flatten.length ≤ maxFsize + longest := by
  obtain ⟨r, ran, related⟩ := (stores_refines clean lt).run run
  have stores := related ⟨absent, rolls⟩
  obtain ⟨all, full, bounded⟩ := Rolled.partitions_of_exec ran
  obtain ⟨before, content, split, -, closed, found, whole⟩ := stores.split
  refine ⟨stores.holds.nodup, before, content, r.closed, r.current, split, all, closed, found, whole, ?_, ?_, ?_⟩
  · rw [stores.size, ← whole, List.length_append]
  · intro g mem
    rw [← weight_length]
    exact full g mem
  · intro longest most g mem
    rw [← weight_length]
    refine bounded longest ?_ g mem
    intro data made
    obtain ⟨call, called, rfl⟩ := List.mem_map.mp made
    exact most call called

/-- Two chunks in one second: the first fills its file, so the second has one of its own, and the
stream keeps one byte of it back. -/
theorem rolling_partitions_two : ∃ s,
    (machine (ascii "log-") 4 elevenJanuary fun _ => none).RunIf (fun _ _ => True)
      [⟨ascii "abcde", elevenJanuary, 3⟩, ⟨ascii "fg", elevenJanuary, 1⟩] s ∧
    s.disk.opened.map s.disk.files = [some (ascii "abcde"), some (ascii "f")] ∧ s.sink.ofs.buffer = ascii "g" ∧
    s.sink.curFsize = 2 ∧ s.disk.opened.Nodup := by
  have run : (machine (ascii "log-") 4 elevenJanuary fun _ => none).RunIf (fun _ _ => True)
      [⟨ascii "abcde", elevenJanuary, 3⟩, ⟨ascii "fg", elevenJanuary, 1⟩] _ := .of_exec (fun _ _ => trivial) rfl
  exact ⟨_, run, by decide, by decide, by decide, (rolling_partitions (ascii "log-") 4 elevenJanuary (fun _ => none)
    (by decide) run (fun _ _ => rfl) (by decide)).1⟩

/-- After the first three bytes logged `_cur_fsize` is three, and the open file may still be
empty. With a NUL in the basename the second file is the first one again, and only what was
written last is counted. -/
theorem rolling_not_partitions :
    (∃ s, (machine (ascii "log-") 4 elevenJanuary fun _ => none).RunIf (fun _ _ => True)
        [⟨ascii "abc", elevenJanuary, 0⟩] s ∧
      s.disk.files s.sink.ofs.name = some [] ∧ s.sink.curFsize = 3) ∧
    ∃ s, (machine [97, 0, 98] 1 elevenJanuary fun _ => none).RunIf (fun _ _ => True)
        [⟨ascii "x", elevenJanuary, 1⟩, ⟨ascii "y", elevenJanuary, 1⟩] s ∧
      s.disk.opened = [ascii "a", ascii "a"] ∧
      s.disk.files s.sink.ofs.name = some (ascii "xy") ∧ s.sink.ofs.buffer = [] ∧ s.sink.curFsize = 1 := by
  constructor
  · exact ⟨_, .of_exec (fun _ _ => trivial) rfl, by decide, by decide⟩
  · exact ⟨_, .of_exec (fun _ _ => trivial) rfl, by decide, by decide, by decide, by decide⟩

end Rolling

end HttpServer.Logs
