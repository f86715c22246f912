import HttpServer.Lib.Ancestors
import HttpServer.Lib.Bytes
import Mathlib.Data.List.Basic

/-!
# The directories of a log file

`utill::file::path` and `creat_dircetory`, which a file sink calls before it opens its file.
The loop cuts the path behind each `/` or `\`, whichever comes next, and makes the directory
of each cut that `stat` does not find. The system gets C strings and knows only `/`. So a cut
behind `\` makes one more directory, and a cut behind `/` is an ancestor of the file, whose
own ancestors were cut before. Those are there when it is made.
-/

namespace HttpServer.Logs
open Lib FileTree

/-! ## The code -/

/-- One of `"/\\"`. -/
def isSeparator (b : UInt8) : Bool := b == 47 || b == 92

/-- `s.find_first_of("/\\", idx)`. -/
def findFirstOf (s : Bytes) (idx : Nat) : Option Nat := ((s.drop idx).findIdx? isSeparator).map (idx + ·)

/-- `s.find_last_of("/\\")`. -/
def findLastOf (s : Bytes) : Option Nat := (s.reverse.findIdx? isSeparator).map (s.length - 1 - ·)

/-- `file::path`: the file's directory, with the separator behind it. -/
def path (name : Bytes) : Bytes :=
  if name = [] then DOT
  else
    match findLastOf name with
    | none => DOT
    | some pos => name.take (pos + 1)

/-- `file::exits`: `stat` finds the name. -/
def exits (t : FileTree) (name : Bytes) : Bool := (t.resolve (cStr name)).isSome

/-- The files, and the `mkdir` calls so far, each with the files it found. -/
structure Making where
  tree : FileTree
  issued : List (Bytes × FileTree)

/-- `mkdir(path.c_str(), 0777)`. -/
def Making.mkdir (m : Making) (path : Bytes) : Making where
  tree := m.tree.mkdir (cStr path)
  issued := m.issued ++ [(cStr path, m.tree)]

/-- The loop of `creat_dircetory`, for at most this many rounds. -/
def creatLoop : Nat → Bytes → Nat → Making → Option Making
  | 0, _, _, _ => none
  | rounds + 1, path, idx, m =>
    if idx < path.length then
      match findFirstOf path idx with
      | none => some (m.mkdir path)
      | some pos =>
        let parent_dir := path.take (pos + 1)
        let idx := pos + 1
        if exits m.tree parent_dir then creatLoop rounds path idx m
        else creatLoop rounds path idx (m.mkdir parent_dir)
    else some m

/-- `file::creat_dircetory`; `idx` grows with each round, so there are no more than this. -/
def creat_dircetory (t : FileTree) (path : Bytes) : Option Making := creatLoop (path.length + 1) path 0 ⟨t, []⟩

/-! ## Cuts -/

theorem findFirstOf_some {s : Bytes} {idx pos : Nat} (found : findFirstOf s idx = some pos) :
    idx ≤ pos ∧ pos < s.length ∧ ∀ j b, idx ≤ j → j < pos → s[j]? = some b → isSeparator b = false := by
  obtain ⟨k, first, rfl⟩ := Option.map_eq_some_iff.mp found
  obtain ⟨low, -, before⟩ := List.findIdx?_eq_some_iff_getElem.mp first
  rw [List.length_drop] at low
  refine ⟨by omega, by omega, ?_⟩
  intro j b lower upper at_j
  obtain ⟨within, rfl⟩ := List.getElem?_eq_some_iff.mp at_j
  have same := before (j - idx) (by omega)
  have shift : idx + (j - idx) = j := by omega
  simp only [List.getElem_drop, shift] at same
  simpa using same

theorem findFirstOf_none {s : Bytes} {idx j : Nat} {b : UInt8} (missed : findFirstOf s idx = none) (late : idx ≤ j)
    (at_j : s[j]? = some b) : isSeparator b = false := by
  rw [findFirstOf, Option.map_eq_none_iff, List.findIdx?_eq_none_iff] at missed
  apply missed b
  rw [List.mem_iff_getElem?]
  refine ⟨j - idx, ?_⟩
  have shift : idx + (j - idx) = j := by omega
  rw [List.getElem?_drop, shift, at_j]

/-- The last separator of a name: what is behind it has none. -/
theorem findLastOf_some {s : Bytes} {pos : Nat} (found : findLastOf s = some pos) :
    pos < s.length ∧ ∀ b ∈ s.drop (pos + 1), isSeparator b = false := by
  obtain ⟨k, first, rfl⟩ := Option.map_eq_some_iff.mp found
  obtain ⟨low, -, before⟩ := List.findIdx?_eq_some_iff_getElem.mp first
  rw [List.length_reverse] at low
  refine ⟨by omega, ?_⟩
  intro b behind
  obtain ⟨j, at_j⟩ := List.mem_iff_getElem?.mp behind
  rw [List.getElem?_drop] at at_j
  obtain ⟨within, rfl⟩ := List.getElem?_eq_some_iff.mp at_j
  have same := before (s.length - 1 - (s.length - 1 - k + 1 + j)) (by omega)
  rw [List.getElem_reverse] at same
  have shift : s.length - 1 - (s.length - 1 - (s.length - 1 - k + 1 + j)) = s.length - 1 - k + 1 + j := by omega
  simp only [shift] at same
  simpa using same

theorem path_cases (name : Bytes) :
    (path name = DOT ∧ ∀ b ∈ name, isSeparator b = false) ∨
      ∃ rest, name = path name ++ rest ∧ ∀ b ∈ rest, isSeparator b = false := by
  unfold path
  split_ifs with empty
  · exact .inl ⟨rfl, by simp [empty]⟩
  · cases found : findLastOf name with
    | none =>
      refine .inl ⟨rfl, ?_⟩
      rw [findLastOf, Option.map_eq_none_iff, List.findIdx?_eq_none_iff] at found
      simpa using found
    | some pos => exact .inr ⟨name.drop (pos + 1), (List.take_append_drop ..).symm, (findLastOf_some found).2⟩

/-! ## Ancestors and cuts -/

/-- The ancestors that the system sees are those without a null byte. -/
theorem ancestor_cStr {s a : Bytes} : Ancestor (cStr s) a ↔ Ancestor s a ∧ 0 ∉ a := by
  constructor
  · rintro ⟨begins, slash⟩
    refine ⟨⟨begins.trans (List.takeWhile_prefix _), slash⟩, fun nul => ?_⟩
    have kept := List.mem_takeWhile_imp (begins.subset nul)
    simp at kept
  · rintro ⟨⟨⟨rest, rfl⟩, slash⟩, clean⟩
    exact ⟨⟨cStr rest, (cStr_append_of_no_nul clean rest).symm⟩, slash⟩

/-- `path` keeps the ancestors of a name. -/
theorem ancestor_path {name a : Bytes} : Ancestor (path name) a ↔ Ancestor name a := by
  have slashSeparates : isSeparator SLASH = true := by decide
  obtain ⟨eq, plain⟩ | ⟨rest, eq, plain⟩ := path_cases name
  · constructor
    · rintro ⟨begins, slash⟩
      have only : SLASH ∈ DOT := eq ▸ begins.subset (List.mem_of_getLast? slash)
      exact absurd only (by decide)
    · rintro ⟨begins, slash⟩
      have separates := plain SLASH (begins.subset (List.mem_of_getLast? slash))
      simp [slashSeparates] at separates
  · constructor
    · rintro ⟨begins, slash⟩
      exact ⟨begins.trans ⟨rest, eq.symm⟩, slash⟩
    · rintro ⟨begins, slash⟩
      refine ⟨?_, slash⟩
      by_cases short : a.length ≤ (path name).length
      · exact List.prefix_of_prefix_length_le begins ⟨rest, eq.symm⟩ short
      · -- it would end in the part that has no separator
        obtain ⟨r, rfl⟩ := List.prefix_of_prefix_length_le ⟨rest, eq.symm⟩ begins (by omega)
        have inside : r <+: rest := (List.prefix_append_right_inj (path name)).mp (eq ▸ begins)
        have nonempty : r ≠ [] := fun empty => by simp [empty] at short
        rw [List.getLast?_append_of_ne_nil (path name) nonempty] at slash
        have separates := plain SLASH (inside.subset (List.mem_of_getLast? slash))
        simp [slashSeparates] at separates

/-! ## The loop -/

/-- At `idx` the ancestors up to there are directories; every `mkdir` had a directory to make its own in. -/
structure Settled (t : FileTree) (path : Bytes) (idx : Nat) (m : Making) : Prop where
  made : m.tree = (m.issued.map Prod.fst).foldl FileTree.mkdir t
  above : ∀ a, Ancestor (cStr path) a → a.length ≤ idx → m.tree.IsDir a
  order : ∀ p before, (p, before) ∈ m.issued → p ≠ [] → before.resolve p = none → (before.parentDir p).isSome

section Loop
variable {t : FileTree} {path : Bytes} {idx pos : Nat} {m : Making}

theorem Settled.mkdir (settled : Settled t path idx m) {n : Nat}
    (above : ∀ a, Ancestor (cStr path) a → a.length < n → m.tree.IsDir a) :
    Settled t path idx (m.mkdir (path.take n)) where
  made := by
    simp [Making.mkdir, settled.made]
  above a ancestor low := (mkdir_grown m.tree _).isDir (settled.above a ancestor low)
  order := by
    intro p before issued nonempty missing
    obtain old | new := List.mem_append.mp issued
    · exact settled.order p before old nonempty missing
    · simp only [List.mem_singleton, Prod.mk.injEq] at new
      obtain ⟨rfl, rfl⟩ := new
      apply parentDir_isSome nonempty missing
      intro a ancestor other
      have shorter := ancestor.shorter other
      have cut : (cStr (path.take n)).length ≤ n :=
        (List.takeWhile_prefix _).length_le.trans (List.length_take_le n path)
      obtain ⟨inside, clean⟩ := ancestor_cStr.mp ancestor
      refine above a (ancestor_cStr.mpr ⟨⟨inside.begins.trans (List.take_prefix n path), inside.slash⟩, clean⟩) ?_
      omega

/-- Between two cuts no ancestor ends. -/
theorem Settled.between (settled : Settled t path idx m) (found : findFirstOf path idx = some pos) :
    ∀ a, Ancestor (cStr path) a → a.length < pos + 1 → m.tree.IsDir a := by
  intro a ancestor low
  by_cases early : a.length ≤ idx
  · exact settled.above a ancestor early
  · obtain ⟨nonempty, at_end, -⟩ := (ancestor_cStr.mp ancestor).1.at_slash
    have separates := (findFirstOf_some found).2.2 (a.length - 1) SLASH (by omega) (by omega) at_end
    exact absurd separates (by decide)

/-- One round. The cut is the next ancestor, if it is one. -/
theorem Settled.cut (settled : Settled t path idx m) (clear : Clear t (cStr path))
    (found : findFirstOf path idx = some pos) :
    Settled t path (pos + 1)
      (if exits m.tree (path.take (pos + 1)) then m else m.mkdir (path.take (pos + 1))) := by
  have between := settled.between found
  have last : ∀ a, Ancestor (cStr path) a → a.length = pos + 1 → cStr (path.take (pos + 1)) = a := by
    intro a ancestor length
    obtain ⟨inside, clean⟩ := ancestor_cStr.mp ancestor
    rw [← length, ← inside.at_slash.2.2, cStr_eq_self clean]
  split_ifs with there
  · refine ⟨settled.made, ?_, settled.order⟩
    intro a ancestor low
    by_cases early : a.length < pos + 1
    · exact between a ancestor early
    · have same := last a ancestor (by omega)
      rw [exits, same] at there
      exact isDir_of_resolve ancestor.slash there
  · refine ⟨(settled.mkdir between).made, ?_, (settled.mkdir between).order⟩
    intro a ancestor low
    by_cases early : a.length < pos + 1
    · exact (mkdir_grown m.tree _).isDir (between a ancestor early)
    · have same := last a ancestor (by omega)
      simp only [Making.mkdir, same]
      apply isDir_mkdir_ancestor ancestor.slash
      · rw [settled.made]
        exact clear a ancestor _
      · intro b above other
        have shorter := above.shorter other
        exact between b ⟨above.begins.trans ancestor.begins, above.slash⟩ (by omega)

/-- The loop ends with all ancestors settled; the induction is on the rounds left, each of which
takes `idx` past a cut. -/
theorem creatLoop_settled {rounds : Nat} (within : idx ≤ path.length) (enough : path.length < idx + rounds)
    (settled : Settled t path idx m) (clear : Clear t (cStr path)) :
    ∃ r, creatLoop rounds path idx m = some r ∧ Settled t path path.length r := by
  induction rounds generalizing idx m with
  | zero => omega
  | succ rounds ih =>
    by_cases inside : idx < path.length
    · cases found : findFirstOf path idx with
      | none =>
        have past : ∀ a, Ancestor (cStr path) a → m.tree.IsDir a := by
          intro a ancestor
          by_cases early : a.length ≤ idx
          · exact settled.above a ancestor early
          · obtain ⟨nonempty, at_end, -⟩ := (ancestor_cStr.mp ancestor).1.at_slash
            have separates := findFirstOf_none found (j := a.length - 1) (by omega) at_end
            exact absurd separates (by decide)
        have last := settled.mkdir (n := path.length) fun a ancestor _ => past a ancestor
        rw [List.take_length] at last
        refine ⟨m.mkdir path, by simp [creatLoop, inside, found], last.made, ?_, last.order⟩
        intro a ancestor _
        exact (mkdir_grown m.tree _).isDir (past a ancestor)
      | some pos =>
        obtain ⟨forward, low, -⟩ := findFirstOf_some found
        obtain ⟨r, run, rest⟩ := ih (by omega) (by omega) (settled.cut clear found)
        refine ⟨r, ?_, rest⟩
        rw [← run]
        simp only [creatLoop, if_pos inside, found]
        split_ifs <;> simp
    · refine ⟨m, by simp [creatLoop, inside], settled.made, ?_, settled.order⟩
      intro a ancestor low
      exact settled.above a ancestor (by omega)

end Loop

theorem creat_dircetory_settled {t : FileTree} {path : Bytes} (clear : Clear t (cStr path)) :
    ∃ r, creat_dircetory t path = some r ∧ Settled t path path.length r := by
  refine creatLoop_settled (Nat.zero_le _) (by omega) ⟨rfl, ?_, by simp⟩ clear
  intro a ancestor empty
  have nonempty := ancestor.at_slash.1
  omega

theorem clear_path {t : FileTree} {name : Bytes} (clear : Clear t (cStr name)) : Clear t (cStr (path name)) := by
  intro a ancestor made
  obtain ⟨inside, clean⟩ := ancestor_cStr.mp ancestor
  exact clear a (ancestor_cStr.mpr ⟨ancestor_path.mp inside, clean⟩) made

theorem creat_dircetory_path {t : FileTree} {pathname : Bytes} (clear : Clear t (cStr pathname)) :
    ∃ r, creat_dircetory t (path pathname) = some r ∧ Grown t r.tree ∧
      (∀ a, Ancestor (cStr pathname) a → r.tree.IsDir a) ∧ Settled t (path pathname) (path pathname).length r := by
  obtain ⟨r, run, settled⟩ := creat_dircetory_settled (clear_path clear)
  have grown : Grown t r.tree := by
    rw [settled.made]
    exact foldl_mkdir_grown t _
  refine ⟨r, run, grown, ?_, settled⟩
  intro a ancestor
  obtain ⟨inside, clean⟩ := ancestor_cStr.mp ancestor
  have inside' := ancestor_path.mpr inside
  exact settled.above a (ancestor_cStr.mpr ⟨inside', clean⟩) inside'.begins.length_le

/-- The file that a sink then opens is there, or there is a directory to make it in. -/
theorem creat_dircetory_opens {t : FileTree} {pathname : Bytes} (clear : Clear t (cStr pathname))
    (named : cStr pathname ≠ []) :
    ∃ r, creat_dircetory t (path pathname) = some r ∧
      (r.tree.resolve (cStr pathname) = none → (r.tree.parentDir (cStr pathname)).isSome) := by
  obtain ⟨r, run, -, above, -⟩ := creat_dircetory_path clear
  exact ⟨r, run, fun missing => parentDir_isSome named missing fun a ancestor _ => above a ancestor⟩

/-- Before a log file is opened all its ancestors are directories, and all that was there is as it
was, if no ancestor is something else, however many directories are made. For that it is
enough that none is something else now, and that those which end with `..` are there. -/
theorem creat_dircetory_ancestors (t : FileTree) (pathname : Bytes) :
    (Clear t (cStr pathname) →
      ∃ r, creat_dircetory t (path pathname) = some r ∧
        (∀ a, Ancestor (cStr pathname) a → r.tree.IsDir a) ∧
        Grown t r.tree ∧
        (∀ q i, t.resolve q = some i → r.tree.resolve q = some i) ∧
        ∀ p before, (p, before) ∈ r.issued → p ≠ [] → before.resolve p = none → (before.parentDir p).isSome) ∧
    ((∀ a, Ancestor (cStr pathname) a → ¬ t.NonDirectory a ∧ ((names a).getLast? = some DOTDOT → t.IsDir a)) →
      Clear t (cStr pathname)) := by
  constructor
  · intro clear
    obtain ⟨r, run, grown, above, settled⟩ := creat_dircetory_path clear
    exact ⟨r, run, above, grown, fun q i found => grown.resolve found, settled.order⟩
  · intro settled
    exact clear_of_settled (fun a ancestor => (settled a ancestor).1) fun a ancestor => (settled a ancestor).2

/-- A root directory, where we are too, with an empty file `file` in it. -/
def oneFile : FileTree where
  nodes := [.dir (fun c => if c = ascii "file" then some 1 else none) 0, .file []]
  root := 0
  cwd := 0
  symloopMax := 8
  rootDir := ⟨_, _, rfl⟩
  cwdDir := ⟨_, _, rfl⟩
  closed := by
    intro d entries parent node
    match d, node with
    | 0, node =>
      simp only [List.getElem?_cons_zero, Option.some.injEq, Node.dir.injEq] at node
      obtain ⟨rfl, rfl⟩ := node
      refine ⟨⟨_, _, rfl⟩, ?_⟩
      intro c i found
      beta_reduce at found
      split_ifs at found
      simp only [Option.some.injEq] at found
      simp only [List.length_cons, List.length_nil]
      omega
    | 1, node => simp at node
    | d + 2, node => simp at node

/-- `logs` is missing, and after the call the file can be opened in it. -/
theorem creat_dircetory_ancestors_logs :
    ∃ r, creat_dircetory oneFile (path (ascii "logs/a")) = some r ∧ r.tree.IsDir (ascii "logs/") := by
  have only : ∀ n < 7, ((cStr (ascii "logs/a")).take n).getLast? = some SLASH →
      (cStr (ascii "logs/a")).take n = ascii "logs/" := by
    decide
  obtain ⟨whole, settles⟩ := creat_dircetory_ancestors oneFile (ascii "logs/a")
  have clear : Clear oneFile (cStr (ascii "logs/a")) := by
    apply settles
    intro a ancestor
    obtain ⟨-, -, cut⟩ := ancestor.at_slash
    have short : a.length < 7 := Nat.lt_succ_of_le ancestor.begins.length_le
    have same : a = ascii "logs/" := cut.trans (only a.length short (cut ▸ ancestor.slash))
    rw [same]
    exact ⟨fun other => absurd other.entry (by decide), fun up => absurd up (by decide)⟩
  obtain ⟨r, run, made, -⟩ := whole clear
  exact ⟨r, run, made (ascii "logs/") ⟨by decide, by decide⟩⟩

/-- `new` is missing, so nothing is at `new/../file/`. But behind `new/` that is the file. -/
theorem behind_missing : ¬ ∀ (t : FileTree) (pathname : Bytes),
    (∀ a, Ancestor (cStr pathname) a → ¬ t.NonDirectory a) →
      ∃ r, creat_dircetory t (path pathname) = some r ∧ ∀ a, Ancestor (cStr pathname) a → r.tree.IsDir a := by
  intro always
  have nothing : ∀ n < 14, ((cStr (ascii "new/../file/x")).take n).getLast? = some SLASH →
      ¬ ((oneFile.parentDir ((cStr (ascii "new/../file/x")).take n)).bind fun d =>
        (names ((cStr (ascii "new/../file/x")).take n)).getLast?.bind (oneFile.lookup d)).isSome := by
    decide
  have clear : ∀ a, Ancestor (cStr (ascii "new/../file/x")) a → ¬ oneFile.NonDirectory a := by
    intro a ancestor other
    obtain ⟨-, -, cut⟩ := ancestor.at_slash
    have short : a.length < 14 := Nat.lt_succ_of_le ancestor.begins.length_le
    have absent := nothing a.length short
    rw [← cut] at absent
    exact absent ancestor.slash other.entry
  obtain ⟨r, run, made⟩ := always oneFile (ascii "new/../file/x") clear
  have missing : (creat_dircetory oneFile (path (ascii "new/../file/x"))).map
      (fun r => r.tree.resolve (ascii "new/../file/")) = some none := by
    decide
  obtain ⟨d, found, -⟩ := made (ascii "new/../file/") ⟨by decide, by decide⟩
  rw [run, Option.map_some, found] at missing
  exact absurd missing (by simp)

end HttpServer.Logs
