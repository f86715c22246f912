import HttpServer.Lib.Bytes
import HttpServer.Lib.FirstWins

/-!
# Trees of files

A POSIX file system as a list of inodes: directories, files and symbolic links. `walk`
resolves a list of components from a directory, following links up to a limit; `.` and `..`
are looked up like other names. A trailing slash stands for a last component `.`, so a path
that ends with one resolves only to a directory. `mkdir` adds one directory or changes
nothing. `Grown` is what any number of them do: everything stays as it was, with more
directories around it. What resolves goes on resolving to the same inode (`Grown.walk`).
-/

namespace HttpServer.Lib

/-- An inode. -/
inductive Node where
  | dir (entries : Bytes → Option Nat) (parent : Nat)
  | file (content : Bytes)
  | symlink (target : Bytes)

/-- There is a directory at this inode number. -/
def DirAt (nodes : List Node) (d : Nat) : Prop := ∃ entries parent, nodes[d]? = some (.dir entries parent)

/-- The inodes by their numbers, the root, the working directory, and the most links followed in
one resolution. Entries name inodes that are there, and parents are directories. -/
structure FileTree where
  nodes : List Node
  root : Nat
  cwd : Nat
  symloopMax : Nat
  rootDir : DirAt nodes root
  cwdDir : DirAt nodes cwd
  closed : ∀ (d : Nat) (entries : Bytes → Option Nat) (parent : Nat), nodes[d]? = some (.dir entries parent) →
    DirAt nodes parent ∧ ∀ c i, entries c = some i → i < nodes.length

def SLASH : UInt8 := 47
def DOT : Bytes := [46]
def DOTDOT : Bytes := [46, 46]

/-- The names between the slashes of a path. -/
def names (path : Bytes) : List Bytes := (path.splitOn SLASH).filter (· ≠ [])

/-- The components that are resolved. -/
def components (path : Bytes) : List Bytes :=
  if path.getLast? = some SLASH then names path ++ [DOT] else names path

namespace FileTree

/-! ## Resolution -/

/-- The entry of this name in a directory. -/
def lookup (t : FileTree) (d : Nat) (c : Bytes) : Option Nat :=
  match t.nodes[d]? with
  | some (.dir entries parent) => if c = DOT then some d else if c = DOTDOT then some parent else entries c
  | _ => none

/-- Where the resolution of a path begins. -/
def start (t : FileTree) (d : Nat) (path : Bytes) : Nat := if path.head? = some SLASH then t.root else d

/-- Resolution with this many links left; `follow` goes on behind a link. -/
def walkWith (t : FileTree) (follow : Nat → List Bytes → Option (Nat × Nat)) (links : Nat) :
    Nat → List Bytes → Option (Nat × Nat)
  | d, [] => some (links, d)
  | d, c :: cs =>
    match t.lookup d c with
    | none => none
    | some i =>
      match t.nodes[i]? with
      | some (.symlink target) => follow (t.start d target) (components target ++ cs)
      | _ => walkWith t follow links i cs

/-- The inode that components lead to from a directory, with the links left. -/
def walk (t : FileTree) : Nat → Nat → List Bytes → Option (Nat × Nat)
  | 0 => t.walkWith (fun _ _ => none) 0
  | links + 1 => t.walkWith (t.walk links) (links + 1)

/-- The inode of a path; `stat` succeeds if there is one. -/
def resolve (t : FileTree) (path : Bytes) : Option Nat :=
  if path = [] then none else (t.walk t.symloopMax (t.start t.cwd path) (components path)).map Prod.snd

/-- The directory that has the last name of a path, or would have it. -/
def parentDir (t : FileTree) (path : Bytes) : Option Nat :=
  if names path = [] then none
  else (t.walk t.symloopMax (t.start t.cwd path) ((names path).dropLast ++ [DOT])).map Prod.snd

/-- A path leads to a directory. -/
def IsDir (t : FileTree) (path : Bytes) : Prop := ∃ d, t.resolve path = some d ∧ DirAt t.nodes d

/-- A path has an entry, but does not lead to a directory. -/
def NonDirectory (t : FileTree) (path : Bytes) : Prop :=
  ∃ d c, t.parentDir path = some d ∧ (names path).getLast? = some c ∧ (t.lookup d c).isSome ∧ ¬ t.IsDir path

theorem NonDirectory.entry {t : FileTree} {path : Bytes} (other : t.NonDirectory path) :
    ((t.parentDir path).bind fun d => (names path).getLast?.bind (t.lookup d)).isSome := by
  obtain ⟨d, c, above, last, entry, -⟩ := other
  rwa [above, last, Option.bind_some, Option.bind_some]

variable {t t' t'' : FileTree} {d i links : Nat} {c : Bytes} {cs : List Bytes}

theorem lookup_dot (isDir : DirAt t.nodes d) : t.lookup d DOT = some d := by
  obtain ⟨entries, parent, node⟩ := isDir
  simp [lookup, node]

theorem dirAt_of_lookup (found : t.lookup d c = some i) : DirAt t.nodes d := by
  unfold lookup at found
  split at found
  · rename_i entries parent node
    exact ⟨entries, parent, node⟩
  · cases found

/-- In a directory only the names that are no `.`, no `..` and no entry are free. -/
theorem lookup_free {entries : Bytes → Option Nat} {parent : Nat} (node : t.nodes[d]? = some (.dir entries parent))
    (free : t.lookup d c = none) : c ≠ DOT ∧ c ≠ DOTDOT ∧ entries c = none := by
  simp only [lookup, node] at free
  split_ifs at free with dot dotdot
  exact ⟨dot, dotdot, free⟩

theorem lookup_lt (found : t.lookup d c = some i) : i < t.nodes.length := by
  obtain ⟨entries, parent, node⟩ := dirAt_of_lookup found
  obtain ⟨⟨e, p, up⟩, bound⟩ := t.closed d entries parent node
  simp only [lookup, node] at found
  split_ifs at found
  · cases found
    exact (List.getElem?_eq_some_iff.mp node).1
  · cases found
    exact (List.getElem?_eq_some_iff.mp up).1
  · exact bound c i found

theorem walk_nil (links d : Nat) : t.walk links d [] = some (links, d) := by
  cases links <;> simp [walk, walkWith]

/-- One component that is no link. -/
theorem walk_entry (found : t.lookup d c = some i) (noLink : ∀ target, t.nodes[i]? ≠ some (.symlink target)) :
    t.walk links d (c :: cs) = t.walk links i cs := by
  cases links <;> simp only [walk, walkWith, found]

/-- One component that is a link. -/
theorem walk_link {target : Bytes} (found : t.lookup d c = some i) (link : t.nodes[i]? = some (.symlink target)) :
    t.walk (links + 1) d (c :: cs) = t.walk links (t.start d target) (components target ++ cs) := by
  simp [walk, walkWith, found, link]

theorem walk_link_none {target : Bytes} (found : t.lookup d c = some i)
    (link : t.nodes[i]? = some (.symlink target)) : t.walk 0 d (c :: cs) = none := by
  simp [walk, walkWith, found, link]

theorem walk_missing (missing : t.lookup d c = none) : t.walk links d (c :: cs) = none := by
  cases links <;> simp [walk, walkWith, missing]

/-- What the first component of a walk that succeeds is. -/
theorem walk_cases {r : Nat × Nat} (walked : t.walk links d (c :: cs) = some r) :
    ∃ i, t.lookup d c = some i ∧
      (((∀ target, t.nodes[i]? ≠ some (.symlink target)) ∧ t.walk links i cs = some r) ∨
        ∃ target links', t.nodes[i]? = some (.symlink target) ∧ links = links' + 1 ∧
          t.walk links' (t.start d target) (components target ++ cs) = some r) := by
  cases found : t.lookup d c with
  | none =>
    rw [walk_missing found] at walked
    cases walked
  | some i =>
    refine ⟨i, rfl, ?_⟩
    by_cases link : ∃ target, t.nodes[i]? = some (.symlink target)
    · obtain ⟨target, link⟩ := link
      cases links with
      | zero =>
        rw [walk_link_none found link] at walked
        cases walked
      | succ links =>
        rw [walk_link found link] at walked
        exact .inr ⟨target, links, link, rfl, walked⟩
    · have noLink : ∀ target, t.nodes[i]? ≠ some (.symlink target) := fun target eq => link ⟨target, eq⟩
      rw [walk_entry found noLink] at walked
      exact .inl ⟨noLink, walked⟩

theorem walk_append (t : FileTree) (links d : Nat) (cs cs' : List Bytes) :
    t.walk links d (cs ++ cs') = (t.walk links d cs).bind fun r => t.walk r.1 r.2 cs' := by
  induction links using Nat.strongRecOn generalizing d cs with
  | ind links outer =>
    induction cs generalizing d with
    | nil => rw [List.nil_append, walk_nil, Option.bind_some]
    | cons c cs ih =>
      rw [List.cons_append]
      cases found : t.lookup d c with
      | none => rw [walk_missing found, walk_missing found, Option.bind_none]
      | some i =>
        by_cases link : ∃ target, t.nodes[i]? = some (.symlink target)
        · obtain ⟨target, link⟩ := link
          cases links with
          | zero =>
            rw [walk_link_none found link, walk_link_none found link, Option.bind_none]
          | succ links =>
            rw [walk_link found link, walk_link found link, ← List.append_assoc,
              outer links (Nat.lt_succ_self links)]
        · have noLink : ∀ target, t.nodes[i]? ≠ some (.symlink target) := fun target eq => link ⟨target, eq⟩
          rw [walk_entry found noLink, walk_entry found noLink, ih]

theorem not_link_of_dirAt (isDir : DirAt t.nodes i) (target : Bytes) : t.nodes[i]? ≠ some (.symlink target) := by
  obtain ⟨entries, parent, node⟩ := isDir
  simp [node]

/-- A last component `.` asks for a directory. -/
theorem walk_dot_iff {r : Nat × Nat} :
    t.walk links d (cs ++ [DOT]) = some r ↔ t.walk links d cs = some r ∧ DirAt t.nodes r.2 := by
  have dot : ∀ q : Nat × Nat, t.walk q.1 q.2 [DOT] = some r ↔ q = r ∧ DirAt t.nodes r.2 := by
    rintro ⟨left, i⟩
    constructor
    · intro walked
      obtain ⟨j, found, rest⟩ := walk_cases walked
      have isDir : DirAt t.nodes i := dirAt_of_lookup found
      rw [lookup_dot isDir, Option.some.injEq] at found
      subst found
      obtain ⟨-, walked⟩ | ⟨target, -, link, -⟩ := rest
      · rw [walk_nil, Option.some.injEq] at walked
        exact ⟨walked, walked ▸ isDir⟩
      · exact absurd link (not_link_of_dirAt isDir target)
    · rintro ⟨rfl, isDir⟩
      rw [walk_entry (lookup_dot isDir) (not_link_of_dirAt isDir), walk_nil]
  rw [walk_append, Option.bind_eq_some_iff]
  constructor
  · rintro ⟨q, walked, last⟩
    obtain ⟨rfl, isDir⟩ := (dot q).mp last
    exact ⟨walked, isDir⟩
  · rintro ⟨walked, isDir⟩
    exact ⟨r, walked, (dot r).mpr ⟨rfl, isDir⟩⟩

theorem walk_dot_cons : t.walk links d (DOT :: c :: cs) = t.walk links d (c :: cs) := by
  by_cases isDir : DirAt t.nodes d
  · exact walk_entry (lookup_dot isDir) (not_link_of_dirAt isDir)
  · have nothing : ∀ c, t.lookup d c = none := by
      intro c
      cases found : t.lookup d c with
      | none => rfl
      | some i => exact absurd (dirAt_of_lookup found) isDir
    rw [walk_missing (nothing DOT), walk_missing (nothing c)]

/-! ## Making directories -/

/-- What may become of an inode: a directory may have new entries, for inodes from `size` on. -/
inductive Keeps (size : Nat) : Node → Node → Prop where
  | dir {entries entries' : Bytes → Option Nat} {parent : Nat} (kept : Extends entries entries')
      (fresh : ∀ c i, entries c = none → entries' c = some i → size ≤ i) :
      Keeps size (.dir entries parent) (.dir entries' parent)
  | file (content : Bytes) : Keeps size (.file content) (.file content)
  | symlink (target : Bytes) : Keeps size (.symlink target) (.symlink target)

/-- The inodes are kept, and those added are directories of added ones. -/
structure Added (nodes nodes' : List Node) : Prop where
  size : nodes.length ≤ nodes'.length
  kept : ∀ (i : Nat) (n : Node), nodes[i]? = some n → ∃ n', nodes'[i]? = some n' ∧ Keeps nodes.length n n'
  added : ∀ (i : Nat) (n' : Node), nodes.length ≤ i → nodes'[i]? = some n' →
    ∃ entries parent, n' = .dir entries parent ∧ ∀ c j, entries c = some j → nodes.length ≤ j

theorem Keeps.refl (size : Nat) (n : Node) : Keeps size n n := by
  cases n with
  | dir entries parent =>
    refine .dir (Extends.refl entries) ?_
    intro c i free found
    simp [free] at found
  | file content => exact .file content
  | symlink target => exact .symlink target

theorem Keeps.trans {size size' : Nat} {n n' n'' : Node} (grown : size ≤ size') (first : Keeps size n n')
    (second : Keeps size' n' n'') : Keeps size n n'' := by
  cases first with
  | dir kept fresh =>
    cases second with
    | dir kept' fresh' =>
      rename_i entries entries' parent entries''
      refine .dir (kept.trans kept') ?_
      intro c i free found
      cases new : entries' c with
      | none =>
        have low : size' ≤ i := fresh' c i new found
        omega
      | some j =>
        have low : size ≤ j := fresh c j free new
        have same : some j = some i := (kept' c j new).symm.trans found
        simp only [Option.some.injEq] at same
        omega
  | file content => cases second with | file => exact .file content
  | symlink target => cases second with | symlink => exact .symlink target

theorem Added.refl (nodes : List Node) : Added nodes nodes where
  size := Nat.le_refl _
  kept i n node := ⟨n, node, Keeps.refl _ n⟩
  added i n' new node := by
    have low : i < nodes.length := (List.getElem?_eq_some_iff.mp node).1
    omega

theorem Added.trans {nodes nodes' nodes'' : List Node} (first : Added nodes nodes') (second : Added nodes' nodes'') :
    Added nodes nodes'' where
  size := Nat.le_trans first.size second.size
  kept i n node := by
    obtain ⟨n', node', keeps⟩ := first.kept i n node
    obtain ⟨n'', node'', keeps'⟩ := second.kept i n' node'
    exact ⟨n'', node'', keeps.trans first.size keeps'⟩
  added i n'' new node'' := by
    have grown := first.size
    by_cases low : i < nodes'.length
    · -- added by the first, and kept by the second with entries for inodes that are newer still
      obtain ⟨n, node', keeps⟩ := second.kept i nodes'[i] (List.getElem?_eq_getElem low)
      rw [node'', Option.some.injEq] at node'
      subst node'
      obtain ⟨entries, parent, eq, own⟩ := first.added i nodes'[i] new (List.getElem?_eq_getElem low)
      rw [eq] at keeps
      cases keeps with
      | dir kept fresh =>
        refine ⟨_, parent, rfl, ?_⟩
        intro c j found
        cases old : entries c with
        | none =>
          have late := fresh c j old found
          omega
        | some k =>
          have same := (kept c k old).symm.trans found
          simp only [Option.some.injEq] at same
          have late := own c k old
          omega
    · obtain ⟨entries, parent, eq, own⟩ := second.added i n'' (Nat.le_of_not_lt low) node''
      exact ⟨entries, parent, eq, fun c j found => Nat.le_trans first.size (own c j found)⟩

theorem Added.dirAt {nodes nodes' : List Node} (added : Added nodes nodes') {d : Nat} (isDir : DirAt nodes d) :
    DirAt nodes' d := by
  obtain ⟨entries, parent, node⟩ := isDir
  obtain ⟨n', node', keeps⟩ := added.kept d _ node
  cases keeps with
  | dir => exact ⟨_, parent, node'⟩

/-- The inodes with a new empty directory of this name in a directory. -/
def withDir (nodes : List Node) (d : Nat) (entries : Bytes → Option Nat) (parent : Nat) (c : Bytes) : List Node :=
  nodes.set d (.dir (Function.update entries c (some nodes.length)) parent) ++ [.dir (fun _ => none) d]

section WithDir
variable {nodes : List Node} {entries : Bytes → Option Nat} {parent : Nat}

theorem length_withDir : (withDir nodes d entries parent c).length = nodes.length + 1 := by
  simp [withDir]

theorem withDir_self (node : nodes[d]? = some (.dir entries parent)) :
    (withDir nodes d entries parent c)[d]? = some (.dir (Function.update entries c (some nodes.length)) parent) := by
  have low : d < nodes.length := (List.getElem?_eq_some_iff.mp node).1
  rw [withDir, List.getElem?_append_left (by simpa using low), List.getElem?_set_self low]

theorem withDir_new : (withDir nodes d entries parent c)[nodes.length]? = some (.dir (fun _ => none) d) := by
  simp [withDir]

theorem withDir_other (other : i ≠ d) (low : i < nodes.length) :
    (withDir nodes d entries parent c)[i]? = nodes[i]? := by
  rw [withDir, List.getElem?_append_left (by simpa using low), List.getElem?_set_ne other.symm]

theorem withDir_added (node : nodes[d]? = some (.dir entries parent)) (free : entries c = none) :
    Added nodes (withDir nodes d entries parent c) where
  size := by
    rw [length_withDir]
    omega
  kept i n found := by
    by_cases same : i = d
    · subst same
      rw [node, Option.some.injEq] at found
      subst found
      refine ⟨_, withDir_self node, .dir ?_ ?_⟩
      · intro c' j bound
        have other : c' ≠ c := fun eq => by simp [eq, free] at bound
        rwa [Function.update_of_ne other]
      · intro c' j unbound bound
        by_cases eq : c' = c
        · simp only [eq, Function.update_self, Option.some.injEq] at bound
          omega
        · simp [Function.update_of_ne eq, unbound] at bound
    · have low : i < nodes.length := (List.getElem?_eq_some_iff.mp found).1
      exact ⟨n, (withDir_other same low).trans found, Keeps.refl _ n⟩
  added i n' new found := by
    have low : i < nodes.length + 1 := by
      rw [← length_withDir]
      exact (List.getElem?_eq_some_iff.mp found).1
    have last : i = nodes.length := by omega
    rw [last, withDir_new, Option.some.injEq] at found
    exact ⟨_, d, found.symm, by simp⟩

theorem withDir_closed (node : nodes[d]? = some (.dir entries parent)) (free : entries c = none)
    (closed : ∀ (d : Nat) (entries : Bytes → Option Nat) (parent : Nat), nodes[d]? = some (.dir entries parent) →
      DirAt nodes parent ∧ ∀ c i, entries c = some i → i < nodes.length)
    {d' : Nat} {entries' : Bytes → Option Nat} {parent' : Nat}
    (node' : (withDir nodes d entries parent c)[d']? = some (.dir entries' parent')) :
    DirAt (withDir nodes d entries parent c) parent' ∧
      ∀ c' i, entries' c' = some i → i < (withDir nodes d entries parent c).length := by
  have added := withDir_added node free
  rw [length_withDir]
  by_cases new : nodes.length ≤ d'
  · obtain ⟨e, p, eq, own⟩ := added.added d' _ new node'
    have low : d' < nodes.length + 1 := by
      rw [← length_withDir]
      exact (List.getElem?_eq_some_iff.mp node').1
    have last : d' = nodes.length := by omega
    rw [last, withDir_new, Option.some.injEq, Node.dir.injEq] at node'
    obtain ⟨rfl, rfl⟩ := node'
    exact ⟨added.dirAt ⟨entries, parent, node⟩, by simp⟩
  · by_cases same : d' = d
    · subst same
      rw [withDir_self node, Option.some.injEq, Node.dir.injEq] at node'
      obtain ⟨rfl, rfl⟩ := node'
      obtain ⟨up, bound⟩ := closed d' entries parent node
      refine ⟨added.dirAt up, ?_⟩
      intro c' i found
      by_cases eq : c' = c
      · simp only [eq, Function.update_self, Option.some.injEq] at found
        omega
      · rw [Function.update_of_ne eq] at found
        have low := bound c' i found
        omega
    · rw [withDir_other same (Nat.lt_of_not_le new)] at node'
      obtain ⟨up, bound⟩ := closed d' entries' parent' node'
      refine ⟨added.dirAt up, ?_⟩
      intro c' i found
      have low := bound c' i found
      omega

end WithDir

/-- With a new empty directory under a free name. -/
def addDir (t : FileTree) {d : Nat} {entries : Bytes → Option Nat} {parent : Nat} {c : Bytes}
    (node : t.nodes[d]? = some (.dir entries parent)) (free : entries c = none) : FileTree where
  nodes := withDir t.nodes d entries parent c
  root := t.root
  cwd := t.cwd
  symloopMax := t.symloopMax
  rootDir := (withDir_added node free).dirAt t.rootDir
  cwdDir := (withDir_added node free).dirAt t.cwdDir
  closed _ _ _ node' := withDir_closed node free t.closed node'

/-- `mkdir(path, mode)`: it fails, and changes nothing, where the name is not free or there is no
directory to have it. -/
def mkdir (t : FileTree) (path : Bytes) : FileTree :=
  match t.parentDir path, (names path).getLast? with
  | some d, some c =>
    match node : t.nodes[d]? with
    | some (.dir _ _) =>
      if free : t.lookup d c = none then t.addDir node (lookup_free node free).2.2 else t
    | _ => t
  | _, _ => t

/-- `t'` is `t` with more directories. -/
structure Grown (t t' : FileTree) : Prop where
  root : t'.root = t.root
  cwd : t'.cwd = t.cwd
  symloopMax : t'.symloopMax = t.symloopMax
  nodes : Added t.nodes t'.nodes

theorem Grown.refl (t : FileTree) : Grown t t := ⟨rfl, rfl, rfl, Added.refl t.nodes⟩

theorem Grown.trans (first : Grown t t') (second : Grown t' t'') : Grown t t'' where
  root := second.root.trans first.root
  cwd := second.cwd.trans first.cwd
  symloopMax := second.symloopMax.trans first.symloopMax
  nodes := first.nodes.trans second.nodes

theorem mkdir_grown (t : FileTree) (path : Bytes) : Grown t (t.mkdir path) := by
  unfold mkdir
  split
  · split
    · split
      · rename_i node free
        exact ⟨rfl, rfl, rfl, withDir_added node (lookup_free node free).2.2⟩
      · exact Grown.refl t
    · exact Grown.refl t
  · exact Grown.refl t

/-! ## What stays -/

theorem Grown.dirAt (grown : Grown t t') (isDir : DirAt t.nodes d) : DirAt t'.nodes d := grown.nodes.dirAt isDir

theorem Grown.lookup (grown : Grown t t') (found : t.lookup d c = some i) : t'.lookup d c = some i := by
  obtain ⟨entries, parent, node⟩ := dirAt_of_lookup found
  obtain ⟨n', node', keeps⟩ := grown.nodes.kept d _ node
  cases keeps with
  | dir kept fresh =>
    simp only [FileTree.lookup, node] at found
    simp only [FileTree.lookup, node']
    split_ifs at found ⊢
    · exact found
    · exact found
    · exact kept c i found

/-- An entry that a directory did not have is a directory that was added. -/
theorem Grown.lookup_free (grown : Grown t t') (isDir : DirAt t.nodes d) (free : t.lookup d c = none)
    (found : t'.lookup d c = some i) : t.nodes.length ≤ i ∧ DirAt t'.nodes i := by
  obtain ⟨entries, parent, node⟩ := isDir
  obtain ⟨dot, dotdot, unbound⟩ := FileTree.lookup_free node free
  obtain ⟨n', node', keeps⟩ := grown.nodes.kept d _ node
  have low := lookup_lt found
  cases keeps with
  | dir kept fresh =>
    simp only [FileTree.lookup, node', if_neg dot, if_neg dotdot] at found
    have new := fresh c i unbound found
    obtain ⟨e, p, eq, -⟩ := grown.nodes.added i _ new (List.getElem?_eq_getElem low)
    exact ⟨new, e, p, by rw [List.getElem?_eq_getElem low, eq]⟩

/-- An entry of an added directory, other than `..`, is a directory that was added. -/
theorem Grown.lookup_new (grown : Grown t t') (new : t.nodes.length ≤ d) (down : c ≠ DOTDOT)
    (found : t'.lookup d c = some i) : t.nodes.length ≤ i ∧ DirAt t'.nodes i := by
  have isDir := dirAt_of_lookup found
  have low := lookup_lt found
  obtain ⟨entries, parent, node⟩ := isDir
  obtain ⟨e, p, eq, own⟩ := grown.nodes.added d _ new node
  rw [Node.dir.injEq] at eq
  obtain ⟨rfl, rfl⟩ := eq
  by_cases dot : c = DOT
  · rw [dot, lookup_dot ⟨_, _, node⟩, Option.some.injEq] at found
    subst found
    exact ⟨new, _, _, node⟩
  · simp only [FileTree.lookup, node, if_neg dot, if_neg down] at found
    have late := own c i found
    obtain ⟨e, p, eq, -⟩ := grown.nodes.added i _ late (List.getElem?_eq_getElem low)
    exact ⟨late, e, p, by rw [List.getElem?_eq_getElem low, eq]⟩

theorem Grown.link_iff (grown : Grown t t') (low : i < t.nodes.length) {target : Bytes} :
    t'.nodes[i]? = some (.symlink target) ↔ t.nodes[i]? = some (.symlink target) := by
  obtain ⟨n', node', keeps⟩ := grown.nodes.kept i _ (List.getElem?_eq_getElem low)
  rw [node', List.getElem?_eq_getElem low]
  generalize t.nodes[i] = n at keeps
  cases keeps <;> simp

theorem Grown.start (grown : Grown t t') (d : Nat) (path : Bytes) : t'.start d path = t.start d path := by
  rw [FileTree.start, FileTree.start, grown.root]

theorem Grown.walk (grown : Grown t t') {r : Nat × Nat} (walked : t.walk links d cs = some r) :
    t'.walk links d cs = some r := by
  induction links using Nat.strongRecOn generalizing d cs with
  | ind links outer =>
    induction cs generalizing d with
    | nil => rwa [walk_nil] at walked ⊢
    | cons c cs ih =>
      obtain ⟨i, found, rest⟩ := walk_cases walked
      have low := lookup_lt found
      obtain ⟨noLink, onward⟩ | ⟨target, links', link, rfl, onward⟩ := rest
      · have noLink' : ∀ target, t'.nodes[i]? ≠ some (.symlink target) := fun target eq =>
          noLink target ((grown.link_iff low).mp eq)
        rw [walk_entry (grown.lookup found) noLink']
        exact ih onward
      · rw [walk_link (grown.lookup found) ((grown.link_iff low).mpr link), grown.start]
        exact outer links' (Nat.lt_succ_self links') onward

theorem Grown.resolve (grown : Grown t t') {path : Bytes} (found : t.resolve path = some d) :
    t'.resolve path = some d := by
  unfold FileTree.resolve at found ⊢
  split_ifs at found ⊢
  obtain ⟨r, walked, eq⟩ := Option.map_eq_some_iff.mp found
  rw [grown.symloopMax, grown.start, grown.cwd, grown.walk walked, Option.map_some, eq]

theorem Grown.isDir (grown : Grown t t') {path : Bytes} (isDir : t.IsDir path) : t'.IsDir path := by
  obtain ⟨d, found, dir⟩ := isDir
  exact ⟨d, grown.resolve found, grown.dirAt dir⟩

end FileTree

end HttpServer.Lib
