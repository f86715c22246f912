import HttpServer.Lib.FileTree

/-!
# The ancestors of a path

The prefixes of a path that end with a slash. An ancestor whose own ancestors are directories
is one after `mkdir`, unless it is something else (`isDir_mkdir_ancestor`). Making directories can
turn a path that leads nowhere into one that leads to an old file: behind a missing directory
and `..`. `Clear` excludes that; without such a `..` it says no more than that no ancestor is
something else (`clear_of_settled`).
-/

namespace HttpServer.Lib.FileTree

variable {t t' : FileTree} {d i links : Nat} {c : Bytes}

/-! ## Names -/

/-- A path that a name can follow: none yet, or one that ends with a slash. -/
def Open (u : Bytes) : Prop := u = [] ∨ u.getLast? = some SLASH

theorem names_nil : names [] = [] := by
  simp [names]

theorem names_plain (plain : SLASH ∉ c) : names c = if c = [] then [] else [c] := by
  rw [names, List.splitOn_eq_singleton plain]
  split_ifs with empty
  · simp [empty]
  · simp [empty]

theorem names_slash (u v : Bytes) : names (u ++ SLASH :: v) = names u ++ names v := by
  rw [names, List.splitOn_append_cons_self, List.filter_append]
  simp only [names]

theorem names_append {u : Bytes} (ready : Open u) (v : Bytes) : names (u ++ v) = names u ++ names v := by
  obtain rfl | slash := ready
  · rw [names_nil, List.nil_append, List.nil_append]
  · obtain ⟨w, rfl⟩ := List.getLast?_eq_some_iff.mp slash
    rw [List.append_assoc, List.singleton_append, names_slash, names_slash, names_nil, List.append_nil]

/-- The part of a path after its last slash. -/
theorem split_last (q : Bytes) : ∃ u c, q = u ++ c ∧ Open u ∧ SLASH ∉ c := by
  induction q using List.reverseRecOn with
  | nil => exact ⟨[], [], rfl, .inl rfl, by simp⟩
  | append_singleton q b ih =>
    by_cases slash : b = SLASH
    · exact ⟨q ++ [b], [], by simp, .inr (by simp [slash]), by simp⟩
    · obtain ⟨u, c, rfl, ready, plain⟩ := ih
      exact ⟨u, c ++ [b], by simp, ready, by simp [plain, Ne.symm slash]⟩

theorem start_append {u : Bytes} (ready : Open u) (plain : SLASH ∉ c) (named : c ≠ []) (d : Nat) (v : Bytes) :
    t.start d (u ++ c ++ v) = t.start d u := by
  have head : (u ++ c ++ v).head? = some SLASH ↔ u.head? = some SLASH := by
    obtain rfl | slash := ready
    · cases c with
      | nil => exact absurd rfl named
      | cons b c =>
        have differ : b ≠ SLASH := fun eq => plain (by simp [eq])
        simp [differ]
    · have nonempty : u ≠ [] := fun eq => by simp [eq] at slash
      obtain ⟨b, u', rfl⟩ := List.exists_cons_of_ne_nil nonempty
      simp
  simp only [start, head]

/-! ## The directory of a name -/

/-- The directory that an open path leads to, with the links left. -/
def reach (t : FileTree) (u : Bytes) : Option (Nat × Nat) :=
  t.walk t.symloopMax (t.start t.cwd u) (names u ++ [DOT])

theorem reach_nil (t : FileTree) : t.reach [] = some (t.symloopMax, t.cwd) := by
  have here : t.start t.cwd [] = t.cwd := by
    simp [start]
  rw [reach, here, names_nil]
  exact walk_dot_iff.mpr ⟨walk_nil _ _, t.cwdDir⟩

theorem Grown.reach (grown : Grown t t') {u : Bytes} {r : Nat × Nat} (reached : t.reach u = some r) :
    t'.reach u = some r := by
  rw [FileTree.reach, grown.symloopMax, grown.start, grown.cwd]
  exact grown.walk reached

theorem reach_dirAt {u : Bytes} {r : Nat × Nat} (reached : t.reach u = some r) : DirAt t.nodes r.2 :=
  (walk_dot_iff.mp reached).2

theorem resolve_slash {p : Bytes} (slash : p.getLast? = some SLASH) : t.resolve p = (t.reach p).map Prod.snd := by
  have nonempty : p ≠ [] := fun eq => by simp [eq] at slash
  rw [resolve, if_neg nonempty, components, if_pos slash, reach]

/-- A path that ends with a slash resolves to nothing but a directory. -/
theorem isDir_slash {p : Bytes} (slash : p.getLast? = some SLASH) : t.IsDir p ↔ (t.reach p).isSome := by
  rw [IsDir, resolve_slash slash]
  constructor
  · rintro ⟨d, found, -⟩
    rw [Option.map_eq_some_iff] at found
    obtain ⟨r, reached, -⟩ := found
    simp [reached]
  · intro found
    obtain ⟨r, reached⟩ := Option.isSome_iff_exists.mp found
    exact ⟨r.2, by simp [reached], reach_dirAt reached⟩

theorem names_child {u v : Bytes} (ready : Open u) (plain : SLASH ∉ c) (named : c ≠ []) (tail : v = [] ∨ v = [SLASH]) :
    names (u ++ c ++ v) = names u ++ [c] := by
  have split : names (u ++ c) = names u ++ [c] := by
    rw [names_append ready, names_plain plain, if_neg named]
  obtain rfl | rfl := tail
  · rw [List.append_nil, split]
  · rw [names_slash, split, names_nil, List.append_nil]

theorem isDir_of_resolve {p : Bytes} (slash : p.getLast? = some SLASH) (found : (t.resolve p).isSome) : t.IsDir p := by
  rw [resolve_slash slash, Option.isSome_map] at found
  exact (isDir_slash slash).mpr found

/-- One more name, and a slash. -/
theorem reach_child {u : Bytes} (ready : Open u) (plain : SLASH ∉ c) (named : c ≠ []) :
    t.reach (u ++ c ++ [SLASH]) = (t.reach u).bind fun r => t.walk r.1 r.2 [c, DOT] := by
  have split : names (u ++ c ++ [SLASH]) = names u ++ [c] := names_child ready plain named (.inr rfl)
  simp only [reach, start_append ready plain named, split]
  rw [← walk_append, List.append_assoc, List.append_assoc, walk_append, walk_append]
  simp only [List.singleton_append, walk_dot_cons]

theorem parentDir_child {u v : Bytes} (ready : Open u) (plain : SLASH ∉ c) (named : c ≠ [])
    (tail : v = [] ∨ v = [SLASH]) : t.parentDir (u ++ c ++ v) = (t.reach u).map Prod.snd := by
  have split := names_child ready plain named tail
  rw [parentDir, split, if_neg (by simp), start_append ready plain named, List.dropLast_concat, reach]

theorem reach_directory {u : Bytes} {r : Nat × Nat} (ready : Open u) (plain : SLASH ∉ c) (named : c ≠ [])
    (reached : t.reach u = some r) (found : t.lookup r.2 c = some i) (isDir : DirAt t.nodes i) :
    t.reach (u ++ c ++ [SLASH]) = some (r.1, i) := by
  rw [reach_child ready plain named, reached, Option.bind_some, walk_entry found (not_link_of_dirAt isDir)]
  exact walk_dot_iff.mpr ⟨walk_nil r.1 i, isDir⟩

theorem mkdir_free {path : Bytes} (above : t.parentDir path = some d) (last : (names path).getLast? = some c)
    (isDir : DirAt t.nodes d) (free : t.lookup d c = none) :
    (t.mkdir path).lookup d c = some t.nodes.length ∧ DirAt (t.mkdir path).nodes t.nodes.length := by
  obtain ⟨entries, parent, node⟩ := isDir
  have spec := lookup_free node free
  have made : (t.mkdir path).nodes = withDir t.nodes d entries parent c := by
    unfold mkdir
    rw [above, last]
    simp only
    split
    · rename_i e p node'
      obtain ⟨rfl, rfl⟩ := Node.dir.inj (Option.some.inj (node.symm.trans node'))
      rw [dif_pos free]
      rfl
    · rename_i other
      exact absurd node (other entries parent)
  refine ⟨?_, fun _ => none, d, ?_⟩
  · simp only [lookup, made, withDir_self node, if_neg spec.1, if_neg spec.2.1, Function.update_self]
  · rw [made, withDir_new]

theorem last_child {u v : Bytes} (ready : Open u) (plain : SLASH ∉ c) (named : c ≠ []) (tail : v = [] ∨ v = [SLASH]) :
    (names (u ++ c ++ v)).getLast? = some c := by
  rw [names_child ready plain named tail, List.getLast?_concat]

/-- A path that is no directory and nothing else either has no entry where its name would be. -/
theorem free_of_clear {u : Bytes} {r : Nat × Nat} (ready : Open u) (plain : SLASH ∉ c) (named : c ≠ [])
    (reached : t.reach u = some r) (clear : ¬ t.NonDirectory (u ++ c ++ [SLASH]))
    (notDir : ¬ t.IsDir (u ++ c ++ [SLASH])) : t.lookup r.2 c = none := by
  have above : t.parentDir (u ++ c ++ [SLASH]) = some r.2 := by
    rw [parentDir_child ready plain named (.inr rfl), reached, Option.map_some]
  cases entry : t.lookup r.2 c with
  | none => rfl
  | some i => exact absurd ⟨r.2, c, above, last_child ready plain named (.inr rfl), by simp [entry], notDir⟩ clear

/-- A name under a directory that is there is a directory after `mkdir`, unless it is something else. -/
theorem isDir_mkdir {u : Bytes} {r : Nat × Nat} (ready : Open u) (plain : SLASH ∉ c) (named : c ≠ [])
    (reached : t.reach u = some r) (clear : ¬ t.NonDirectory (u ++ c ++ [SLASH])) :
    (t.mkdir (u ++ c ++ [SLASH])).IsDir (u ++ c ++ [SLASH]) := by
  have grown := mkdir_grown t (u ++ c ++ [SLASH])
  by_cases isDir : t.IsDir (u ++ c ++ [SLASH])
  · exact grown.isDir isDir
  · have above : t.parentDir (u ++ c ++ [SLASH]) = some r.2 := by
      rw [parentDir_child ready plain named (.inr rfl), reached, Option.map_some]
    have free := free_of_clear ready plain named reached clear isDir
    obtain ⟨found, new⟩ := mkdir_free above (last_child ready plain named (.inr rfl)) (reach_dirAt reached) free
    have reached' : (t.mkdir (u ++ c ++ [SLASH])).reach u = some r := grown.reach reached
    rw [isDir_slash (by simp), reach_directory ready plain named reached' found new, Option.isSome_some]

/-! ## Ancestors -/

/-- A prefix of a path that ends with a slash. -/
structure Ancestor (path p : Bytes) : Prop where
  begins : p <+: path
  slash : p.getLast? = some SLASH

/-- An ancestor is the path up to one of its slashes. -/
theorem Ancestor.at_slash {path a : Bytes} (ancestor : Ancestor path a) :
    0 < a.length ∧ path[a.length - 1]? = some SLASH ∧ a = path.take a.length := by
  obtain ⟨⟨rest, rfl⟩, slash⟩ := ancestor
  have nonempty : 0 < a.length := by
    rw [List.length_pos_iff]
    rintro rfl
    simp at slash
  rw [List.getLast?_eq_getElem?] at slash
  exact ⟨nonempty, by rw [List.getElem?_append_left (by omega), slash], by simp⟩

theorem Ancestor.shorter {path a : Bytes} (ancestor : Ancestor path a) (other : a ≠ path) : a.length < path.length := by
  have le := ancestor.begins.length_le
  have ne : a.length ≠ path.length := fun same => other (ancestor.begins.eq_of_length same)
  omega

/-- No ancestor is anything but a directory, and none is however many directories are made. -/
def Clear (t : FileTree) (path : Bytes) : Prop :=
  ∀ p, Ancestor path p → ∀ made : List Bytes, ¬ (made.foldl mkdir t).NonDirectory p

theorem foldl_mkdir_grown (t : FileTree) (made : List Bytes) : Grown t (made.foldl mkdir t) := by
  induction made generalizing t with
  | nil => exact Grown.refl t
  | cons path made ih => exact (mkdir_grown t path).trans (ih (t.mkdir path))

/-- A path that ends with a slash is the root, or repeats a slash, or has a name before its last. -/
theorem slash_cases {p : Bytes} (slash : p.getLast? = some SLASH) :
    p = [SLASH] ∨ (∃ u, p = u ++ [SLASH] ∧ u.getLast? = some SLASH) ∨
      ∃ u c, p = u ++ c ++ [SLASH] ∧ Open u ∧ SLASH ∉ c ∧ c ≠ [] := by
  obtain ⟨q, rfl⟩ := List.getLast?_eq_some_iff.mp slash
  obtain ⟨u, c, rfl, ready, plain⟩ := split_last q
  by_cases empty : c = []
  · subst empty
    obtain rfl | again := ready
    · exact .inl rfl
    · exact .inr (.inl ⟨u, by rw [List.append_nil], again⟩)
  · exact .inr (.inr ⟨u, c, rfl, ready, plain, empty⟩)

theorem isDir_root (t : FileTree) : t.IsDir [SLASH] := by
  have begin : t.start t.cwd [SLASH] = t.root := by
    simp [start]
  have none : names [SLASH] = [] := by
    rw [← List.nil_append [SLASH], names_slash, names_nil, List.append_nil]
  rw [isDir_slash (by simp), reach, begin, none, walk_dot_iff.mpr ⟨walk_nil _ _, t.rootDir⟩, Option.isSome_some]

/-- A slash after a slash makes no difference. -/
theorem slash_again {u : Bytes} (slash : u.getLast? = some SLASH) :
    t.reach (u ++ [SLASH]) = t.reach u ∧ t.parentDir (u ++ [SLASH]) = t.parentDir u ∧
      names (u ++ [SLASH]) = names u := by
  have same : names (u ++ [SLASH]) = names u := by
    rw [names_slash, names_nil, List.append_nil]
  have begin : t.start t.cwd (u ++ [SLASH]) = t.start t.cwd u := by
    cases u with
    | nil => simp at slash
    | cons b u => simp [start]
  simp only [reach, parentDir, same, begin, and_self]

theorem isDir_again {u : Bytes} (slash : u.getLast? = some SLASH) : t.IsDir (u ++ [SLASH]) ↔ t.IsDir u := by
  rw [isDir_slash slash, isDir_slash (by simp), (slash_again slash).1]

theorem nonDirectory_again {u : Bytes} (slash : u.getLast? = some SLASH) :
    t.NonDirectory (u ++ [SLASH]) ↔ t.NonDirectory u := by
  obtain ⟨-, above, same⟩ := slash_again (t := t) slash
  rw [NonDirectory, above, same, isDir_again slash, NonDirectory]

theorem Ancestor.up {path u v : Bytes} (ancestor : Ancestor path (u ++ v)) (slash : u.getLast? = some SLASH) :
    Ancestor path u :=
  ⟨(List.prefix_append u v).trans ancestor.begins, slash⟩

/-- A path leads where it led in `t`, or to a directory that was added. -/
def OldOrAdded (t t' : FileTree) (p : Bytes) : Prop :=
  ∀ r, t'.reach p = some r → t.reach p = some r ∨ t.nodes.length ≤ r.2

theorem Grown.oldOrAdded_of_isDir (grown : Grown t t') {p : Bytes} (slash : p.getLast? = some SLASH)
    (isDir : t.IsDir p) : OldOrAdded t t' p := by
  intro r reached
  obtain ⟨r₀, there⟩ := Option.isSome_iff_exists.mp ((isDir_slash slash).mp isDir)
  rw [grown.reach there] at reached
  exact .inl (there.trans reached)

theorem Grown.oldOrAdded_of_open (grown : Grown t t') {u : Bytes} (ready : Open u)
    (above : u.getLast? = some SLASH → OldOrAdded t t' u) : OldOrAdded t t' u := by
  obtain rfl | slash := ready
  · intro r reached
    rw [grown.reach t.reach_nil] at reached
    exact .inl (t.reach_nil.trans reached)
  · exact above slash

/-- Where more directories are, a name that `t` did not clear leads into a directory, an old one
or an added one. Only `..` leads from an added directory to an old one. -/
theorem Grown.child (grown : Grown t t') {u : Bytes} {r : Nat × Nat} (ready : Open u) (plain : SLASH ∉ c)
    (named : c ≠ []) (reached : t'.reach u = some r) (origin : t.reach u = some r ∨ t.nodes.length ≤ r.2)
    (clear : ¬ t.NonDirectory (u ++ c ++ [SLASH])) (up : c = DOTDOT → t.IsDir (u ++ c ++ [SLASH]))
    (found : t'.lookup r.2 c = some i) :
    t'.IsDir (u ++ c ++ [SLASH]) ∧ OldOrAdded t t' (u ++ c ++ [SLASH]) := by
  have slash : (u ++ c ++ [SLASH]).getLast? = some SLASH := by simp
  by_cases isDir : t.IsDir (u ++ c ++ [SLASH])
  · exact ⟨grown.isDir isDir, grown.oldOrAdded_of_isDir slash isDir⟩
  · have added : t.nodes.length ≤ i ∧ DirAt t'.nodes i := by
      obtain old | new := origin
      · have free := free_of_clear ready plain named old clear isDir
        exact grown.lookup_free (reach_dirAt old) free found
      · have down : c ≠ DOTDOT := fun eq => isDir (up eq)
        exact grown.lookup_new new down found
    have there := reach_directory ready plain named reached found added.2
    refine ⟨(isDir_slash slash).mpr (by rw [there, Option.isSome_some]), ?_⟩
    intro r' reached'
    rw [there, Option.some.injEq] at reached'
    subst reached'
    exact .inr added.1

/-- One name more: it is found below a directory that is an old one or an added one. -/
theorem Grown.child_of_parent (grown : Grown t t') {u : Bytes} (ready : Open u) (plain : SLASH ∉ c) (named : c ≠ [])
    (origin : OldOrAdded t t' u) (clear : ¬ t.NonDirectory (u ++ c ++ [SLASH]))
    (up : c = DOTDOT → t.IsDir (u ++ c ++ [SLASH])) :
    OldOrAdded t t' (u ++ c ++ [SLASH]) ∧ ¬ t'.NonDirectory (u ++ c ++ [SLASH]) := by
  constructor
  · intro r' reached'
    have walked := reached'
    rw [reach_child ready plain named] at walked
    obtain ⟨r, reached, walked⟩ := Option.bind_eq_some_iff.mp walked
    obtain ⟨i, found, -⟩ := walk_cases walked
    exact (grown.child ready plain named reached (origin r reached) clear up found).2 r' reached'
  · rintro ⟨d, c', above, last, entry, notDir⟩
    rw [parentDir_child ready plain named (.inr rfl), Option.map_eq_some_iff] at above
    obtain ⟨r, reached, rfl⟩ := above
    rw [last_child ready plain named (.inr rfl), Option.some.injEq] at last
    subst last
    obtain ⟨i, found⟩ := Option.isSome_iff_exists.mp entry
    exact notDir (grown.child ready plain named reached (origin r reached) clear up found).1

/-- Ancestors that are no other thing are clear, if those that end with `..` are there: then no
name comes after a directory that is missing and a step back. -/
theorem clear_of_settled {path : Bytes} (clear : ∀ p, Ancestor path p → ¬ t.NonDirectory p)
    (settled : ∀ p, Ancestor path p → (names p).getLast? = some DOTDOT → t.IsDir p) : Clear t path := by
  intro p ancestor made
  have grown := foldl_mkdir_grown t made
  generalize made.foldl mkdir t = t' at grown
  -- by the length: what comes before the last name of an ancestor is a shorter ancestor, or nothing
  have both : OldOrAdded t t' p ∧ ¬ t'.NonDirectory p := by
    induction length : p.length using Nat.strongRecOn generalizing p with
    | ind n ih =>
      subst length
      obtain rfl | ⟨u, rfl, slash⟩ | ⟨u, c, rfl, ready, plain, named⟩ := slash_cases ancestor.slash
      · exact ⟨grown.oldOrAdded_of_isDir ancestor.slash (isDir_root t),
          fun ⟨d, c, _, _, _, notDir⟩ => notDir (isDir_root t')⟩
      · rw [OldOrAdded, (slash_again slash).1, (slash_again slash).1, nonDirectory_again slash]
        exact ih u.length (by simp) u (ancestor.up slash) rfl
      · have origin : OldOrAdded t t' u := by
          refine grown.oldOrAdded_of_open ready fun slash => ?_
          rw [List.append_assoc] at ancestor
          have shorter : u.length < (u ++ c ++ [SLASH]).length := by
            simp only [List.length_append, List.length_singleton]
            omega
          exact (ih u.length shorter u (ancestor.up slash) rfl).1
        refine grown.child_of_parent ready plain named origin (clear _ ancestor) ?_
        rintro rfl
        exact settled _ ancestor (last_child ready plain named (.inr rfl))
  exact both.2

/-- Where an open path is the empty one or leads to a directory, it leads to one. -/
theorem reach_of_open {u : Bytes} (ready : Open u) (above : u.getLast? = some SLASH → t.IsDir u) :
    (t.reach u).isSome := by
  obtain rfl | slash := ready
  · rw [reach_nil, Option.isSome_some]
  · exact (isDir_slash slash).mp (above slash)

/-- A path that is missing under ancestors that are there is missing in a directory. -/
theorem parentDir_isSome {p : Bytes} (nonempty : p ≠ []) (missing : t.resolve p = none)
    (above : ∀ a, Ancestor p a → a ≠ p → t.IsDir a) : (t.parentDir p).isSome := by
  have notDir : ¬ t.IsDir p := by
    rintro ⟨d, found, -⟩
    simp [missing] at found
  have up : ∀ u v, p = u ++ v → v ≠ [] → u.getLast? = some SLASH → t.IsDir u := by
    rintro u v rfl rest slash
    exact above u ⟨List.prefix_append u v, slash⟩ (by simpa using rest.symm)
  obtain ⟨u, c, split, ready, plain⟩ := split_last p
  by_cases empty : c = []
  · rw [empty, List.append_nil] at split
    subst split
    have slash : p.getLast? = some SLASH := ready.resolve_left nonempty
    obtain rfl | ⟨u, rfl, slash'⟩ | ⟨u, c, rfl, ready, plain, named⟩ := slash_cases slash
    · exact absurd (isDir_root t) notDir
    · exact absurd ((isDir_again slash').mpr (up u _ rfl (by simp) slash')) notDir
    · rw [parentDir_child ready plain named (.inr rfl), Option.isSome_map]
      exact reach_of_open ready (up u (c ++ [SLASH]) (List.append_assoc ..) (by simp))
  · subst split
    rw [← List.append_nil (u ++ c), parentDir_child ready plain empty (.inl rfl), Option.isSome_map]
    exact reach_of_open ready (up u c rfl empty)

/-- The next ancestor, once those before it are directories: `mkdir` makes it one. -/
theorem isDir_mkdir_ancestor {p : Bytes} (slash : p.getLast? = some SLASH) (clear : ¬ t.NonDirectory p)
    (above : ∀ a, Ancestor p a → a ≠ p → t.IsDir a) : (t.mkdir p).IsDir p := by
  have grown := mkdir_grown t p
  obtain rfl | ⟨u, rfl, slash'⟩ | ⟨u, c, rfl, ready, plain, named⟩ := slash_cases slash
  · exact isDir_root _
  · have isDir : t.IsDir u := above u ⟨List.prefix_append u _, slash'⟩ (by simp)
    exact grown.isDir ((isDir_again slash').mpr isDir)
  · have reached : (t.reach u).isSome := by
      refine reach_of_open ready fun slash' => above u ⟨?_, slash'⟩ (by simp [named])
      exact ⟨c ++ [SLASH], (List.append_assoc ..).symm⟩
    obtain ⟨r, reached⟩ := Option.isSome_iff_exists.mp reached
    exact isDir_mkdir ready plain named reached clear

end HttpServer.Lib.FileTree
