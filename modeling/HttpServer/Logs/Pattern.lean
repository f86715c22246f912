import HttpServer.Logs.Format

/-!
# Which patterns are accepted

`parsePattern` has three ends, and the pattern language decides between them
(`parsePattern_iff`): it returns true for the patterns that read with known keys only, false
for those that do not read at all, and ends the process for those that read with some other
key, since `creatItem` calls `abort` on it.
-/

namespace HttpServer.Logs
open Lib

/-- The conversion specifiers of the comment above `Formatter`. -/
def KEYS : Bytes := ascii "dtcflpTmn"

/-- A token whose key, if it has one, is listed. -/
def Token.Known : Token → Prop
  | .specifier key _ => key ∈ KEYS
  | _ => True

theorem creatItem_literal (val : Bytes) : (creatItem [] val).isSome = true := by
  simp [creatItem, ascii]

/-- A key gets an item exactly if it is listed. -/
theorem creatItem_isSome_iff (key : UInt8) (val : Bytes) : (creatItem [key] val).isSome = true ↔ key ∈ KEYS := by
  have keys : KEYS = [100, 116, 99, 102, 108, 112, 84, 109, 110] := by decide
  rw [keys]
  simp only [creatItem, ascii, List.mem_cons, List.not_mem_nil, or_false]
  constructor
  · intro created
    by_contra other
    simp only [not_or] at other
    simp [other] at created
  · intro listed
    rcases listed with rfl | rfl | rfl | rfl | rfl | rfl | rfl | rfl | rfl <;> simp

theorem mapM_isSome_iff {α β : Type*} (f : α → Option β) (entries : List α) :
    (entries.mapM f).isSome = true ↔ ∀ e ∈ entries, (f e).isSome = true := by
  induction entries with
  | nil => simp
  | cons e entries ih =>
    rw [List.mapM_cons, List.forall_mem_cons, ← ih]
    cases made : f e with
    | none => simp
    | some item => cases rest : entries.mapM f <;> simp

theorem creates_flush (val : Bytes) : ∀ e ∈ flush val, (creatItem e.1 e.2).isSome = true := by
  intro e mem
  unfold flush at mem
  split at mem
  · cases mem
  · rw [List.mem_singleton.mp mem]
    exact creatItem_literal val

/-- The second pass makes an item of every entry exactly if all keys are known. -/
theorem creates_entries_iff (tokens : List Token) (val : Bytes) :
    (∀ e ∈ entries val tokens, (creatItem e.1 e.2).isSome = true) ↔ ∀ t ∈ tokens, t.Known := by
  induction tokens generalizing val with
  | nil => simp [entries]
  | cons token tokens ih =>
    rw [List.forall_mem_cons]
    cases token with
    | literal b => rw [entries, ih, and_iff_right (show (Token.literal b).Known from trivial)]
    | percent => rw [entries, ih, and_iff_right (show Token.percent.Known from trivial)]
    | specifier key sub =>
      rw [entries, List.forall_mem_append, List.forall_mem_cons, and_iff_right (creates_flush val),
        creatItem_isSome_iff, ih]
      exact Iff.rfl

/-- What the loop comes to: the entries of a pattern that reads, or false. -/
theorem parseLoop_eq (pattern : Bytes) :
    (∃ tokens, Reads pattern tokens ∧
      ∀ rounds, pattern.length < rounds → parseLoop rounds pattern [] [] = some (some (entries [] tokens))) ∨
    ((¬ ∃ tokens, Reads pattern tokens) ∧
      ∀ rounds, pattern.length < rounds → parseLoop rounds pattern [] [] = some none) := by
  by_cases readable : ∃ tokens, Reads pattern tokens
  · obtain ⟨tokens, reads⟩ := readable
    exact .inl ⟨tokens, reads, fun rounds enough => parseLoop_reads reads enough [] []⟩
  · refine .inr ⟨readable, fun rounds enough => ?_⟩
    obtain ⟨collected, ended⟩ := Option.isSome_iff_exists.mp (parseLoop_isSome enough [] [])
    cases collected with
    | none => exact ended
    | some fmtOrder => exact absurd (reads_of_parseLoop ended) readable

/-- The three ends of `parsePattern`. -/
theorem parsePattern_cases (pattern : Bytes) :
    (∃ items tokens, parsePattern pattern = .accepted items ∧ Reads pattern tokens ∧ ∀ t ∈ tokens, t.Known) ∨
    (∃ tokens, parsePattern pattern = .aborted ∧ Reads pattern tokens ∧ ∃ t ∈ tokens, ¬ t.Known) ∨
    (parsePattern pattern = .refused ∧ ¬ ∃ tokens, Reads pattern tokens) := by
  rcases parseLoop_eq pattern with ⟨tokens, reads, found⟩ | ⟨unreadable, refused⟩
  · have created :=
      (mapM_isSome_iff (fun it : Bytes × Bytes => creatItem it.1 it.2) _).trans (creates_entries_iff tokens [])
    rw [parsePattern, parsed_eq (found _ (Nat.lt_succ_self _))]
    cases made : (entries [] tokens).mapM fun it => creatItem it.1 it.2 with
    | none =>
      rw [made] at created
      refine .inr (.inl ⟨tokens, by simp only [made], reads, ?_⟩)
      simpa using created
    | some items =>
      rw [made] at created
      exact .inl ⟨items, tokens, by simp only [made], reads, created.mp (by simp)⟩
  · exact .inr (.inr ⟨by rw [parsePattern, parsed_eq (refused _ (Nat.lt_succ_self _))], unreadable⟩)

/-- **Acceptance, exactly.** For every string the loop of `parsePattern` ends within a round for
each byte. It returns true exactly for the patterns that read with listed keys only, returns
false exactly for those that do not read, and ends the process exactly for those that read
with a key that is not listed. -/
theorem parsePattern_iff (pattern : Bytes) :
    (∃ collected, ∀ rounds, pattern.length < rounds → parseLoop rounds pattern [] [] = some collected) ∧
    ((∃ items, parsePattern pattern = .accepted items) ↔ ∃ tokens, Reads pattern tokens ∧ ∀ t ∈ tokens, t.Known) ∧
    (parsePattern pattern = .refused ↔ ¬ ∃ tokens, Reads pattern tokens) ∧
    (parsePattern pattern = .aborted ↔ ∃ tokens, Reads pattern tokens ∧ ∃ t ∈ tokens, ¬ t.Known) := by
  constructor
  · rcases parseLoop_eq pattern with ⟨tokens, -, found⟩ | ⟨-, refused⟩
    · exact ⟨_, found⟩
    · exact ⟨_, refused⟩
  · rcases parsePattern_cases pattern with
      ⟨items, tokens, accepted, reads, known⟩ | ⟨tokens, aborted, reads, t, mem, unknown⟩ | ⟨refused, unreadable⟩
    · rw [accepted]
      refine ⟨iff_of_true ⟨items, rfl⟩ ⟨tokens, reads, known⟩, ?_, ?_⟩
      · exact iff_of_false (fun other => by cases other) (not_not_intro ⟨tokens, reads⟩)
      · refine iff_of_false (fun other => by cases other) ?_
        rintro ⟨tokens', reads', t, mem, unknown⟩
        rw [reads_unique reads reads'] at mem
        exact unknown (known t mem)
    · rw [aborted]
      refine ⟨iff_of_false ?_ ?_, ?_, ?_⟩
      · rintro ⟨items, other⟩
        cases other
      · rintro ⟨tokens', reads', known⟩
        rw [reads_unique reads reads'] at known
        exact unknown (known t mem)
      · exact iff_of_false (fun other => by cases other) (not_not_intro ⟨tokens, reads⟩)
      · exact iff_of_true rfl ⟨tokens, reads, t, mem, unknown⟩
    · rw [refused]
      refine ⟨iff_of_false ?_ ?_, iff_of_true rfl unreadable, iff_of_false (fun other => by cases other) ?_⟩
      · rintro ⟨items, other⟩
        cases other
      · exact fun ⟨tokens, reads, _⟩ => unreadable ⟨tokens, reads⟩
      · exact fun ⟨tokens, reads, _⟩ => unreadable ⟨tokens, reads⟩

/-- `%x` is no pattern with listed keys, but in place of returning false the process ends. -/
theorem parsePattern_aborts :
    (¬ ∃ tokens, Reads (ascii "%x") tokens ∧ ∀ t ∈ tokens, t.Known) ∧ parsePattern (ascii "%x") = .aborted := by
  have reads : Reads (ascii "%x") [.specifier 120 none] := .specifier (by decide) (by decide) .nil
  refine ⟨?_, by decide⟩
  rintro ⟨tokens, reads', known⟩
  rw [reads_unique reads reads', List.forall_mem_singleton] at known
  exact absurd known (by decide : (120 : UInt8) ∉ KEYS)

end HttpServer.Logs
