import HttpServer.Lib.Bytes
import Mathlib.Data.List.Chain

/-!
# SQL text and its string literals

MySQL reads a literal from one single quote to the next; a doubled quote is one quote of the
value, and a backslash escapes the byte behind it (`unescape`). `lex` cuts a text into literals
and the bytes between them, and `spell` writes tokens without escaping anything. Reading never
makes a text longer, so a text as short as the spelling of its tokens is that spelling, and
its values are plain (`lex_shortest`): what is spelled is read back exactly if all values are
(`lex_spell_iff`).
-/

namespace HttpServer.Lib.Sql

def quote : UInt8 := 39
def backslash : UInt8 := 92

/-- What a backslash before `b` and `b` stand for: `\0`, `\b`, `\n`, `\r`, `\t`, `\Z`; before `%`
and `_` the backslash stays, before any other byte it goes. -/
def unescape (b : UInt8) : Bytes :=
  if b = 48 then [0]
  else if b = 98 then [8]
  else if b = 110 then [10]
  else if b = 114 then [13]
  else if b = 116 then [9]
  else if b = 90 then [26]
  else if b = 37 ∨ b = 95 then [backslash, b]
  else [b]

/-- A value begins with these bytes. -/
def before (bytes : Bytes) (read : Bytes × Bytes) : Bytes × Bytes := (bytes ++ read.1, read.2)

/-- The value of the literal whose opening quote has been read, and what follows it. -/
def literal : Bytes → Option (Bytes × Bytes)
  | [] => none
  | b :: t =>
    if b = quote then
      match t with
      | [] => some ([], [])
      | c :: u => if c = quote then (literal u).map (before [quote]) else some ([], c :: u)
    else if b = backslash then
      match t with
      | [] => none
      | c :: u => (literal u).map (before (unescape c))
    else (literal t).map (before [b])

inductive Token where
  | byte (b : UInt8)
  | literal (value : Bytes)
  deriving DecidableEq, Repr

/-- The lexer on a text, with fuel. -/
def lexFrom : Nat → Bytes → Option (List Token)
  | 0, _ => none
  | _ + 1, [] => some []
  | fuel + 1, b :: t =>
    if b = quote then (literal t).bind fun read => (lexFrom fuel read.2).map (.literal read.1 :: ·)
    else (lexFrom fuel t).map (.byte b :: ·)

/-- The tokens of a text; `none` if its last literal is not closed. -/
def lex (text : Bytes) : Option (List Token) := lexFrom (text.length + 1) text

/-- A token as it is written when nothing is escaped. -/
def Token.spell : Token → Bytes
  | .byte b => [b]
  | .literal value => quote :: (value ++ [quote])

def spell (tokens : List Token) : Bytes := tokens.flatMap Token.spell

/-- A value that can stand between quotes as it is: no quote, and behind every backslash a `%` or
a `_`. -/
def Plain (value : Bytes) : Prop :=
  quote ∉ value ∧ (value ++ [quote]).IsChain fun b c => b = backslash → c = 37 ∨ c = 95

instance (value : Bytes) : Decidable (Plain value) := by
  unfold Plain
  infer_instance

/-- No byte opens a literal, and no two literals touch. -/
def Separated : List Token → Prop
  | [] => True
  | .byte b :: tokens => b ≠ quote ∧ Separated tokens
  | .literal _ :: tokens => (∀ value, tokens.head? ≠ some (.literal value)) ∧ Separated tokens

variable {b c : UInt8} {t r v : Bytes} {tokens : List Token}

theorem unescape_length (b : UInt8) :
    (unescape b).length ≤ 2 ∧ ((unescape b).length = 2 → (b = 37 ∨ b = 95) ∧ unescape b = [backslash, b]) := by
  unfold unescape
  split_ifs <;> simp_all

/-! ## Values as they are -/

theorem plain_nil : Plain [] := by simp [Plain]

theorem plain_cons (other : b ≠ quote) (plain : b ≠ backslash) : Plain (b :: v) ↔ Plain v := by
  simp [Plain, List.isChain_cons, Ne.symm other, plain]

theorem plain_escape (kept : c = 37 ∨ c = 95) : Plain (backslash :: c :: v) ↔ Plain v := by
  have other : c ≠ quote ∧ c ≠ backslash := by rcases kept with rfl | rfl <;> decide
  rw [← plain_cons other.1 other.2 (v := v)]
  simp [Plain, List.isChain_cons_cons, kept, quote, backslash]

/-! ## Reading a literal -/

theorem of_before {bytes : Bytes} {read : Option (Bytes × Bytes)} (eq : read.map (before bytes) = some (v, r)) :
    ∃ w, read = some (w, r) ∧ v = bytes ++ w := by
  obtain ⟨⟨w, r'⟩, rest, same⟩ := Option.map_eq_some_iff.mp eq
  obtain ⟨rfl, rfl⟩ := Prod.mk.inj same
  exact ⟨w, rest, rfl⟩

theorem literal_close (apart : r.head? ≠ some quote) : literal (quote :: r) = some ([], r) := by
  cases r with
  | nil => simp [literal]
  | cons c u =>
    have other : c ≠ quote := by simpa using apart
    simp [literal, other]

theorem literal_doubled (u : Bytes) : literal (quote :: quote :: u) = (literal u).map (before [quote]) := by
  simp [literal]

theorem literal_escape (c : UInt8) (u : Bytes) :
    literal (backslash :: c :: u) = (literal u).map (before (unescape c)) := by
  simp [literal, quote, backslash]

theorem literal_byte (other : b ≠ quote) (plain : b ≠ backslash) (t : Bytes) :
    literal (b :: t) = (literal t).map (before [b]) := by
  rw [literal.eq_def]
  simp only [other, plain, if_false]

/-- A byte that is no quote and escapes at most a `%` or a `_` is a byte of the value. -/
theorem literal_cons (other : b ≠ quote) (next : b = backslash → ∃ c u, t = c :: u ∧ (c = 37 ∨ c = 95)) :
    literal (b :: t) = (literal t).map (before [b]) := by
  by_cases escapes : b = backslash
  · obtain ⟨c, u, rfl, kept⟩ := next escapes
    have value : unescape c = [backslash, c] ∧ c ≠ quote ∧ c ≠ backslash := by
      rcases kept with rfl | rfl <;> decide
    rw [literal_byte value.2.1 value.2.2, escapes, literal_escape, value.1]
    cases literal u <;> simp [before]
  · exact literal_byte other escapes t

/-- A plain value between quotes is read as it is. -/
theorem literal_plain (plain : Plain v) (apart : r.head? ≠ some quote) : literal (v ++ quote :: r) = some (v, r) := by
  induction v with
  | nil => exact literal_close apart
  | cons b v ih =>
    obtain ⟨absent, chain⟩ := plain
    rw [List.mem_cons, not_or] at absent
    rw [List.cons_append, List.isChain_cons] at chain
    have next (escapes : b = backslash) : ∃ c u, v ++ quote :: r = c :: u ∧ (c = 37 ∨ c = 95) := by
      cases v with
      | nil => exact absurd (chain.1 quote (by simp) escapes) (by decide)
      | cons c u => exact ⟨c, u ++ quote :: r, rfl, chain.1 c (by simp) escapes⟩
    rw [List.cons_append, literal_cons (Ne.symm absent.1) next, ih ⟨absent.2, chain.2⟩]
    simp [before]

/-- Reading a literal takes at least the bytes of its value and the closing quote, and only a plain
value takes no more. -/
theorem literal_shortest (read : literal t = some (v, r)) :
    v.length + 1 + r.length ≤ t.length ∧
      (t.length = v.length + 1 + r.length → t = v ++ quote :: r ∧ Plain v) := by
  induction t using literal.induct generalizing v with
  | case1 => cases read
  | case2 =>
    cases read
    simp [plain_nil]
  | case3 u ih =>
    rw [literal_doubled] at read
    obtain ⟨w, rest, rfl⟩ := of_before read
    have least := (ih rest).1
    simp only [List.length_cons, List.length_append, List.length_nil]
    omega
  | case4 c u other =>
    rw [literal_close (by simpa using other)] at read
    cases read
    simp only [List.length_cons, List.length_nil, List.nil_append]
    exact ⟨by omega, fun _ => ⟨trivial, plain_nil⟩⟩
  | case5 => simp [literal, quote, backslash] at read
  | case6 c u _ ih =>
    rw [literal_escape] at read
    obtain ⟨w, rest, rfl⟩ := of_before read
    obtain ⟨least, tight⟩ := ih rest
    obtain ⟨short, kept⟩ := unescape_length c
    simp only [List.length_cons, List.length_append]
    refine ⟨by omega, fun same => ?_⟩
    obtain ⟨wild, value⟩ := kept (by omega)
    obtain ⟨rfl, plain⟩ := tight (by omega)
    rw [value]
    exact ⟨rfl, (plain_escape wild).mpr plain⟩
  | case7 b t other single ih =>
    rw [literal_byte other single] at read
    obtain ⟨w, rest, rfl⟩ := of_before read
    obtain ⟨least, tight⟩ := ih rest
    simp only [List.length_cons, List.length_append, List.length_nil]
    refine ⟨by omega, fun same => ?_⟩
    obtain ⟨rfl, plain⟩ := tight (by omega)
    exact ⟨rfl, (plain_cons other single).mpr plain⟩

/-! ## Reading a text -/

theorem separated_bytes {s : Bytes} (absent : quote ∉ s) :
    Separated (s.map .byte ++ tokens) ↔ Separated tokens := by
  induction s with
  | nil => simp
  | cons b s ih =>
    rw [List.mem_cons, not_or] at absent
    simp [Separated, ih absent.2, Ne.symm absent.1]

theorem spell_append (first second : List Token) : spell (first ++ second) = spell first ++ spell second := by
  simp [spell]

theorem spell_bytes (s : Bytes) : spell (s.map .byte) = s := by
  simp [spell, List.flatMap_map, Token.spell]

theorem spell_byte (b : UInt8) (tokens : List Token) : spell (.byte b :: tokens) = b :: spell tokens := by
  simp [spell, Token.spell]

theorem spell_literal (v : Bytes) (tokens : List Token) :
    spell (.literal v :: tokens) = quote :: (v ++ quote :: spell tokens) := by
  simp [spell, Token.spell]

/-- What follows a literal does not double its closing quote. -/
theorem Separated.apart (separated : Separated (.literal v :: tokens)) : (spell tokens).head? ≠ some quote := by
  cases tokens with
  | nil => simp [spell]
  | cons next tokens =>
    cases next with
    | byte b => simpa [spell_byte] using separated.2.1
    | literal w => exact absurd rfl (separated.1 w)

/-- Separated tokens with plain values are read back. -/
theorem lexFrom_spell (separated : Separated tokens) (plain : ∀ v, .literal v ∈ tokens → Plain v) {fuel : Nat}
    (enough : (spell tokens).length < fuel) : lexFrom fuel (spell tokens) = some tokens := by
  induction tokens generalizing fuel with
  | nil =>
    obtain ⟨fuel, rfl⟩ := Nat.exists_eq_succ_of_ne_zero (Nat.ne_zero_of_lt enough)
    simp [spell, lexFrom]
  | cons token tokens ih =>
    obtain ⟨fuel, rfl⟩ := Nat.exists_eq_succ_of_ne_zero (Nat.ne_zero_of_lt enough)
    have rest : ∀ v, .literal v ∈ tokens → Plain v := fun v mem => plain v (List.mem_cons_of_mem _ mem)
    cases token with
    | byte b =>
      rw [spell_byte, List.length_cons] at enough
      rw [spell_byte, lexFrom, if_neg separated.1, ih separated.2 rest (by omega), Option.map_some]
    | literal v =>
      rw [spell_literal, List.length_cons, List.length_append, List.length_cons] at enough
      have read := literal_plain (plain v (by simp)) separated.apart
      rw [spell_literal, lexFrom, if_pos rfl, read, Option.bind_some, ih separated.2 rest (by omega), Option.map_some]

/-- No text is shorter than the spelling of its tokens, and only that spelling, with plain values, is
as short. -/
theorem lexFrom_shortest {fuel : Nat} (read : lexFrom fuel t = some tokens) :
    (spell tokens).length ≤ t.length ∧
      (t.length = (spell tokens).length → t = spell tokens ∧ ∀ v, .literal v ∈ tokens → Plain v) := by
  induction fuel generalizing t tokens with
  | zero => cases read
  | succ fuel ih =>
    cases t with
    | nil =>
      cases read
      simp [spell]
    | cons b t =>
      unfold lexFrom at read
      split_ifs at read with opens
      · obtain ⟨⟨v, r⟩, value, read⟩ := Option.bind_eq_some_iff.mp read
        obtain ⟨tokens, behind, rfl⟩ := Option.map_eq_some_iff.mp read
        simp only at behind
        obtain ⟨least, tight⟩ := literal_shortest value
        obtain ⟨least', tight'⟩ := ih behind
        simp only [spell_literal, List.length_cons, List.length_append]
        refine ⟨by omega, fun same => ?_⟩
        obtain ⟨rfl, plain⟩ := tight (by omega)
        obtain ⟨rfl, plains⟩ := tight' (by omega)
        refine ⟨by rw [opens], fun w mem => ?_⟩
        rcases List.mem_cons.mp mem with same | mem
        · rw [Token.literal.inj same]
          exact plain
        · exact plains w mem
      · obtain ⟨tokens, behind, rfl⟩ := Option.map_eq_some_iff.mp read
        obtain ⟨least, tight⟩ := ih behind
        rw [spell_byte, List.length_cons, List.length_cons]
        refine ⟨by omega, fun same => ?_⟩
        obtain ⟨rfl, plains⟩ := tight (by omega)
        exact ⟨rfl, fun w mem => plains w (by simpa using mem)⟩

theorem lex_shortest (read : lex t = some tokens) :
    (spell tokens).length ≤ t.length ∧
      (t.length = (spell tokens).length → t = spell tokens ∧ ∀ v, .literal v ∈ tokens → Plain v) :=
  lexFrom_shortest read

theorem lex_spell (separated : Separated tokens) (plain : ∀ v, .literal v ∈ tokens → Plain v) :
    lex (spell tokens) = some tokens := lexFrom_spell separated plain (Nat.lt_succ_self _)

/-- Separated tokens are read back exactly if their values are plain. -/
theorem lex_spell_iff (separated : Separated tokens) :
    lex (spell tokens) = some tokens ↔ ∀ v, .literal v ∈ tokens → Plain v := by
  constructor
  · exact fun read => ((lex_shortest read).2 rfl).2
  · exact lex_spell separated

end HttpServer.Lib.Sql
