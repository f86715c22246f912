import HttpServer.Cgi.Comm
import HttpServer.Lib.SqlText

/-!
# The registration program

`cgi/mysql_cgi.cc`: the values of the two fields of a form are put between quotes into an SQL
statement, as they are. The statement that is meant has two literals with these values
(`insertTokens`); `sqlText_iff` says for which forms the text is that statement.
-/

namespace HttpServer.Cgi.Mysql
open Lib Lib.Sql

/-! ## The program -/

def sqlName (queryString : Bytes) : Bytes :=
  let name := (cutString queryString (ascii "&") [] []).1
  (cutString name (ascii "=") [] []).2

def sqlPasswd (queryString : Bytes) : Bytes :=
  let passwd := (cutString queryString (ascii "&") [] []).2
  (cutString passwd (ascii "=") [] []).2

/-- The text that `main` passes to `InsertSql`. -/
def sqlText (queryString : Bytes) : Bytes :=
  ascii "insert into user(name, passwd) values ('" ++ sqlName queryString ++ ascii "','" ++ sqlPasswd queryString ++
    ascii "')"

/-- `InsertSql(sql)`: the query sent, if the server can be reached, and the result. Both ways out
return true. -/
def insertSql (connects : Bool) (sql : Bytes) : Option Bytes × Bool :=
  if connects then (some (cStr sql), true) else (none, true)

/-- The page of a registration that succeeded; the text in it is UTF-8. -/
def page : Bytes :=
  ascii "<html>" ++ ascii "<head><meta charset=\"utf-8\"></head>" ++
    (ascii "<body><h1>" ++ [230, 179, 168, 229, 134, 140, 230, 136, 144, 229, 138, 159] ++ ascii "!</h1></body>")

/-- What a run does: the text given to `InsertSql`, the query sent, and the page. -/
structure Outcome where
  inserted : Option Bytes
  sent : Option Bytes
  stdout : Bytes
  deriving DecidableEq, Repr

/-- `main`. -/
def main (connects : Bool) (environ : Environ) (stdin : Bytes) : Option Outcome :=
  (getQueryString environ stdin []).map fun read =>
    if read.result then
      let sql := sqlText read.queryString
      let inserted := insertSql connects sql
      ⟨some sql, inserted.1, if inserted.2 then page else []⟩
    else ⟨none, none, []⟩

/-- A form that was read is given to `InsertSql` and answered by the page, whether or not the
server was reached. -/
theorem main_inserted (connects : Bool) {environ : Environ} {stdin queryString rest : Bytes}
    (read : getQueryString environ stdin [] = some ⟨true, queryString, rest⟩) :
    main connects environ stdin =
      some ⟨some (sqlText queryString), if connects then some (cStr (sqlText queryString)) else none, page⟩ := by
  unfold main insertSql
  rw [read]
  cases connects <;> simp

/-! ## The statement that is meant -/

/-- `insert into user(name, passwd) values (A,B)`, with literals of these values. -/
def insertTokens (name passwd : Bytes) : List Token :=
  (ascii "insert into user(name, passwd) values (").map .byte ++
    [.literal name, .byte 44, .literal passwd, .byte 41]

theorem sqlName_eq (queryString : Bytes) : sqlName queryString = firstValue queryString := by
  have amp : ascii "&" = [38] := rfl
  have equals : ascii "=" = [61] := rfl
  simp only [sqlName, amp, equals, cutString_byte, firstValue]

theorem sqlPasswd_eq (queryString : Bytes) : sqlPasswd queryString = secondValue queryString := by
  have amp : ascii "&" = [38] := rfl
  have equals : ascii "=" = [61] := rfl
  simp only [sqlPasswd, amp, equals, cutString_byte, secondValue]

/-- The text is the statement with nothing escaped. -/
theorem sqlText_eq (queryString : Bytes) :
    sqlText queryString = spell (insertTokens (sqlName queryString) (sqlPasswd queryString)) := by
  have last : spell [] = [] := by simp [spell]
  unfold sqlText insertTokens
  rw [spell_append, spell_bytes, spell_literal, spell_byte, spell_literal, spell_byte, last]
  simp [ascii, quote]

theorem separated_insertTokens (name passwd : Bytes) : Separated (insertTokens name passwd) := by
  unfold insertTokens
  rw [separated_bytes (by decide)]
  simp [Separated, quote]

theorem literals_insertTokens {name passwd : Bytes} :
    (∀ v, Token.literal v ∈ insertTokens name passwd → Plain v) ↔ Plain name ∧ Plain passwd := by
  simp [insertTokens]

theorem nul_sqlText (queryString : Bytes) :
    0 ∉ sqlText queryString ↔ 0 ∉ sqlName queryString ∧ 0 ∉ sqlPasswd queryString := by
  simp [sqlText, ascii]

/-- A cut text cannot hold all tokens. -/
theorem cut_sqlText {queryString : Bytes} (cut : 0 ∈ sqlText queryString) :
    lex (cStr (sqlText queryString)) ≠ some (insertTokens (sqlName queryString) (sqlPasswd queryString)) := by
  intro read
  have least := (lex_shortest read).1
  rw [← sqlText_eq] at least
  have whole := (List.takeWhile_prefix _).eq_of_length_le least
  have other := List.takeWhile_eq_self_iff.mp whole 0 cut
  simp at other

/-- **Values in literals, exactly.** For every form, the text given to `InsertSql` reads as the
statement that is meant if and only if both values are plain; the query sent does if they have
no NUL in them either. -/
theorem sqlText_iff (queryString : Bytes) :
    (lex (sqlText queryString) = some (insertTokens (sqlName queryString) (sqlPasswd queryString)) ↔
      Plain (firstValue queryString) ∧ Plain (secondValue queryString)) ∧
    (lex (cStr (sqlText queryString)) = some (insertTokens (sqlName queryString) (sqlPasswd queryString)) ↔
      Plain (firstValue queryString) ∧ Plain (secondValue queryString) ∧
        0 ∉ firstValue queryString ∧ 0 ∉ secondValue queryString) := by
  have text : lex (sqlText queryString) = some (insertTokens (sqlName queryString) (sqlPasswd queryString)) ↔
      Plain (firstValue queryString) ∧ Plain (secondValue queryString) := by
    rw [sqlText_eq, lex_spell_iff (separated_insertTokens _ _), literals_insertTokens, sqlName_eq, sqlPasswd_eq]
  refine ⟨text, ?_⟩
  have nul := nul_sqlText queryString
  rw [sqlName_eq, sqlPasswd_eq] at nul
  by_cases clean : 0 ∈ sqlText queryString
  · constructor
    · exact fun read => absurd read (cut_sqlText clean)
    · rintro ⟨-, -, absent⟩
      exact absurd clean (nul.mpr absent)
  · rw [cStr_eq_self clean, text, and_iff_left (nul.mp clean)]

/-- A quote in the name ends its literal: the form of a user `a'` is not the statement that is
meant, and one form registers two users. -/
theorem sqlText_breaks :
    lex (sqlText (ascii "name=a'&passwd=b")) ≠ some (insertTokens (ascii "a'") (ascii "b")) ∧
    lex (sqlText (ascii "name=x','y'),('root&passwd=z")) =
      some ((ascii "insert into user(name, passwd) values (").map .byte ++
        [.literal (ascii "x"), .byte 44, .literal (ascii "y"), .byte 41, .byte 44, .byte 40,
          .literal (ascii "root"), .byte 44, .literal (ascii "z"), .byte 41]) := by
  constructor
  · have text : sqlText (ascii "name=a'&passwd=b") = spell (insertTokens (ascii "a'") (ascii "b")) := by decide
    rw [text, ne_eq, lex_spell_iff (separated_insertTokens _ _), literals_insertTokens]
    exact fun plain => absurd plain.1.1 (by decide)
  · have text : sqlText (ascii "name=x','y'),('root&passwd=z") =
        spell ((ascii "insert into user(name, passwd) values (").map .byte ++
          [.literal (ascii "x"), .byte 44, .literal (ascii "y"), .byte 41, .byte 44, .byte 40,
            .literal (ascii "root"), .byte 44, .literal (ascii "z"), .byte 41]) := by
      decide
    rw [text]
    apply lex_spell
    case separated =>
      rw [separated_bytes (by decide)]
      simp [Separated, quote]
    case plain =>
      intro v mem
      have among : v ∈ [ascii "x", ascii "y", ascii "root", ascii "z"] := by simpa using mem
      exact (show ∀ w ∈ [ascii "x", ascii "y", ascii "root", ascii "z"], Plain w by decide) v among

end HttpServer.Cgi.Mysql
