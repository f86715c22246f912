import HttpServer.Lib.Bytes

/-!
# `Utill`: the line reader and the string splitter

`recv` on a connection is modelled by the bytes still unread and by what follows the last
of them: the peer closed the connection, or the read fails. `readLine` is the byte loop
with its one-byte look-ahead: `CR LF` and a `CR` not followed by `LF`, also at the end of
the stream, both end the line as one `LF`. Its result is the length of `out` as an `int`.
-/

namespace HttpServer.Net
open Lib

def CR : UInt8 := 13
def LF : UInt8 := 10

/-- What follows the last byte of a connection. -/
inductive StreamEnd where
  | closed
  | error
  deriving DecidableEq, Repr

/-- The return value of `recv` when no byte is left. -/
def StreamEnd.ret : StreamEnd → Int
  | .closed => 0
  | .error => -1

/-- A connected socket, as its reader sees it. -/
structure Sock where
  unread : Bytes
  fin : StreamEnd
  deriving DecidableEq, Repr

/-- What one call of `ReadLine` leaves behind. -/
structure LineRead where
  ret : Int
  out : Bytes
  unread : Bytes
  deriving DecidableEq, Repr

/-- The loop of `ReadLine` on the unread bytes, with `out` built so far. -/
def readLineLoop (fin : StreamEnd) : Bytes → Bytes → LineRead
  | [], out => ⟨fin.ret, out, []⟩
  | ch :: rest, out =>
    if ch = CR then
      match rest with
      | [] => ⟨int32 (out ++ [LF]).length, out ++ [LF], []⟩
      | peeked :: rest' =>
        if peeked = LF then ⟨int32 (out ++ [LF]).length, out ++ [LF], rest'⟩
        else ⟨int32 (out ++ [LF]).length, out ++ [LF], peeked :: rest'⟩
    else if ch = LF then ⟨int32 (out ++ [LF]).length, out ++ [LF], rest⟩
    else readLineLoop fin rest (out ++ [ch])

/-- `Utill::ReadLine(sock, out)`. -/
def readLine (io : Sock) (out : Bytes) : LineRead := readLineLoop io.fin io.unread out

/-- What `CutString` returns and leaves in its two outputs. -/
structure Cut where
  found : Bool
  sub1 : Bytes
  sub2 : Bytes
  deriving DecidableEq, Repr

/-- `Utill::CutString(target, sub1, sub2, sep)`. -/
def cutString (target sub1 sub2 sep : Bytes) : Cut :=
  match find sep target with
  | some pos => ⟨true, target.take pos, target.drop (pos + sep.length)⟩
  | none => ⟨false, sub1, sub2⟩

/-! ## Lines of a byte stream -/

/-- A line terminator. -/
inductive Eol where
  | lf
  | crlf
  | cr
  deriving DecidableEq, Repr

def Eol.bytes : Eol → Bytes
  | .lf => [LF]
  | .crlf => [CR, LF]
  | .cr => [CR]

/-- `content` ended by `eol` is a line of a stream that goes on with `rest`: the content has
no terminator in it, and a lone `CR` is not the first half of a `CR LF`. -/
structure IsLine (content : Bytes) (eol : Eol) (rest : Bytes) : Prop where
  noCR : CR ∉ content
  noLF : LF ∉ content
  lone : eol = .cr → rest.head? ≠ some LF

theorem IsLine.tail {ch : UInt8} {content rest : Bytes} {eol : Eol} (line : IsLine (ch :: content) eol rest) :
    ch ≠ CR ∧ ch ≠ LF ∧ IsLine content eol rest := by
  obtain ⟨noCR, noLF, lone⟩ := line
  simp only [List.mem_cons, not_or] at noCR noLF
  exact ⟨Ne.symm noCR.1, Ne.symm noLF.1, noCR.2, noLF.2, lone⟩

/-- One terminator is read as one `LF`, and nothing after it is consumed. -/
theorem readLineLoop_eol {fin : StreamEnd} {eol : Eol} {rest out : Bytes} (line : IsLine [] eol rest) :
    readLineLoop fin (eol.bytes ++ rest) out = ⟨int32 (out ++ [LF]).length, out ++ [LF], rest⟩ := by
  cases eol with
  | lf => simp [readLineLoop, Eol.bytes, CR, LF]
  | crlf => simp [readLineLoop, Eol.bytes]
  | cr =>
    cases rest with
    | nil => simp [readLineLoop, Eol.bytes]
    | cons b rest =>
      have other : b ≠ LF := fun eq => line.lone rfl (by simp [eq])
      simp [readLineLoop, Eol.bytes, other]

/-- **A line is read exactly**: its content and one `LF` are appended, the rest is unread. -/
theorem readLineLoop_line {fin : StreamEnd} {content : Bytes} {eol : Eol} {rest out : Bytes}
    (line : IsLine content eol rest) :
    readLineLoop fin (content ++ eol.bytes ++ rest) out =
      ⟨int32 (out ++ content ++ [LF]).length, out ++ content ++ [LF], rest⟩ := by
  induction content generalizing out with
  | nil => simpa using readLineLoop_eol line
  | cons ch content ih =>
    obtain ⟨notCR, notLF, line⟩ := line.tail
    simp only [List.cons_append, readLineLoop, if_neg notCR, if_neg notLF, ih line]
    simp

/-- Without a terminator the whole stream is appended and the call fails. -/
theorem readLineLoop_open {fin : StreamEnd} {s out : Bytes} (noCR : CR ∉ s) (noLF : LF ∉ s) :
    readLineLoop fin s out = ⟨fin.ret, out ++ s, []⟩ := by
  induction s generalizing out with
  | nil => simp [readLineLoop]
  | cons ch s ih =>
    simp only [List.mem_cons, not_or] at noCR noLF
    simp [readLineLoop, Ne.symm noCR.1, Ne.symm noLF.1, ih noCR.2 noLF.2]

/-- A stream has no terminator at all, or begins with a line. -/
theorem line_or_open (s : Bytes) :
    (CR ∉ s ∧ LF ∉ s) ∨ ∃ content eol rest, s = content ++ Eol.bytes eol ++ rest ∧ IsLine content eol rest := by
  induction s with
  | nil => simp
  | cons ch s ih =>
    by_cases cr : ch = CR
    · subst cr
      right
      by_cases crlf : s.head? = some LF
      · obtain ⟨rest, rfl⟩ := List.head?_eq_some_iff.mp crlf
        exact ⟨[], .crlf, rest, rfl, by simp, by simp, by simp⟩
      · exact ⟨[], .cr, s, rfl, by simp, by simp, fun _ => crlf⟩
    by_cases lf : ch = LF
    · subst lf
      exact .inr ⟨[], .lf, s, rfl, by simp, by simp, by simp⟩
    rcases ih with ⟨noCR, noLF⟩ | ⟨content, eol, rest, rfl, line⟩
    · exact .inl ⟨by simp [Ne.symm cr, noCR], by simp [Ne.symm lf, noLF]⟩
    · exact .inr ⟨ch :: content, eol, rest, by simp, by simp [Ne.symm cr, line.noCR],
        by simp [Ne.symm lf, line.noLF], line.lone⟩

theorem Eol.bytes_length_pos (eol : Eol) : 0 < eol.bytes.length := by cases eol <;> decide

end HttpServer.Net
