import HttpServer.Net.Utill

/-!
# `ReadLine` splits a stream into lines

`readLineCh` is the loop of `ReadLine` call by call: one variable `ch` holds the byte
received, the byte peeked at and the condition of the loop. It is `readLine`
(`readLineCh_eq`). A call takes the shortest prefix that ends in a terminator, and calling it
again and again splits the stream where `unixNewlines` puts a `LF`.
-/

namespace HttpServer.Net
open Lib

/-! ## The loop, call by call -/

/-- `recv(sock, &ch, 1, 0)`: the result, `ch` and the socket after it. -/
def Sock.recv (io : Sock) (ch : UInt8) : Int × UInt8 × Sock :=
  match io.unread with
  | [] => (io.fin.ret, ch, io)
  | b :: rest => (1, b, { io with unread := rest })

/-- `recv(sock, &ch, 1, MSG_PEEK)`: `ch` after it. -/
def Sock.peek (io : Sock) (ch : UInt8) : UInt8 := io.unread.headD ch

/-- The loop of `ReadLine`, with fuel. -/
def readLineFrom : Nat → UInt8 → Sock → Bytes → LineRead
  | 0, _, io, out => ⟨-1, out, io.unread⟩
  | fuel + 1, ch, io, out =>
    if ch = LF then ⟨int32 out.length, out, io.unread⟩
    else
      let s := io.recv ch
      if 0 < s.1 then
        if s.2.1 = CR then
          if s.2.2.peek s.2.1 = LF then
            let t := s.2.2.recv (s.2.2.peek s.2.1)
            readLineFrom fuel t.2.1 t.2.2 (out ++ [t.2.1])
          else readLineFrom fuel LF s.2.2 (out ++ [LF])
        else readLineFrom fuel s.2.1 s.2.2 (out ++ [s.2.1])
      else if s.1 = 0 then ⟨0, out, s.2.2.unread⟩
      else ⟨-1, out, s.2.2.unread⟩

/-- `Utill::ReadLine(sock, out)`; `ch` starts as `X`, and every round but the last receives. -/
def readLineCh (io : Sock) (out : Bytes) : LineRead := readLineFrom (io.unread.length + 2) 88 io out

/-- With a `LF` in `ch` the loop is over. -/
theorem readLineFrom_done {fuel : Nat} (more : 0 < fuel) (io : Sock) (out : Bytes) :
    readLineFrom fuel LF io out = ⟨int32 out.length, out, io.unread⟩ := by
  obtain ⟨fuel, rfl⟩ := Nat.exists_eq_succ_of_ne_zero (Nat.ne_of_gt more)
  rw [readLineFrom, if_pos rfl]

theorem readLineFrom_eq {fuel : Nat} {ch : UInt8} {unread : Bytes} (fin : StreamEnd) (going : ch ≠ LF)
    (enough : unread.length + 1 < fuel) (out : Bytes) :
    readLineFrom fuel ch ⟨unread, fin⟩ out = readLineLoop fin unread out := by
  induction unread generalizing fuel ch out with
  | nil =>
    obtain ⟨fuel, rfl⟩ := Nat.exists_eq_succ_of_ne_zero (Nat.ne_zero_of_lt enough)
    cases fin <;> simp [readLineFrom, going, Sock.recv, StreamEnd.ret, readLineLoop]
  | cons b rest ih =>
    obtain ⟨fuel, rfl⟩ := Nat.exists_eq_succ_of_ne_zero (Nat.ne_zero_of_lt enough)
    rw [List.length_cons] at enough
    have some : 0 < fuel := by omega
    have apart : CR ≠ LF := by decide
    by_cases cr : b = CR
    · cases rest with
      | nil => simp [readLineFrom, going, Sock.recv, Sock.peek, cr, apart, readLineLoop, readLineFrom_done some]
      | cons peeked rest =>
        by_cases lf : peeked = LF
        · simp [readLineFrom, going, Sock.recv, Sock.peek, cr, lf, readLineLoop, readLineFrom_done some]
        · simp [readLineFrom, going, Sock.recv, Sock.peek, cr, lf, readLineLoop, readLineFrom_done some]
    by_cases lf : b = LF
    · simp [readLineFrom, going, Sock.recv, lf, apart.symm, readLineLoop, readLineFrom_done some]
    · have next := ih lf (show rest.length + 1 < fuel by omega) (out ++ [b])
      simpa [readLineFrom, going, Sock.recv, cr, lf, readLineLoop] using next

/-- The loop on the unread bytes is the loop of the calls. -/
theorem readLineCh_eq (io : Sock) (out : Bytes) : readLineCh io out = readLine io out :=
  readLineFrom_eq io.fin (by decide) (by simp) out

/-! ## One call -/

/-- `p`, with `rest` behind it, ends in a terminator. -/
def EndsLine (p rest : Bytes) : Prop := ∃ content eol, p = content ++ Eol.bytes eol ∧ (eol = .cr → rest.head? ≠ some LF)

theorem Eol.bytes_cases (eol : Eol) : CR ∈ eol.bytes ∨ LF ∈ eol.bytes := by
  cases eol <;> simp [Eol.bytes]

/-- A prefix longer than the content and shorter than the line ends between `CR` and `LF`. -/
theorem within_crlf {content rest p t : Bytes} {eol : Eol} (split : content ++ eol.bytes ++ rest = p ++ t)
    (longer : content.length < p.length) (shorter : p.length < (content ++ eol.bytes).length) :
    p = content ++ [CR] ∧ t.head? = some LF := by
  rw [List.length_append] at shorter
  cases eol with
  | lf =>
    simp only [Eol.bytes, List.length_singleton] at shorter
    omega
  | cr =>
    simp only [Eol.bytes, List.length_singleton] at shorter
    omega
  | crlf =>
    simp only [Eol.bytes, List.length_cons, List.length_nil] at shorter
    have whole : (content ++ [CR]) ++ LF :: rest = p ++ t := by simpa [Eol.bytes] using split
    obtain ⟨rfl, rfl⟩ := List.append_inj whole (by simp; omega)
    simp

/-- No shorter prefix than a line ends in a terminator. -/
theorem IsLine.shortest {content rest p t : Bytes} {eol : Eol} (line : IsLine content eol rest)
    (split : content ++ eol.bytes ++ rest = p ++ t) (ends : EndsLine p t) :
    (content ++ eol.bytes).length ≤ p.length := by
  by_contra shorter
  obtain ⟨c, eol', eq, lone⟩ := ends
  rcases Nat.lt_or_ge content.length p.length with longer | before
  · obtain ⟨cut, next⟩ := within_crlf split longer (Nat.not_le.mp shorter)
    rw [cut] at eq
    cases eol' with
    | cr => exact lone rfl next
    | lf =>
      have last := (List.append_inj' eq (by simp [Eol.bytes])).2
      exact absurd last (by decide)
    | crlf =>
      have last := congrArg List.getLast? eq
      simp [Eol.bytes, CR, LF] at last
  · -- a prefix of the content has neither byte of a terminator
    obtain ⟨more, whole⟩ : p <+: content :=
      List.prefix_of_prefix_length_le ⟨t, split.symm⟩ ⟨eol.bytes ++ rest, by simp⟩ before
    rw [eq] at whole
    rcases eol'.bytes_cases with cr | lf
    · exact line.noCR (by simp [← whole, cr])
    · exact line.noLF (by simp [← whole, lf])

/-! ## Call after call -/

/-- The stream with every terminator written as one `LF`. -/
def unixNewlines : Bytes → Bytes
  | [] => []
  | b :: s => if b = CR then if s.head? = some LF then unixNewlines s else LF :: unixNewlines s else b :: unixNewlines s

/-- `ReadLine` on an empty `out`, until it returns nothing positive. -/
def readLines : Nat → Sock → List LineRead
  | 0, _ => []
  | fuel + 1, io =>
    let line := readLineCh io []
    if 0 < line.ret then line :: readLines fuel ⟨line.unread, io.fin⟩ else [line]

theorem unixNewlines_plain {s : Bytes} (noCR : CR ∉ s) (t : Bytes) : unixNewlines (s ++ t) = s ++ unixNewlines t := by
  induction s with
  | nil => simp
  | cons b s ih =>
    rw [List.mem_cons, not_or] at noCR
    rw [List.cons_append, unixNewlines, if_neg (Ne.symm noCR.1), ih noCR.2, List.cons_append]

theorem unixNewlines_eol {eol : Eol} {rest : Bytes} (lone : eol = .cr → rest.head? ≠ some LF) :
    unixNewlines (eol.bytes ++ rest) = LF :: unixNewlines rest := by
  cases eol with
  | lf => simp [Eol.bytes, unixNewlines, CR, LF]
  | crlf => simp [Eol.bytes, unixNewlines, CR, LF]
  | cr => simp [Eol.bytes, unixNewlines, lone rfl]

/-- The split of a stream that begins with a line. -/
theorem splitOn_line {content rest : Bytes} {eol : Eol} (line : IsLine content eol rest) :
    (unixNewlines (content ++ eol.bytes ++ rest)).splitOn LF = content :: (unixNewlines rest).splitOn LF := by
  rw [List.append_assoc, unixNewlines_plain line.noCR, unixNewlines_eol line.lone,
    List.splitOn_append_cons_self_of_not_mem line.noLF]

theorem splitOn_open {s : Bytes} (noCR : CR ∉ s) (noLF : LF ∉ s) : (unixNewlines s).splitOn LF = [s] := by
  have same := unixNewlines_plain noCR []
  rw [List.append_nil, unixNewlines, List.append_nil] at same
  rw [same, List.splitOn_eq_singleton noLF]

/-- What the calls return and append: the lines with a `LF`, then 0 and the rest. -/
def results (lines : List Bytes) (rest : Bytes) : List (Int × Bytes) :=
  lines.map (fun line => ((line.length : Int) + 1, line ++ [LF])) ++ [(0, rest)]

theorem readLine_line {content rest out : Bytes} {eol : Eol} (line : IsLine content eol rest)
    (fits : (out ++ content ++ [LF]).length < 2 ^ 31) :
    readLineCh ⟨content ++ eol.bytes ++ rest, .closed⟩ out =
      ⟨(out ++ content ++ [LF]).length, out ++ content ++ [LF], rest⟩ := by
  rw [readLineCh_eq, readLine, readLineLoop_line line, int32_of_bounds (by omega) (by omega)]

theorem readLines_split {fuel : Nat} {s : Bytes} (enough : s.length < fuel)
    (fits : ∀ line ∈ ((unixNewlines s).splitOn LF).dropLast, line.length + 1 < 2 ^ 31) :
    ∃ lines rest eols, (unixNewlines s).splitOn LF = lines ++ [rest] ∧
      (readLines fuel ⟨s, .closed⟩).map (fun line => (line.ret, line.out)) = results lines rest ∧
      List.length eols = lines.length ∧
      s = (lines.zipWith (fun line eol => line ++ Eol.bytes eol) eols).flatten ++ rest := by
  induction fuel generalizing s with
  | zero => omega
  | succ fuel ih =>
    rcases line_or_open s with ⟨noCR, noLF⟩ | ⟨content, eol, rest, rfl, line⟩
    · refine ⟨[], s, [], splitOn_open noCR noLF, ?_, rfl, by simp⟩
      have read : readLineLoop .closed s [] = ⟨StreamEnd.closed.ret, s, []⟩ := readLineLoop_open noCR noLF
      simp [readLines, readLineCh_eq, readLine, read, StreamEnd.ret, results]
    · have length := eol.bytes_length_pos
      rw [splitOn_line line, List.dropLast_cons_of_ne_nil (List.splitOn_ne_nil _ _)] at fits
      have first := fits content (by simp)
      simp only [List.length_append] at enough
      obtain ⟨lines, last, eols, split, calls, count, whole⟩ :=
        ih (s := rest) (by omega) fun line mem => fits line (List.mem_cons_of_mem _ mem)
      refine ⟨content :: lines, last, eol :: eols, ?_, ?_, by simp [count], ?_⟩
      · rw [splitOn_line line, split, List.cons_append]
      · have short : ([] ++ content ++ [LF]).length < 2 ^ 31 := by simpa using first
        have read := readLine_line line short
        rw [List.nil_append] at read
        have positive : (0 : Int) < (content ++ [LF]).length := by simp
        rw [readLines, read, if_pos positive, List.map_cons, calls]
        simp [results]
      · simp only [List.zipWith_cons_cons, List.flatten_cons, List.append_assoc, ← whole]

/-- **`ReadLine` loses nothing.** On a stream that ends, a call that returns a positive value has
taken the shortest prefix that ends in a terminator and appended it with one `LF`; one that
returns 0 has found no terminator and appended all there was. Calls on an empty `out` give the
lines of the stream, and then its rest, and together they take every byte. -/
theorem readLine_splits (s out : Bytes) :
    ((readLineCh ⟨s, .closed⟩ out).out.length < 2 ^ 31 →
      (0 < (readLineCh ⟨s, .closed⟩ out).ret ∧ ∃ content eol,
        s = content ++ Eol.bytes eol ++ (readLineCh ⟨s, .closed⟩ out).unread ∧
        IsLine content eol (readLineCh ⟨s, .closed⟩ out).unread ∧
        (readLineCh ⟨s, .closed⟩ out).out = out ++ content ++ [LF] ∧
        ∀ p t, s = p ++ t → EndsLine p t → (content ++ eol.bytes).length ≤ p.length) ∨
      ((readLineCh ⟨s, .closed⟩ out).ret = 0 ∧ (∀ p t, s = p ++ t → ¬ EndsLine p t) ∧
        (readLineCh ⟨s, .closed⟩ out).out = out ++ s ∧ (readLineCh ⟨s, .closed⟩ out).unread = [])) ∧
    ((∀ line ∈ ((unixNewlines s).splitOn LF).dropLast, line.length + 1 < 2 ^ 31) →
      ∃ lines rest eols, (unixNewlines s).splitOn LF = lines ++ [rest] ∧
        (readLines (s.length + 1) ⟨s, .closed⟩).map (fun line => (line.ret, line.out)) = results lines rest ∧
        List.length eols = lines.length ∧
        s = (lines.zipWith (fun line eol => line ++ Eol.bytes eol) eols).flatten ++ rest) := by
  refine ⟨fun fits => ?_, readLines_split (Nat.lt_succ_self _)⟩
  rcases line_or_open s with ⟨noCR, noLF⟩ | ⟨content, eol, rest, rfl, line⟩
  · right
    have read : readLineLoop .closed s out = ⟨StreamEnd.closed.ret, out ++ s, []⟩ := readLineLoop_open noCR noLF
    rw [readLineCh_eq, readLine, read]
    refine ⟨rfl, ?_, rfl, rfl⟩
    rintro p t rfl ⟨c, eol, rfl, -⟩
    rcases eol.bytes_cases with cr | lf
    · exact noCR (by simp [cr])
    · exact noLF (by simp [lf])
  · left
    rw [readLineCh_eq, readLine, readLineLoop_line line] at fits
    rw [readLine_line line fits]
    exact ⟨by simp; omega, content, eol, rfl, line, rfl, fun p t split ends => line.shortest split ends⟩

/-- A `CR` before a `CR LF`, a lone `LF`, a lone `CR` and a rest. -/
theorem readLine_splits_mixed :
    (0 < (readLineCh ⟨[97, 13, 13, 10, 10, 13, 98], .closed⟩ []).ret ∧ ∃ content eol,
      [97, 13, 13, 10, 10, 13, 98] = content ++ Eol.bytes eol ++
        (readLineCh ⟨[97, 13, 13, 10, 10, 13, 98], .closed⟩ []).unread ∧
      IsLine content eol (readLineCh ⟨[97, 13, 13, 10, 10, 13, 98], .closed⟩ []).unread ∧
      (readLineCh ⟨[97, 13, 13, 10, 10, 13, 98], .closed⟩ []).out = [] ++ content ++ [LF] ∧
      ∀ p t, [97, 13, 13, 10, 10, 13, 98] = p ++ t → EndsLine p t → (content ++ eol.bytes).length ≤ p.length) ∧
    ∃ lines rest eols, (unixNewlines [97, 13, 13, 10, 10, 13, 98]).splitOn LF = lines ++ [rest] ∧
      (readLines 8 ⟨[97, 13, 13, 10, 10, 13, 98], .closed⟩).map (fun line => (line.ret, line.out)) = results lines rest ∧
      List.length eols = lines.length ∧
      [97, 13, 13, 10, 10, 13, 98] = (lines.zipWith (fun line eol => line ++ Eol.bytes eol) eols).flatten ++ rest := by
  obtain ⟨call, calls⟩ := readLine_splits [97, 13, 13, 10, 10, 13, 98] []
  refine ⟨(call (by decide)).resolve_right fun stopped => absurd stopped.1 (by decide), calls (by decide)⟩

end HttpServer.Net
