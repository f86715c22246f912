import HttpServer.Protocol.RoundTrip
import Mathlib.Data.List.Forall2

/-!
# Two spellings of one request

The server finds the length of a body in the first header line that begins with exactly
`Content-Length: `. `Respells` relates two lines that differ in the case of the header name
and in the blanks behind its colon. `respelled_same_iff` says which respellings of a `POST`
the server cannot tell from the original: those in which that line announces the same
number, or is missing, in both.
-/

namespace HttpServer.Protocol
open Lib Net WireRequest

/-- A header line with this name, this many blanks behind the colon, and this value. -/
def spelled (name : Bytes) (blanks : Nat) (value : Bytes) : Bytes := name ++ 58 :: (List.replicate blanks SP ++ value)

/-- Two spellings of a header line: the name in another case, other blanks behind the colon. -/
inductive Respells : Bytes → Bytes → Prop where
  | same (line : Bytes) : Respells line line
  | header {name name' value : Bytes} (blanks blanks' : Nat) (plain : (58 : UInt8) ∉ name)
      (trimmed : value.head? ≠ some SP) (caseOnly : name.map toUpper = name'.map toUpper) :
      Respells (spelled name blanks value) (spelled name' blanks' value)

/-- The text behind `Content-Length: `. -/
def announced (line : Bytes) : Option Bytes :=
  if (CONTENT_LENGTH ++ SEP).isPrefixOf line then some (line.drop (CONTENT_LENGTH ++ SEP).length) else none

/-- The number the first such line announces, zero if there is none. -/
def lengthRead (headers : List Bytes) : Int := (headers.filterMap announced).head?.elim 0 atoi

/-- Two receives with the same length, the same body and the same bytes left unread. -/
structure SameBody (a b : EndPoint × Sock) : Prop where
  contentLength : a.1.httpRequest.contentLength = b.1.httpRequest.contentLength
  requestBody : a.1.httpRequest.requestBody = b.1.httpRequest.requestBody
  unread : a.2.unread = b.2.unread

/-! ## The line the server finds -/

theorem announced_iff {line value : Bytes} : announced line = some value ↔ line = CONTENT_LENGTH ++ SEP ++ value := by
  unfold announced
  constructor
  · intro read
    split at read
    · rename_i prefixed
      obtain ⟨rest, rfl⟩ := List.isPrefixOf_iff_prefix.mp prefixed
      rw [List.drop_left] at read
      rw [Option.some.inj read]
    · cases read
  · rintro rfl
    rw [if_pos (List.isPrefixOf_iff_prefix.mpr (List.prefix_append ..)), List.drop_left]

/-- A field named `Content-Length` is a line that announces its value. -/
theorem field_iff_announced {line value : Bytes} :
    field line = some (CONTENT_LENGTH, value) ↔ announced line = some value := by
  rw [announced_iff]
  constructor
  · intro read
    obtain ⟨pos, found, cut⟩ := Option.map_eq_some_iff.mp read
    have split := find_split found
    obtain ⟨name, rest⟩ := Prod.mk.inj cut
    rw [name, rest] at split
    exact split
  · rintro rfl
    have name : ¬ SEP <:+: CONTENT_LENGTH := by
      intro inside
      have blank : SP ∈ CONTENT_LENGTH := inside.subset (by decide)
      exact absurd blank (by decide)
    exact @field_headerLine (CONTENT_LENGTH, value) name

theorem lookup_announced (headers : List Bytes) :
    (headers.filterMap field).lookup CONTENT_LENGTH = (headers.filterMap announced).head? := by
  induction headers with
  | nil => rfl
  | cons line headers ih =>
    cases read : announced line with
    | some value =>
      rw [List.filterMap_cons_some (field_iff_announced.mpr read), List.filterMap_cons_some read]
      simp
    | none =>
      rw [List.filterMap_cons_none read, ← ih]
      cases cut : field line with
      | none => rw [List.filterMap_cons_none cut]
      | some f =>
        have other : CONTENT_LENGTH ≠ f.1 := by
          rintro same
          have silent := field_iff_announced.mp (cut.trans (congrArg some (Prod.ext same.symm rfl)))
          rw [read] at silent
          cases silent
        rw [List.filterMap_cons_some cut, List.lookup_cons, beq_eq_false_iff_ne.mpr other]

theorem declaredLength_eq_lengthRead {line : Bytes} (post : (nextWord line).1.map toUpper = POST)
    (headers : List Bytes) : declaredLength line headers = lengthRead headers := by
  unfold declaredLength lengthRead
  rw [if_pos post, lookup_announced]

/-! ## Respelled lines -/

/-- `atoi` skips blanks. -/
theorem atoi_blanks (blanks : Nat) (value : Bytes) : atoi (List.replicate blanks SP ++ value) = atoi value := by
  have clean : (0 : UInt8) ∉ List.replicate blanks SP := by
    intro mem
    exact absurd (List.eq_of_mem_replicate mem) (by decide)
  have skipped (t : Bytes) : (List.replicate blanks SP ++ t).dropWhile isSpace = t.dropWhile isSpace := by
    apply List.dropWhile_append_of_pos
    intro b mem
    rw [List.eq_of_mem_replicate mem]
    rfl
  unfold atoi strtol
  rw [cStr_append_of_no_nul clean, skipped]

/-- A name ends at the first colon. -/
theorem name_unique {name name' rest rest' : Bytes} (plain : (58 : UInt8) ∉ name) (plain' : (58 : UInt8) ∉ name')
    (same : name ++ 58 :: rest = name' ++ 58 :: rest') : name = name' ∧ rest = rest' := by
  have names : name = name' := by rw [← takeWhile_until plain rest, same, takeWhile_until plain' rest']
  subst names
  exact ⟨rfl, List.tail_eq_of_cons_eq (List.append_cancel_left same)⟩

/-- Which spellings announce a length: the very name, and a blank behind the colon. -/
theorem announced_spelled {name value text : Bytes} {blanks : Nat} (plain : (58 : UInt8) ∉ name)
    (trimmed : value.head? ≠ some SP) (read : announced (spelled name blanks value) = some text) :
    name = CONTENT_LENGTH ∧ ∃ k, blanks = k + 1 ∧ text = List.replicate k SP ++ value := by
  rw [announced_iff, List.append_assoc] at read
  obtain ⟨names, rest⟩ := @name_unique _ _ _ (SP :: text) plain (by decide) read
  refine ⟨names, ?_⟩
  cases blanks with
  | zero =>
    rw [List.replicate_zero, List.nil_append] at rest
    exact absurd (by rw [rest]; rfl) trimmed
  | succ k =>
    rw [List.replicate_succ, List.cons_append] at rest
    exact ⟨k, rfl, (List.tail_eq_of_cons_eq rest).symm⟩

theorem toUpper_colon {b : UInt8} (colon : toUpper b = 58) : b = 58 := by
  unfold toUpper at colon
  split at colon
  · rename_i letter
    have low := UInt8.le_iff_toNat_le.mp letter.1
    have value := congrArg UInt8.toNat colon
    have above : (32 : UInt8) ≤ b := UInt8.le_iff_toNat_le.mpr (by simp only [UInt8.reduceToNat] at low ⊢; omega)
    rw [UInt8.toNat_sub_of_le b 32 above] at value
    simp only [UInt8.reduceToNat] at low value
    omega
  · exact colon

theorem plain_of_caseOnly {name name' : Bytes} (plain : (58 : UInt8) ∉ name)
    (caseOnly : name.map toUpper = name'.map toUpper) : (58 : UInt8) ∉ name' := by
  intro mem
  have upper : (58 : UInt8) ∈ name.map toUpper := by
    rw [caseOnly]
    exact List.mem_map_of_mem mem
  obtain ⟨b, inside, colon⟩ := List.mem_map.mp upper
  exact plain (toUpper_colon colon ▸ inside)

/-- If both spellings announce a length, it is the same number. -/
theorem Respells.atoi_eq {line line' text text' : Bytes} (respells : Respells line line')
    (read : announced line = some text) (read' : announced line' = some text') : atoi text = atoi text' := by
  cases respells with
  | same =>
    rw [Option.some.inj (read.symm.trans read')]
  | header blanks blanks' plain trimmed caseOnly =>
    obtain ⟨-, k, -, rfl⟩ := announced_spelled plain trimmed read
    obtain ⟨-, k', -, rfl⟩ := announced_spelled (plain_of_caseOnly plain caseOnly) trimmed read'
    rw [atoi_blanks, atoi_blanks]

/-- A respelling in which the same lines announce a length. -/
theorem lengthRead_kept {headers headers' : List Bytes}
    (respelled : List.Forall₂ Respells headers headers')
    (kept : List.Forall₂ (fun l l' => (announced l).isSome = (announced l').isSome) headers headers') :
    lengthRead headers = lengthRead headers' := by
  unfold lengthRead
  induction respelled with
  | nil => rfl
  | @cons line line' headers headers' respells respelled ih =>
    obtain ⟨same, kept⟩ := List.forall₂_cons.mp kept
    cases read : announced line with
    | none =>
      cases read' : announced line' with
      | none => rw [List.filterMap_cons_none read, List.filterMap_cons_none read', ih kept]
      | some text' =>
        rw [read, read'] at same
        cases same
    | some text =>
      cases read' : announced line' with
      | none =>
        rw [read, read'] at same
        cases same
      | some text' =>
        rw [List.filterMap_cons_some read, List.filterMap_cons_some read']
        exact respells.atoi_eq read read'

/-! ## Two receives -/

/-- A head and what follows it, received: the length read decides. -/
theorem recv_lengthRead {sock size : Int} {fin : StreamEnd} {s line : Bytes} {headers : List Bytes} {rest : Bytes}
    (head : HeadOf s line headers rest) (post : (nextWord line).1.map toUpper = POST)
    (fits : ∀ l ∈ line :: headers, LineFits l) :
    recvHttpRequest (EndPoint.new sock size) ⟨s, fin⟩ =
      ({ parsedHead sock size line headers with
          httpRequest.contentLength := lengthRead headers
          httpRequest.requestBody := (recvBodyLoop rest (lengthRead headers) []).body
          stop := (recvBodyLoop rest (lengthRead headers) []).stop },
        ⟨(recvBodyLoop rest (lengthRead headers) []).unread, fin⟩) := by
  rw [recvHttpRequest_of_head head fits, recvHttpRequestBody_parsedHead, declaredLength_eq_lengthRead post]

/-- **Respellings, exactly.** Two streams with the same request line of a `POST`, header lines
that respell each other, and the same bytes behind the head are received alike if and only
if the first line that begins with exactly `Content-Length: ` announces the same number in
both; in particular if the respelling leaves those lines such lines and makes no others. -/
theorem respelled_same_iff (sock size : Int) (fin : StreamEnd) {s s' line rest : Bytes} {headers headers' : List Bytes}
    (head : HeadOf s line headers rest) (head' : HeadOf s' line headers' rest)
    (post : (nextWord line).1.map toUpper = POST) (short : ∀ l ∈ line :: headers ++ headers', l.length + 1 < 2 ^ 31)
    (respelled : List.Forall₂ Respells headers headers') :
    (SameBody (recvHttpRequest (EndPoint.new sock size) ⟨s, fin⟩) (recvHttpRequest (EndPoint.new sock size) ⟨s', fin⟩) ↔
      lengthRead headers = lengthRead headers') ∧
    (List.Forall₂ (fun l l' => (announced l).isSome = (announced l').isSome) headers headers' →
      SameBody (recvHttpRequest (EndPoint.new sock size) ⟨s, fin⟩) (recvHttpRequest (EndPoint.new sock size) ⟨s', fin⟩)) := by
  have fits : ∀ l ∈ line :: headers, LineFits l := by
    intro l mem
    exact lineFits_of_lt (short l (List.mem_append_left _ mem))
  have fits' : ∀ l ∈ line :: headers', LineFits l := by
    intro l mem
    apply lineFits_of_lt (short l _)
    rcases List.mem_cons.mp mem with rfl | mem
    · exact List.mem_append_left _ List.mem_cons_self
    · exact List.mem_append_right _ mem
  have exactly : SameBody (recvHttpRequest (EndPoint.new sock size) ⟨s, fin⟩)
      (recvHttpRequest (EndPoint.new sock size) ⟨s', fin⟩) ↔ lengthRead headers = lengthRead headers' := by
    rw [recv_lengthRead head post fits, recv_lengthRead head' post fits']
    constructor
    · exact fun same => same.contentLength
    · intro same
      rw [same]
      exact ⟨rfl, rfl, rfl⟩
  exact ⟨exactly, fun kept => exactly.mpr (lengthRead_kept respelled kept)⟩

/-- A head with `LF` for every terminator, and what follows it. -/
def lfHead (line : Bytes) (headers : List Bytes) (rest : Bytes) : Bytes :=
  line ++ Eol.lf.bytes ++ headers.foldr (fun h s => h ++ Eol.lf.bytes ++ s) (Eol.lf.bytes ++ rest)

theorem headOf_lfHead {line : Bytes} {headers : List Bytes} (lines : ∀ l ∈ line :: headers, OneLine l)
    (nonempty : ∀ h ∈ headers, h ≠ []) (rest : Bytes) : HeadOf (lfHead line headers rest) line headers rest := by
  have uniform : Eol.lf ≠ .cr := by decide
  refine ⟨.lf, _, rfl, (lines line List.mem_cons_self).isLine uniform, ?_⟩
  induction headers with
  | nil => exact .blank ⟨List.not_mem_nil, List.not_mem_nil, fun cr => absurd cr uniform⟩
  | cons h headers ih =>
    apply HeaderBlock.header (nonempty h List.mem_cons_self)
    · exact (lines h (by simp)).isLine uniform
    · apply ih
      · intro l mem
        apply lines l
        rcases List.mem_cons.mp mem with rfl | mem
        · exact List.mem_cons_self
        · exact List.mem_cons_of_mem _ (List.mem_cons_of_mem _ mem)
      · exact fun h mem => nonempty h (List.mem_cons_of_mem _ mem)

/-- The request line of a posted form. -/
def formLine : Bytes := ascii "POST /a HTTP/1.0"

theorem respelled_same_iff_blanks :
    (SameBody
        (recvHttpRequest (EndPoint.new 5 0) ⟨lfHead formLine [ascii "Content-Length: 3"] (ascii "abc"), .closed⟩)
        (recvHttpRequest (EndPoint.new 5 0) ⟨lfHead formLine [ascii "Content-Length:  3"] (ascii "abc"), .closed⟩) ↔
      lengthRead [ascii "Content-Length: 3"] = lengthRead [ascii "Content-Length:  3"]) ∧
    (List.Forall₂ (fun l l' => (announced l).isSome = (announced l').isSome)
        [ascii "Content-Length: 3"] [ascii "Content-Length:  3"] →
      SameBody
        (recvHttpRequest (EndPoint.new 5 0) ⟨lfHead formLine [ascii "Content-Length: 3"] (ascii "abc"), .closed⟩)
        (recvHttpRequest (EndPoint.new 5 0) ⟨lfHead formLine [ascii "Content-Length:  3"] (ascii "abc"), .closed⟩)) := by
  have first : ∀ l ∈ [formLine, ascii "Content-Length: 3"], OneLine l := by
    unfold OneLine
    decide
  have second : ∀ l ∈ [formLine, ascii "Content-Length:  3"], OneLine l := by
    unfold OneLine
    decide
  apply respelled_same_iff 5 0 .closed
  case head => exact headOf_lfHead first (by decide) _
  case head' => exact headOf_lfHead second (by decide) _
  case post => decide
  case short => decide
  case respelled =>
    have blanks : Respells (ascii "Content-Length: 3") (ascii "Content-Length:  3") :=
      @Respells.header CONTENT_LENGTH CONTENT_LENGTH (ascii "3") 1 2 (by decide) (by decide) rfl
    exact .cons blanks .nil

/-- The same name in lower case, or without the blank, is not found: the body is left unread. -/
theorem respelled_differ :
    Respells (ascii "Content-Length: 3") (ascii "content-length: 3") ∧
    ¬ SameBody
      (recvHttpRequest (EndPoint.new 5 0) ⟨lfHead formLine [ascii "Content-Length: 3"] (ascii "abc"), .closed⟩)
      (recvHttpRequest (EndPoint.new 5 0) ⟨lfHead formLine [ascii "content-length: 3"] (ascii "abc"), .closed⟩) ∧
    Respells (ascii "Content-Length: 3") (ascii "Content-Length:3") ∧
    ¬ SameBody
      (recvHttpRequest (EndPoint.new 5 0) ⟨lfHead formLine [ascii "Content-Length: 3"] (ascii "abc"), .closed⟩)
      (recvHttpRequest (EndPoint.new 5 0) ⟨lfHead formLine [ascii "Content-Length:3"] (ascii "abc"), .closed⟩) := by
  refine ⟨?_, ?_, ?_, ?_⟩
  · exact @Respells.header CONTENT_LENGTH (ascii "content-length") (ascii "3") 1 1 (by decide) (by decide) (by decide)
  · exact fun same => absurd same.contentLength (by decide)
  · exact @Respells.header CONTENT_LENGTH CONTENT_LENGTH (ascii "3") 1 0 (by decide) (by decide) rfl
  · exact fun same => absurd same.contentLength (by decide)

end HttpServer.Protocol
