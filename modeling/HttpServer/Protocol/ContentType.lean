import HttpServer.Protocol.Framing
import HttpServer.Protocol.WebRoot

/-!
# The type of the file that is served

`Suffix2Desc` looks up what follows the last `.` of the whole path, while `open` and `execl`
see the path up to its first NUL. `describedType` is the type of what they see: the one of
the extension of its last component. A `.` in a directory component makes no difference,
since no listed suffix contains a `/` (`suffixOf_component`); a NUL in the URI does, and
`type_matches_iff` says when.
-/

namespace HttpServer.Protocol
open Lib Net

def TEXT_HTML : Bytes := ascii "text/html"

/-- What follows the last `x`, or everything. -/
def afterLast (x : UInt8) (s : Bytes) : Bytes := (s.reverse.takeWhile fun b => b != x).reverse

/-- The last component of a path. -/
def lastComponent (path : Bytes) : Bytes := afterLast 47 path

/-- The type of the file a path names: that of the extension of its last component, and
`text/html` if there is none. -/
def describedType (path : Bytes) : Bytes :=
  if 46 ∈ lastComponent path then suffix2Desc (46 :: afterLast 46 (lastComponent path)) else TEXT_HTML

/-- The path a call reads or executes. -/
def Syscall.served : Syscall → Option Bytes
  | .openRead path _ => some path
  | .execl path _ => some path
  | _ => none

/-- The paths handed to `open` and `execl`. -/
def Os.served (os : Os) : List Bytes := os.trace.filterMap Syscall.served

/-- One file is read or executed for the response, and the one `Content-Type` is its type. -/
def TypeMatches (env : Env) (sock : Int) (os : Os) : Prop :=
  ∃ path, (answered env sock os).2.served = os.served ++ [path] ∧
    fieldTexts CONTENT_TYPE
        (answered env sock os).1.httpResponse.responseHeader =
      [describedType path ++ LINE_END]

/-- **The condition on a target.** It contains no NUL, or the text before the NUL has a suffix
of the type of the whole: of the type of an index page, if it names a directory. -/
def SuffixKept (env : Env) (target : Bytes) : Prop :=
  0 ∈ target → suffix2Desc (suffixOf (cStr target)) =
    if (env.stat (WEB_ROOT ++ cStr target)).any Stat.isDir then TEXT_HTML else suffix2Desc (suffixOf target)

/-! ## Suffixes -/

section Suffixes

/-- A suffix with a byte that no entry of the table contains. -/
theorem suffix2Desc_unlisted {x : UInt8} (unlisted : ∀ entry ∈ suffixTable, x ∉ entry.1) {suffix : Bytes}
    (mem : x ∈ suffix) : suffix2Desc suffix = TEXT_HTML := by
  unfold suffix2Desc
  cases listed : suffixTable.lookup suffix with
  | none => rfl
  | some desc =>
    obtain ⟨before, after, split, -⟩ := List.lookup_eq_some_iff.mp listed
    exact absurd mem (unlisted (suffix, desc) (by simp [split]))

theorem slash_unlisted : ∀ entry ∈ suffixTable, (47 : UInt8) ∉ entry.1 := by decide

/-- The last `x` is the last one of the second part, if it has one. -/
theorem afterLast_append_mem {x : UInt8} (s : Bytes) {t : Bytes} (mem : x ∈ t) :
    afterLast x (s ++ t) = afterLast x t := by
  unfold afterLast
  rw [List.reverse_append, List.takeWhile_append, if_neg]
  intro all
  have whole := List.takeWhile_eq_self_iff.mp ((List.takeWhile_prefix _).eq_of_length all) x (List.mem_reverse.mpr mem)
  simp at whole

theorem afterLast_append_not_mem {x : UInt8} (s : Bytes) {t : Bytes} (absent : x ∉ t) :
    afterLast x (s ++ t) = afterLast x s ++ t := by
  have all : ∀ b ∈ t.reverse, (b != x) = true := ne_of_absent (by simpa using absent)
  unfold afterLast
  rw [List.reverse_append, List.takeWhile_append_of_pos all, List.reverse_append, List.reverse_reverse]

/-- The suffix of a text with a `.` in its second part. -/
theorem suffixOf_append_mem (s : Bytes) {t : Bytes} (mem : 46 ∈ t) : suffixOf (s ++ t) = suffixOf t := by
  have last := @afterLast_append_mem 46 s t mem
  unfold afterLast at last
  unfold suffixOf
  rw [if_pos mem, if_pos (List.mem_append_right s mem), last]

/-- And of one without a `.` in its first part. -/
theorem suffixOf_append_not_mem {s : Bytes} (absent : 46 ∉ s) (t : Bytes) : suffixOf (s ++ t) = suffixOf t := by
  by_cases mem : 46 ∈ t
  · exact suffixOf_append_mem s mem
  · unfold suffixOf
    rw [if_neg mem, if_neg]
    intro both
    rcases List.mem_append.mp both with left | right
    · exact absent left
    · exact mem right

theorem suffixOf_none {s : Bytes} (absent : 46 ∉ s) : suffix2Desc (suffixOf s) = TEXT_HTML := by
  unfold suffixOf
  rw [if_neg absent]
  rfl

/-- What comes before a separator makes no difference to the type, if no suffix listed
contains it. -/
theorem suffixOf_component {x : UInt8} (unlisted : ∀ entry ∈ suffixTable, x ∉ entry.1) (other : x ≠ 46) (s t : Bytes) :
    suffix2Desc (suffixOf (s ++ x :: t)) = suffix2Desc (suffixOf t) := by
  by_cases right : 46 ∈ t
  · rw [suffixOf_append_mem s (List.mem_cons_of_mem x right)]
    exact congrArg suffix2Desc (suffixOf_append_mem [x] right)
  · have absent : 46 ∉ x :: t := by
      intro mem
      rcases List.mem_cons.mp mem with eq | mem
      · exact other eq.symm
      · exact right mem
    rw [suffixOf_none right]
    by_cases left : 46 ∈ s
    · -- the suffix found reaches over the separator
      apply suffix2Desc_unlisted unlisted
      have last := @afterLast_append_not_mem 46 s (x :: t) absent
      unfold afterLast at last
      unfold suffixOf
      rw [if_pos (List.mem_append_left _ left), last]
      simp
    · rw [suffixOf_append_not_mem left]
      exact suffixOf_none absent

/-- A text that contains `x` ends in what follows the last one. -/
theorem afterLast_split {x : UInt8} {s : Bytes} (mem : x ∈ s) : ∃ front, s = front ++ x :: afterLast x s := by
  obtain ⟨last, front, eq, absent⟩ := List.eq_append_cons_of_mem (List.mem_reverse.mpr mem)
  have whole : s = front.reverse ++ [x] ++ last.reverse := by
    rw [← List.reverse_reverse s, eq]
    simp
  have after : afterLast x s = last.reverse := by
    rw [whole, afterLast_append_not_mem _ (by simpa using absent)]
    simp [afterLast]
  refine ⟨front.reverse, ?_⟩
  rw [after]
  simpa using whole

/-- **Directories make no difference.** The suffix of a path has the type of its last component. -/
theorem describedType_eq (path : Bytes) : describedType path = suffix2Desc (suffixOf path) := by
  have component : describedType path = suffix2Desc (suffixOf (lastComponent path)) := by
    unfold describedType
    split
    · rename_i dotted
      unfold suffixOf
      rw [if_pos dotted]
      rfl
    · rename_i plain
      exact (suffixOf_none plain).symm
  rw [component]
  by_cases slash : (47 : UInt8) ∈ path
  · obtain ⟨front, eq⟩ := afterLast_split slash
    have same := suffixOf_component slash_unlisted (by decide) front (afterLast 47 path)
    rw [← eq] at same
    exact same.symm
  · have whole := @afterLast_append_not_mem 47 [] path slash
    unfold lastComponent
    rw [show afterLast 47 path = path from whole]

end Suffixes

/-! ## The path of the target -/

section Target

theorem suffix_webRoot (t : Bytes) : suffixOf (WEB_ROOT ++ t) = suffixOf t := suffixOf_append_not_mem (by decide) t

/-- The index page for a trailing `/` has the type of the directory's empty suffix. -/
theorem suffix_webPath (t : Bytes) : suffix2Desc (suffixOf (webPath t)) = suffix2Desc (suffixOf t) := by
  unfold webPath
  simp only
  split
  · rename_i slash
    obtain ⟨front, eq⟩ := List.getLast?_eq_some_iff.mp slash
    rw [← suffix_webRoot t, eq, List.append_assoc, List.singleton_append,
      suffixOf_component slash_unlisted (by decide), suffixOf_component slash_unlisted (by decide)]
    decide
  · rw [suffix_webRoot]

theorem suffix_indexPath (path : Bytes) : suffix2Desc (suffixOf (indexPath path)) = TEXT_HTML := by
  have eq : indexPath path = path ++ 47 :: HOME_PAGE := by simp [indexPath, ascii]
  rw [eq, suffixOf_component slash_unlisted (by decide)]
  decide

/-- The type announced: that of the index page of a directory, or of the whole target. -/
theorem suffix_redirect (env : Env) (t : Bytes) (st : Stat) :
    suffix2Desc (suffixOf (redirect env (webPath t) st).1) =
      if st.isDir then TEXT_HTML else suffix2Desc (suffixOf t) := by
  unfold redirect
  split
  · exact suffix_indexPath _
  · exact suffix_webPath t

/-- The path served, as the target followed by index pages. -/
theorem redirect_eq (env : Env) (t : Bytes) (st : Stat) :
    ∃ tail, (redirect env (webPath t) st).1 = WEB_ROOT ++ t ++ tail ∧ 0 ∉ tail := by
  obtain ⟨tail, eq, clean⟩ := webPath_eq t
  unfold redirect
  split
  · refine ⟨tail ++ ascii "/" ++ HOME_PAGE, ?_, by simp [clean, ascii, HOME_PAGE]⟩
    rw [indexPath, eq]
    simp
  · exact ⟨tail, eq, clean⟩

/-- The type announced is that of the path served exactly under the condition. -/
theorem suffix_described (env : Env) (t : Bytes) {st : Stat} (found : env.stat (cStr (webPath t)) = some st) :
    suffix2Desc (suffixOf (redirect env (webPath t) st).1) = describedType (cStr (redirect env (webPath t) st).1) ↔
      SuffixKept env t := by
  obtain ⟨tail, eq, clean⟩ := redirect_eq env t st
  rw [describedType_eq]
  by_cases nul : 0 ∈ t
  · obtain ⟨index, first, -⟩ := webPath_eq t
    rw [first, cStr_webRoot, if_pos nul] at found
    have opened : cStr (redirect env (webPath t) st).1 = WEB_ROOT ++ cStr t := by rw [eq, cStr_webRoot, if_pos nul]
    rw [suffix_redirect, opened, suffix_webRoot]
    unfold SuffixKept
    rw [found]
    constructor
    · exact fun same _ => same.symm
    · exact fun kept => (kept nul).symm
  · have opened : cStr (redirect env (webPath t) st).1 = (redirect env (webPath t) st).1 := by
      apply cStr_eq_self
      rw [eq]
      have root : (0 : UInt8) ∉ WEB_ROOT := by decide
      simp [root, nul, clean]
    rw [opened]
    exact iff_of_true rfl fun mem => absurd mem nul

end Target

/-! ## The path handed over -/

section Served

theorem served_silent (os : Os) {call : Syscall} (none : call.served = none) : (os.emit call).served = os.served :=
  filterMap_silent rfl none

/-- A function that names no path serves none. -/
theorem served_of_paths {os os' : Os} (grows : os.trace <+: os'.trace) (same : os'.paths = os.paths) :
    os'.served = os.served := by
  obtain ⟨calls, eq⟩ := grows
  have named : calls.filterMap Syscall.path = [] := by
    unfold Os.paths at same
    rw [← eq, List.filterMap_append] at same
    exact List.append_right_eq_self.mp same
  have silent : calls.filterMap Syscall.served = [] := by
    apply List.filterMap_eq_nil_iff.mpr
    intro call mem
    have none := List.filterMap_eq_nil_iff.mp named call mem
    cases call with
    | openRead path fd => cases none
    | execl path environ => cases none
    | _ => rfl
  unfold Os.served
  rw [← eq, List.filterMap_append, silent, List.append_nil]

theorem served_openRead (env : Env) (path : Bytes) (os : Os) :
    (os.openRead env path).2.served = os.served ++ [path] :=
  filterMap_snoc Syscall.served (trace_openRead env path os)

theorem served_execl (path : Bytes) (environ : List Bytes) (os : Os) :
    (os.emit (.execl path environ)).served = os.served ++ [path] := by
  have snoc : (os.emit (.execl path environ)).trace = os.trace ++ [.execl path environ] := rfl
  exact filterMap_snoc Syscall.served snoc

theorem served_pipe (ok : Bool) (os : Os) : (os.pipe ok).2.served = os.served :=
  served_of_paths (frame_grows.pipe ok os) (Os.paths_pipe os ok)

/-- A content source that succeeds has served the path of the request. -/
theorem served_content (cgi : Bool) (env : Env) (ep : EndPoint) (os : Os) (ok : (content cgi env ep os).code = OK) :
    (content cgi env ep os).os.served = os.served ++ [cStr ep.httpRequest.path] := by
  cases cgi with
  | false =>
    obtain ⟨-, opens, -⟩ := processNonCgi_outcome env ep os
    show (processNonCgi env ep os).os.served = _
    rw [opens, served_openRead]
  | true =>
    have pipes : ((os.pipe env.pipeInput).2.pipe env.pipeOutput).2.served = os.served := by
      rw [served_pipe, served_pipe]
    revert ok
    apply processCgi_cases (motive := fun a => a.code = OK → a.os.served = os.served ++ [cStr ep.httpRequest.path])
    case noInput | noOutput => exact fun error => absurd error (ErrorCode.ne_ok (.inr (.inr rfl)))
    case noFork => exact fun error => absurd error (ErrorCode.ne_ok (.inl rfl))
    case parent =>
      intro in0 in1 out0 out1 _
      rw [served_of_paths (frame_grows.cgiParent ..) (paths_cgiParent ..), served_execl, served_silent _ rfl, pipes]

theorem served_targeted (os : Os) (req : HttpRequest) (st : Stat) : (os.targeted req st).served = os.served := by
  have located : (os.located req).served = os.served := served_silent os rfl
  unfold Os.targeted
  split
  · exact (served_silent _ rfl).trans located
  · exact located

theorem served_dispatch (env : Env) (ep : EndPoint) (os : Os) (ok : (dispatch env ep os).code = OK) :
    (dispatch env ep os).os.served = os.served ++ [cStr (dispatch env ep os).ep.httpRequest.path] := by
  revert ok
  apply dispatch_cases (motive := fun a => a.code = OK → a.os.served = os.served ++ [cStr a.ep.httpRequest.path])
  case unknown => exact fun _ error => absurd error (ErrorCode.ne_ok (.inr (.inl rfl)))
  case missing => exact fun _ _ error => absurd error (ErrorCode.ne_ok (.inl rfl))
  case found =>
    intro st _ _ ok
    rw [served_content _ env _ _ ok, served_targeted, content_request]

end Served

/-! ## The result -/

theorem type_announced {ep : EndPoint} (empty : ep.httpResponse.responseHeader = []) :
    fieldTexts CONTENT_TYPE (buildOkResponse ep).httpResponse.responseHeader =
      [suffix2Desc ep.httpRequest.suffix ++ LINE_END] := by
  unfold buildOkResponse
  simp only
  rw [empty, List.nil_append, type_texts]

/-- **The type of the file served.** For every request a connection can receive and every
filesystem: with status 200 the `Content-Type` is that of the file read or executed if and
only if the target of the URI has no NUL, or its suffix up to there has the type of the
suffix that is looked up. -/
theorem type_matches_iff (env : Env) (sock : Int) (os : Os)
    (ok : (answered env sock os).1.httpResponse.statusCode = OK) :
    TypeMatches env sock os ↔ SuffixKept env (targetText (accepted env sock os).httpRequest) := by
  have fresh := fresh_accepted env sock os
  unfold TypeMatches answered at *
  have served : os.served = (os.accepting env sock).served := rfl
  rw [served]
  generalize accepted env sock os = ep at *
  generalize os.accepting env sock = os' at *
  unfold buildHttpResponse at ok ⊢
  rw [(helper_same _ _ _).2] at ok
  have handed := served_dispatch env ep os' ok
  have outcome := dispatch_outcome env ep os'
  generalize dispatch env ep os' = a at *
  obtain ⟨st, method, found, request⟩ := outcome.target ok
  have path : a.ep.httpRequest.path = (redirect env (webPath (targetText ep.httpRequest)) st).1 := by
    rw [request, ← splitUri_path method]
    rfl
  have header := @type_announced (EndPoint.stated { a.ep with httpResponse.statusCode := a.code })
    (outcome.head.responseHeader.trans fresh.responseHeader)
  have suffix : (EndPoint.stated { a.ep with httpResponse.statusCode := a.code }).httpRequest.suffix =
      suffixOf (redirect env (webPath (targetText ep.httpRequest)) st).1 := by
    show a.ep.httpRequest.suffix = _
    rw [request, ← splitUri_path method]
    rfl
  have same := suffix_described env (splitUri ep.httpRequest).path found
  rw [splitUri_path method] at same
  rw [helper_ok env _ ok]
  simp only
  rw [header, suffix, handed, path, ← same]
  constructor
  · rintro ⟨path', served', type⟩
    obtain rfl : _ = path' := by simpa using served'
    simpa using type
  · intro announced
    exact ⟨_, rfl, by rw [announced]⟩

/-- A connection whose request line contains a NUL. -/
def nulConnection : Os where
  io := ⟨ascii "GET /a.css" ++ [0] ++ ascii ".html HTTP/1.0\r\n\r\n", .closed⟩
  fds := {0, 1, 2, 3, 5}
  trace := []
  writes := []
  sends := []

theorem type_matches_iff_page :
    TypeMatches .pages 5 pageConnection ↔
      SuffixKept .pages (targetText (accepted .pages 5 pageConnection).httpRequest) :=
  type_matches_iff .pages 5 pageConnection (by decide)

/-- The style sheet `a.css` is served as a page if the URI goes on behind a NUL. -/
theorem type_differs :
    (answered .pages 5 nulConnection).1.httpResponse.statusCode = OK ∧
      (answered .pages 5 nulConnection).2.served = [ascii "wwwroot/a.css"] ∧
      fieldTexts CONTENT_TYPE (answered .pages 5 nulConnection).1.httpResponse.responseHeader =
        [ascii "text/html" ++ LINE_END] ∧
      describedType (ascii "wwwroot/a.css") = ascii "text/css" ∧ ¬ TypeMatches .pages 5 nulConnection := by
  have served : (answered .pages 5 nulConnection).2.served = [ascii "wwwroot/a.css"] := by decide
  refine ⟨by decide, served, by decide, by decide, ?_⟩
  rintro ⟨path, same, type⟩
  obtain rfl : ascii "wwwroot/a.css" = path := List.head_eq_of_cons_eq (served.symm.trans same)
  exact absurd type (by decide)

end HttpServer.Protocol
