import HttpServer.Lib.LexicalPath
import HttpServer.Protocol.Calls

/-!
# Which paths the response reaches

`InWebRoot p` says where the path `p` lies after lexical resolution: at `wwwroot` or below.
Every path `BuildHttpResponse` hands to `stat`, `open` or `execl` is built from the URI by
prefixing `wwwroot` and by appending index pages, and neither of these looks at what the
URI contains. `paths_inWebRoot_iff` gives the exact condition on the URI, by counting its
segments.
-/

namespace HttpServer.Protocol
open Lib Net

/-- A path segment by its meaning. -/
def classify (s : Bytes) : Seg Bytes :=
  if s = [] ∨ s = ascii "." then .skip else if s = ascii ".." then .up else .name s

/-- The segments of a path, separated by `/`. -/
def segs (path : Bytes) : List (Seg Bytes) := (path.splitOn 47).map classify

/-- The relative path lies, lexically, at `wwwroot` or below it. -/
def InWebRoot (path : Bytes) : Prop :=
  path.head? ≠ some 47 ∧ (Seg.resolve (segs path)).getLast? = some (some WEB_ROOT)

/-- The part of a URI that names the target: up to the first `?` for a `GET`, all of it for
a `POST`, and no more than its bytes before a NUL. -/
def targetOf (req : HttpRequest) : Bytes :=
  cStr (if req.method = GET then req.uri.takeWhile fun b => b != 63 else req.uri)

/-- **The condition on a target.** Glue it to `wwwroot` and walk its segments, one up for a
name and one down for a `..`: the walk never goes below its start, and the last name it
takes from height zero is `wwwroot`. -/
def KeepsToWebRoot (target : Bytes) : Prop := Seg.Grounded WEB_ROOT (segs (WEB_ROOT ++ target))

/-- The path a system call names. -/
def Syscall.path : Syscall → Option Bytes
  | .stat path => some path
  | .openRead path _ => some path
  | .execl path _ => some path
  | _ => none

/-- The paths named so far. -/
def Os.paths (os : Os) : List Bytes := os.trace.filterMap Syscall.path

/-! ## The paths of each function -/

@[simp] theorem Os.paths_emit (os : Os) (call : Syscall) : (os.emit call).paths = os.paths ++ call.path.toList :=
  filterMap_snoc Syscall.path rfl

@[simp] theorem Os.paths_close (os : Os) (fd : Int) : (os.close fd).paths = os.paths := by
  obtain ⟨ok, trace⟩ := trace_close fd os
  exact filterMap_silent trace rfl

@[simp] theorem Os.paths_pipe (os : Os) (ok : Bool) : (os.pipe ok).2.paths = os.paths :=
  filterMap_silent (trace_pipe ok os) rfl

@[simp] theorem Os.paths_write (os : Os) (fd : Int) (data : Bytes) : (os.write fd data).2.paths = os.paths :=
  @filterMap_silent os _ (.write fd _) _ _ rfl rfl

@[simp] theorem Os.paths_openRead (env : Env) (path : Bytes) (os : Os) :
    (os.openRead env path).2.paths = os.paths ++ [path] :=
  filterMap_snoc Syscall.path (trace_openRead env path os)

@[simp] theorem paths_writeLoop (fd : Int) (body : Bytes) (contentLength : Int) (fuel : Nat) (total : Int) (os : Os) :
    (writeLoop fd body contentLength fuel total os).paths = os.paths := by
  apply @rel_writeLoop fun os os' => os'.paths = os.paths
  case refl => exact fun _ => rfl
  case trans => exact fun first second => second.trans first
  case write => exact fun fd data os => Os.paths_write os fd data

theorem paths_cgiParent (env : Env) (in0 in1 out0 out1 : Int) (ep : EndPoint) (os : Os) :
    (cgiParent env in0 in1 out0 out1 ep os).os.paths = os.paths := by
  unfold cgiParent
  simp only [Os.paths_close, Os.paths_emit, Syscall.path, Option.toList_none, List.append_nil]
  split <;> simp

/-- Going from `os` to `os'`, only paths that satisfy `allowed` are named. -/
def Names (allowed : Bytes → Prop) (os os' : Os) : Prop :=
  ∃ more, os'.paths = os.paths ++ more ∧ ∀ p ∈ more, allowed p

theorem Names.none {allowed : Bytes → Prop} {os os' : Os} (same : os'.paths = os.paths) : Names allowed os os' :=
  ⟨[], by simp [same], by simp⟩

theorem Names.one {allowed : Bytes → Prop} {os os' : Os} {path : Bytes} (more : os'.paths = os.paths ++ [path])
    (ok : allowed path) : Names allowed os os' :=
  ⟨[path], more, by simpa using ok⟩

theorem Names.trans {allowed : Bytes → Prop} {os os' os'' : Os} (first : Names allowed os os')
    (second : Names allowed os' os'') : Names allowed os os'' := by
  obtain ⟨more, eq, ok⟩ := first
  obtain ⟨more', eq', ok'⟩ := second
  refine ⟨more ++ more', by rw [eq', eq, List.append_assoc], fun p mem => ?_⟩
  rcases List.mem_append.mp mem with mem | mem
  · exact ok p mem
  · exact ok' p mem

/-- `ProcessCgi` names no path but the program's. -/
theorem names_processCgi {allowed : Bytes → Prop} (env : Env) (ep : EndPoint) (os : Os)
    (ok : allowed (cStr ep.httpRequest.path)) : Names allowed os (processCgi env ep os).os := by
  apply processCgi_cases (motive := fun a => Names allowed os a.os)
  case noInput | noOutput => exact .none (by simp)
  case noFork => exact .none (by simp [Syscall.path])
  case parent => exact fun _ _ _ _ => .one (by simp [paths_cgiParent, Syscall.path]) ok

theorem names_processNonCgi {allowed : Bytes → Prop} (env : Env) (ep : EndPoint) (os : Os)
    (ok : allowed (cStr ep.httpRequest.path)) : Names allowed os (processNonCgi env ep os).os := by
  refine .one ?_ ok
  unfold processNonCgi
  simp only
  split <;> exact Os.paths_openRead ..

/-- Whichever source the content comes from, one path is named for it. -/
theorem names_content {allowed : Bytes → Prop} (cgi : Bool) (env : Env) (ep : EndPoint) (os : Os)
    (ok : allowed (cStr ep.httpRequest.path)) : Names allowed os (content cgi env ep os).os := by
  cases cgi with
  | true => exact names_processCgi env ep os ok
  | false => exact names_processNonCgi env ep os ok

/-- The helper names no path but the error page. -/
theorem names_helper {allowed : Bytes → Prop} (env : Env) (ep : EndPoint) (os : Os) (ok : allowed (cStr errorPage)) :
    Names allowed os (buildHttpResponseHelper env ep os).2 := by
  have opened : Names allowed os (os.openRead env (cStr errorPage)).2 := .one (Os.paths_openRead ..) ok
  apply helper_cases (motive := fun r => Names allowed os r.2)
  case ok | other => exact fun _ => .none rfl
  case error =>
    intro _
    apply handlerError_cases (motive := fun r => Names allowed os r.2)
    · exact fun _ => opened.trans (.one (Os.paths_emit ..) ok)
    · exact fun _ => opened

/-- For a `GET` or `POST` the first path named is the target under `wwwroot`; every other is
that one again or the index page behind it. -/
theorem names_dispatch {allowed : Bytes → Prop} (env : Env) (ep : EndPoint) (os : Os)
    (method : ep.httpRequest.method = GET ∨ ep.httpRequest.method = POST)
    (first : allowed (cStr (firstPath ep.httpRequest)))
    (index : allowed (cStr (indexPath (firstPath ep.httpRequest)))) :
    Names allowed (os.located ep.httpRequest) (dispatch env ep os).os := by
  apply dispatch_cases (motive := fun a => Names allowed (os.located ep.httpRequest) a.os)
  case unknown => exact fun unknown => absurd method unknown
  case missing => exact fun _ _ => .none rfl
  case found =>
    intro st _ _
    have target : allowed (cStr (redirect env (firstPath ep.httpRequest) st).1) := by
      unfold redirect
      split
      · exact index
      · exact first
    have stats : Names allowed (os.located ep.httpRequest) (os.targeted ep.httpRequest st) := by
      unfold Os.targeted
      split
      · exact .one (Os.paths_emit ..) index
      · exact .none rfl
    apply stats.trans
    apply names_content
    exact target

/-- Every path of a response, and the one that is always among them. -/
theorem names_buildHttpResponse {allowed : Bytes → Prop} (env : Env) (ep : EndPoint) (os : Os)
    (method : ep.httpRequest.method = GET ∨ ep.httpRequest.method = POST)
    (first : allowed (cStr (firstPath ep.httpRequest)))
    (index : allowed (cStr (indexPath (firstPath ep.httpRequest)))) (error : allowed (cStr errorPage)) :
    Names allowed (os.located ep.httpRequest) (buildHttpResponse env ep os).2 :=
  (names_dispatch env ep os method first index).trans (names_helper _ _ _ error)

/-! ## Where the paths lie -/

theorem segs_append_slash (p q : Bytes) : segs (p ++ 47 :: q) = segs p ++ segs q := by
  unfold segs
  rw [List.splitOn_eq_splitOnP, List.splitOnP_append_cons p q (by decide), List.map_append]
  rfl

theorem segs_homePage : segs HOME_PAGE = [.name HOME_PAGE] := by decide

theorem segs_nil : segs [] = [.skip] := by decide

/-- For a relative path, lying in the web root is the counting condition. -/
theorem inWebRoot_iff {path : Bytes} (relative : path.head? ≠ some 47) :
    InWebRoot path ↔ Seg.Grounded WEB_ROOT (segs path) := by
  rw [InWebRoot, Seg.bottom_resolve_iff]
  exact and_iff_right relative

/-- The index page of a directory lies in the web root exactly if the directory does. -/
theorem grounded_indexPath (p : Bytes) :
    Seg.Grounded WEB_ROOT (segs (indexPath p)) ↔ Seg.Grounded WEB_ROOT (segs p) := by
  rw [show indexPath p = p ++ 47 :: HOME_PAGE by simp [indexPath, ascii], segs_append_slash, segs_homePage]
  exact Seg.grounded_snoc_name (by decide) _

/-- Nor does the index page for a trailing `/` change where the path lies. -/
theorem grounded_webPath (u : Bytes) :
    Seg.Grounded WEB_ROOT (segs (webPath u)) ↔ Seg.Grounded WEB_ROOT (segs (WEB_ROOT ++ u)) := by
  unfold webPath
  simp only
  split
  · rename_i slash
    obtain ⟨q, eq⟩ := List.getLast?_eq_some_iff.mp slash
    rw [eq, List.append_assoc, List.singleton_append, segs_append_slash, segs_homePage, segs_append_slash, segs_nil,
      Seg.grounded_snoc_name (by decide), Seg.grounded_snoc_skip]
  · rfl

/-- A path under `wwwroot` and what index pages may follow it, as the C string names it. -/
theorem cStr_webRoot (u tail : Bytes) :
    cStr (WEB_ROOT ++ u ++ tail) = if 0 ∈ u then WEB_ROOT ++ cStr u else WEB_ROOT ++ u ++ cStr tail := by
  have clean : (0 : UInt8) ∉ WEB_ROOT := by decide
  split
  · rename_i nul
    rw [List.append_assoc, cStr_append_of_no_nul clean, cStr_append_of_nul nul]
  · rename_i noNul
    rw [cStr_append_of_no_nul (by simp [clean, noNul])]

theorem head_webRoot (u : Bytes) : (WEB_ROOT ++ u).head? ≠ some 47 := by
  rw [List.head?_append_of_ne_nil _ (by decide)]
  decide

/-- The index pages are invisible behind a NUL and harmless otherwise: a path built from a
target lies in the web root exactly if the target keeps to it. -/
theorem inWebRoot_built {u tail : Bytes} (clean : 0 ∉ tail)
    (same : Seg.Grounded WEB_ROOT (segs (WEB_ROOT ++ u ++ tail)) ↔ Seg.Grounded WEB_ROOT (segs (WEB_ROOT ++ u))) :
    InWebRoot (cStr (WEB_ROOT ++ u ++ tail)) ↔ KeepsToWebRoot (cStr u) := by
  rw [cStr_webRoot, KeepsToWebRoot]
  split
  · exact inWebRoot_iff (head_webRoot _)
  · rename_i noNul
    have relative := head_webRoot (u ++ tail)
    rw [← List.append_assoc] at relative
    rw [cStr_eq_self clean, cStr_eq_self noNul, inWebRoot_iff relative, same]

theorem webPath_eq (u : Bytes) : ∃ tail, webPath u = WEB_ROOT ++ u ++ tail ∧ 0 ∉ tail := by
  unfold webPath
  simp only
  split
  · exact ⟨HOME_PAGE, rfl, by decide⟩
  · exact ⟨[], by simp, by simp⟩

theorem inWebRoot_webPath (u : Bytes) : InWebRoot (cStr (webPath u)) ↔ KeepsToWebRoot (cStr u) := by
  obtain ⟨tail, eq, clean⟩ := webPath_eq u
  have same := grounded_webPath u
  rw [eq] at same ⊢
  exact inWebRoot_built clean same

theorem inWebRoot_indexPath (u : Bytes) : InWebRoot (cStr (indexPath (webPath u))) ↔ KeepsToWebRoot (cStr u) := by
  obtain ⟨tail, eq, clean⟩ := webPath_eq u
  have same := (grounded_indexPath (webPath u)).trans (grounded_webPath u)
  have all : indexPath (webPath u) = WEB_ROOT ++ u ++ (tail ++ ascii "/" ++ HOME_PAGE) := by
    rw [indexPath, eq]
    simp
  rw [all] at same ⊢
  exact inWebRoot_built (by simp [clean, ascii, HOME_PAGE]) same

/-- The part of a URI that names the target, with what follows a NUL in it. -/
def targetText (req : HttpRequest) : Bytes := if req.method = GET then req.uri.takeWhile fun b => b != 63 else req.uri

/-- The target is what the query split leaves of the URI. -/
theorem splitUri_path {req : HttpRequest} (method : req.method = GET ∨ req.method = POST) :
    (splitUri req).path = targetText req := by
  have mark : ascii "?" = [63] := rfl
  unfold splitUri targetText
  rcases method with get | post
  · rw [if_pos get, if_pos get, mark, find_byte]
    by_cases query : (63 : UInt8) ∈ req.uri
    · simp [query, cutString, find_byte, take_run]
    · simp [query, takeWhile_absent query]
  · have notGet : req.method ≠ GET := by rw [post]; decide
    rw [if_neg notGet, if_neg notGet, if_pos post]

/-- **The web root, exactly.** For every request line that parses to `GET` or `POST`, every
filesystem and every outcome of the other calls: all paths the response names lie in the
web root if and only if the target of the URI keeps to it. -/
theorem paths_inWebRoot_iff (env : Env) (ep : EndPoint) (os : Os)
    (method : (parseHttpRequestLine ep).httpRequest.method = GET ∨
      (parseHttpRequestLine ep).httpRequest.method = POST) :
    (∀ path ∈ (buildHttpResponse env (parseHttpRequestLine ep) { os with trace := [] }).2.paths, InWebRoot path) ↔
      KeepsToWebRoot (targetOf (parseHttpRequestLine ep).httpRequest) := by
  have target : cStr (splitUri (parseHttpRequestLine ep).httpRequest).path = targetOf _ :=
    congrArg cStr (splitUri_path method)
  have names {allowed : Bytes → Prop} := @names_buildHttpResponse allowed env (parseHttpRequestLine ep)
    { os with trace := [] } method
  have first := inWebRoot_webPath (splitUri (parseHttpRequestLine ep).httpRequest).path
  have index := inWebRoot_indexPath (splitUri (parseHttpRequestLine ep).httpRequest).path
  rw [target] at first index
  constructor
  · intro inside
    obtain ⟨more, eq, -⟩ := @names (fun _ => True) trivial trivial trivial
    refine first.mp (inside _ ?_)
    rw [eq]
    exact List.mem_append_left _ (by simp [Os.paths, Os.located, Os.emit, Syscall.path, firstPath])
  · intro keeps path mem
    obtain ⟨more, eq, ok⟩ := @names InWebRoot (first.mpr keeps) (index.mpr keeps) (by
      rw [InWebRoot]
      decide)
    rw [eq, List.mem_append] at mem
    rcases mem with mem | mem
    · have : path = cStr (firstPath (parseHttpRequestLine ep).httpRequest) := by
        simpa [Os.paths, Os.located, Os.emit, Syscall.path] using mem
      exact this ▸ first.mpr keeps
    · exact ok path mem

/-- An end point that has received a request line. -/
def EndPoint.asked (line : String) : EndPoint :=
  { EndPoint.new 5 0 with httpRequest.requestLine := ascii line }

/-- A system on which nothing has happened. -/
def Os.idle : Os where
  io := ⟨[], .closed⟩
  fds := ∅
  trace := []
  writes := []
  sends := []

theorem paths_inWebRoot_iff_dotted :
    (∀ path ∈ (buildHttpResponse Env.bare (parseHttpRequestLine (.asked "get /css/../a.html?/../ HTTP/1.0"))
        { Os.idle with trace := [] }).2.paths, InWebRoot path) ↔
      KeepsToWebRoot (targetOf (parseHttpRequestLine (.asked "get /css/../a.html?/../ HTTP/1.0")).httpRequest) :=
  paths_inWebRoot_iff Env.bare (.asked "get /css/../a.html?/../ HTTP/1.0") Os.idle (.inl (by decide))

/-- A URI may walk out of the web root, and one that does not start with `/` misses it
altogether. -/
theorem paths_outside :
    (∃ path ∈ (buildHttpResponse Env.bare (parseHttpRequestLine (.asked "GET /../../etc/passwd HTTP/1.0"))
      Os.idle).2.paths, ¬ InWebRoot path) ∧
    (∃ path ∈ (buildHttpResponse Env.bare (parseHttpRequestLine (.asked "POST .bak HTTP/1.0"))
      Os.idle).2.paths, ¬ InWebRoot path) := by
  unfold InWebRoot
  constructor
  · exact ⟨ascii "wwwroot/../../etc/passwd", by decide, by decide⟩
  · exact ⟨ascii "wwwroot.bak", by decide, by decide⟩

/-- A target that starts with `/` and never has more `..` than names keeps to the web root. -/
theorem keepsToWebRoot_of_staysUp {rest : Bytes} (up : Seg.StaysUp (segs rest)) : KeepsToWebRoot (47 :: rest) := by
  rw [KeepsToWebRoot, segs_append_slash, show segs WEB_ROOT = [.name WEB_ROOT] by decide, List.singleton_append]
  exact Seg.grounded_of_staysUp WEB_ROOT up

end HttpServer.Protocol
