import HttpServer.Protocol.Calls

/-!
# The target that is served

`BuildHttpResponse` may change its path twice, and looks the second path up into the same
buffer without testing the result. `served` is the end point it hands to `ProcessCgi` or
`ProcessNonCgi`; `Described` says that the path of that end point names a file and that
what was decided on was read of that file. `target_described_iff` is the condition: the
index page of a directory has to exist, and not to be a directory itself.
-/

namespace HttpServer.Protocol
open Lib Net

/-- The request names a target: its method is known. -/
def Known (req : HttpRequest) : Prop := req.method = GET ∨ req.method = POST

/-- The end point that is handed to `ProcessCgi` or `ProcessNonCgi`, if there is one. -/
def served (env : Env) (ep : EndPoint) : Option EndPoint :=
  (env.stat (cStr (firstPath ep.httpRequest))).map (ep.targeted env)

/-- The path names an entry that is not a directory, and the mode bits and the size used are
those of that entry. -/
def Described (env : Env) (req : HttpRequest) (ep : EndPoint) : Prop :=
  ∃ st, env.stat (cStr ep.httpRequest.path) = some st ∧ st.isDir = false ∧
    ep.httpRequest.cgi = ((splitUri req).cgi || st.isExec) ∧ ep.httpRequest.size = int32 st.size

/-- The path the request comes to: the index page where the first path is a directory. -/
def resolvedPath (env : Env) (req : HttpRequest) : Bytes :=
  match env.stat (cStr (firstPath req)) with
  | some st => if st.isDir then indexPath (firstPath req) else firstPath req
  | none => firstPath req

/-- There is a file to serve. -/
def HasTarget (env : Env) (req : HttpRequest) : Prop :=
  ∃ st, env.stat (cStr (resolvedPath env req)) = some st ∧ st.isDir = false

/-- **The condition on the filesystem.** If the first path is a directory, its index page exists
and is not a directory. -/
def IndexPagePresent (env : Env) (req : HttpRequest) : Prop :=
  ∀ st, env.stat (cStr (firstPath req)) = some st → st.isDir = true →
    ∃ st', env.stat (cStr (indexPath (firstPath req))) = some st' ∧ st'.isDir = false

section Target
variable {env : Env} {ep : EndPoint}

/-- What is served is handed to the content source its `cgi` flag names. -/
theorem dispatch_served (os : Os) (known : Known ep.httpRequest) {ep' : EndPoint} (serves : served env ep = some ep') :
    ∃ os', Childless os os' ∧ dispatch env ep os = content ep'.httpRequest.cgi env ep' os' := by
  obtain ⟨st, found, rfl⟩ := Option.map_eq_some_iff.mp serves
  refine ⟨os.targeted ep.httpRequest st, childless_targeted os ep.httpRequest st, ?_⟩
  apply dispatch_cases (motive := fun a => a = content _ env _ _)
  case unknown => exact fun unknown => absurd known unknown
  case missing =>
    intro _ missing
    rw [missing] at found
    cases found
  case found =>
    intro st' _ found'
    obtain rfl := Option.some.inj (found.symm.trans found')
    rfl

/-- If nothing is served the status is 404, and no child is made. -/
theorem dispatch_missing (os : Os) (known : Known ep.httpRequest) (missing : served env ep = none) :
    (dispatch env ep os).code = NOT_FOUND ∧ Childless os (dispatch env ep os).os := by
  have none := Option.map_eq_none_iff.mp missing
  apply dispatch_cases (motive := fun a => a.code = NOT_FOUND ∧ Childless os a.os)
  case unknown => exact fun unknown => absurd known unknown
  case missing => exact fun _ _ => ⟨rfl, appends_emit os rfl⟩
  case found =>
    intro st _ found
    rw [none] at found
    cases found

/-- The path of what is served is the resolved one. -/
theorem path_served {ep' : EndPoint} (serves : served env ep = some ep') :
    ep'.httpRequest.path = resolvedPath env ep.httpRequest := by
  obtain ⟨st, found, rfl⟩ := Option.map_eq_some_iff.mp serves
  show (redirect env (firstPath ep.httpRequest) st).1 = _
  unfold redirect resolvedPath
  rw [found]
  simp only
  split <;> rfl

/-- A target that exists is described by what was looked up. -/
theorem described_served (present : IndexPagePresent env ep.httpRequest) {ep' : EndPoint}
    (serves : served env ep = some ep') : Described env ep.httpRequest ep' := by
  obtain ⟨st, found, rfl⟩ := Option.map_eq_some_iff.mp serves
  have target : ∃ st', env.stat (cStr (redirect env (firstPath ep.httpRequest) st).1) = some st' ∧
      st'.isDir = false := by
    unfold redirect
    cases dir : st.isDir with
    | true =>
      rw [if_pos rfl]
      exact present st found dir
    | false =>
      rw [if_neg Bool.false_ne_true]
      exact ⟨st, found, dir⟩
  obtain ⟨st', exists_, plain⟩ := target
  have same := redirect_described found exists_
  refine ⟨st', exists_, plain, ?_, ?_⟩
  · show servesCgi env ep.httpRequest st = _
    unfold servesCgi
    rw [same]
  · show int32 (redirect env (firstPath ep.httpRequest) st).2.size = _
    rw [same]

/-- **The target served, exactly.** What is `served` is what `dispatch` hands over. For every
known method, URI and filesystem: whatever is handed to `ProcessCgi` or `ProcessNonCgi` is
an existing file described by its own `stat`, and without a file to serve the status is 404
and no child is made, if and only if the first path is no directory or has an index page
that is a file. -/
theorem target_described_iff (env : Env) (ep : EndPoint) (os : Os) (known : Known ep.httpRequest) :
    (∀ ep', served env ep = some ep' →
      ∃ os', Childless os os' ∧ dispatch env ep os = content ep'.httpRequest.cgi env ep' os') ∧
    (((∀ ep', served env ep = some ep' → Described env ep.httpRequest ep') ∧
      (¬ HasTarget env ep.httpRequest →
        (dispatch env ep os).code = NOT_FOUND ∧ Childless os (buildHttpResponse env ep os).2)) ↔
      IndexPagePresent env ep.httpRequest) := by
  refine ⟨fun ep' serves => dispatch_served os known serves, ?_⟩
  constructor
  · rintro ⟨described, -⟩ st found dir
    have serves : served env ep = some (ep.targeted env st) := Option.map_eq_some_iff.mpr ⟨st, found, rfl⟩
    obtain ⟨st', present, plain, -⟩ := described _ serves
    rw [path_served serves] at present
    unfold resolvedPath at present
    rw [found] at present
    simp only [dir, if_true] at present
    exact ⟨st', present, plain⟩
  · intro present
    refine ⟨fun ep' serves => described_served present serves, fun without => ?_⟩
    have missing : served env ep = none := by
      cases serves : served env ep with
      | none => rfl
      | some ep' =>
        obtain ⟨st, found, plain, -⟩ := described_served present serves
        rw [path_served serves] at found
        exact absurd ⟨st, found, plain⟩ without
    obtain ⟨code, childless⟩ := dispatch_missing os known missing
    exact ⟨code, childless.trans (childless_helper ..)⟩

end Target

/-- A machine whose web root holds one empty directory, `dir`. -/
def Env.emptyDir : Env :=
  { Env.bare with stat := fun path => if path = ascii "wwwroot/dir" then some ⟨0o040755, 4096⟩ else none }

/-- An end point that has parsed this request line. -/
def EndPoint.requested (line : String) : EndPoint :=
  parseHttpRequestLine { EndPoint.new 5 0 with httpRequest.requestLine := ascii line }

/-- A system on which nothing has happened. -/
def Os.quiet : Os where
  io := ⟨[], .closed⟩
  fds := {0, 1, 2, 5}
  trace := []
  writes := []
  sends := []

/-- A machine whose web root holds one directory, `dir`, with an index page. -/
def Env.indexed : Env :=
  { Env.bare with stat := fun path =>
      if path = ascii "wwwroot/dir" then some ⟨0o040755, 4096⟩
      else if path = ascii "wwwroot/dir/index.html" then some ⟨0o100644, 120⟩
      else none }

/-- The page of the directory is served, though not as a page: the directory can be searched, and
no page is looked up where there is none. -/
theorem target_described_iff_index :
    ∃ ep', served Env.indexed (.requested "GET /dir HTTP/1.0") = some ep' ∧
      ep'.httpRequest.path = ascii "wwwroot/dir/index.html" ∧ ep'.httpRequest.size = 120 ∧
      Described .indexed (EndPoint.requested "GET /dir HTTP/1.0").httpRequest ep' ∧
      ∃ os', Childless Os.quiet os' ∧
        dispatch .indexed (.requested "GET /dir HTTP/1.0") Os.quiet =
          content ep'.httpRequest.cgi .indexed ep' os' := by
  have present : IndexPagePresent .indexed (EndPoint.requested "GET /dir HTTP/1.0").httpRequest :=
    fun _ _ _ => ⟨⟨0o100644, 120⟩, by decide, by decide⟩
  obtain ⟨handed, iff⟩ := target_described_iff .indexed (.requested "GET /dir HTTP/1.0") Os.quiet (.inl (by decide))
  have serves : served Env.indexed (.requested "GET /dir HTTP/1.0") = some (EndPoint.targeted .indexed
    (.requested "GET /dir HTTP/1.0") ⟨0o040755, 4096⟩) := by decide
  exact ⟨_, serves, by decide, by decide, (iff.mpr present).1 _ serves, handed _ serves⟩

/-- A directory without an index page: a child is forked for a page that does not exist, because
the directory can be searched. -/
theorem target_not_described :
    (∃ ep', served Env.emptyDir (.requested "GET /dir HTTP/1.0") = some ep' ∧
      ¬ Described .emptyDir (EndPoint.requested "GET /dir HTTP/1.0").httpRequest ep') ∧
    ¬ HasTarget .emptyDir (EndPoint.requested "GET /dir HTTP/1.0").httpRequest ∧
    (dispatch .emptyDir (.requested "GET /dir HTTP/1.0") Os.quiet).code ≠ NOT_FOUND ∧
    Syscall.fork true ∈ (dispatch .emptyDir (.requested "GET /dir HTTP/1.0") Os.quiet).os.trace := by
  have missing : Env.emptyDir.stat (cStr (ascii "wwwroot/dir/index.html")) = none := by decide
  refine ⟨⟨EndPoint.targeted .emptyDir (.requested "GET /dir HTTP/1.0") ⟨0o040755, 4096⟩, by decide, ?_⟩, ?_,
    by decide, by decide⟩
  · rintro ⟨st, found, -⟩
    exact absurd (found.symm.trans missing) (by simp)
  · rintro ⟨st, found, -⟩
    exact absurd (found.symm.trans missing) (by simp)

end HttpServer.Protocol
