import HttpServer.Cgi.Comm
import HttpServer.Service.Reply

/-!
# Forms

A form is sent to a program of the site with its fields in the URI, by `GET`, or in the body, by
`POST`. They reach the program by different ways, an environment variable and a pipe, and
`GetQueryString` reads them back from either. What the program then answers is the reply, if
`execl` has taken the variable: a system has a limit for these, and none for what goes through
the pipe.
-/

namespace HttpServer.Service
open Lib Protocol Cgi

/-- The input of the program, by either way. -/
def Request.input (q : Request) : Bytes := if q.method = GET then cStr (queryOf q.uri) else q.body

/-- A program of the site reads its input back with `GetQueryString`. -/
theorem getQueryString_environ (base : Environ) {q : Request} (method : q.method = GET ∨ q.method = POST)
    (short : q.body.length < 2 ^ 31) :
    getQueryString (q.environ.foldl putenv base) q.stdin [] = some ⟨true, q.input, []⟩ := by
  -- the environment is the child's of a request with this method and this data
  let req : HttpRequest :=
    { (EndPoint.new 0 0).httpRequest with
      method := q.method
      queryString := queryOf q.uri
      contentLength := q.body.length
      requestBody := q.body }
  unfold Request.environ Request.stdin Request.input
  rcases method with get | post
  · have notPost : q.method ≠ POST := by
      rw [get]
      decide
    have same := @environ_get req get
    rw [if_pos get, if_neg notPost, if_pos get]
    exact same ▸ getQueryString_get base [] get
  · have notGet : q.method ≠ GET := by
      rw [post]
      decide
    have same := @environ_post req post
    rw [decimalInt_natCast, cStr_eq_self decimal_clean] at same
    rw [if_neg notGet, if_pos post, if_neg notGet]
    exact same ▸ getQueryString_post base post rfl short

/-! ## Execution -/

/-- What `execl` finds: the environment of the server, and the room there is for the next one. -/
structure Host where
  environ : Environ
  room : Nat

namespace Host
variable (host : Host)

/-- The environment of a child that has put these entries. -/
def child (entries : List Bytes) : Environ := entries.foldl putenv host.environ

/-- `execl(path, path, nullptr)` takes the environment of this child: every string has at most `2 ^ 17`
bytes with its NUL, and there is room for all of them, for the path twice and for the pointers. -/
def Takes (path : Bytes) (entries : List Bytes) : Prop :=
  (∀ entry ∈ host.child entries, entry.length < 2 ^ 17) ∧
    ((host.child entries).map fun entry => entry.length + 9).sum + 2 * (path.length + 1) + 8 ≤ host.room

instance (path : Bytes) (entries : List Bytes) : Decidable (host.Takes path entries) :=
  inferInstanceAs (Decidable (_ ∧ _))

end Host

theorem mem_putenv (environ : Environ) (entry : Bytes) : entry ∈ putenv environ entry := by
  induction environ with
  | nil => exact List.mem_singleton.mpr rfl
  | cons other rest ih =>
    unfold putenv
    split
    · exact List.mem_cons_self
    · exact List.mem_cons_of_mem _ ih

/-- The limit for a query string: the variable has its name and a NUL besides. -/
theorem Host.short_of_takes {host : Host} {path : Bytes} {q : Request} (get : q.method = GET)
    (takes : host.Takes path q.environ) : (cStr (queryOf q.uri)).length ≤ 131058 := by
  have put : QUERY_STRING ++ ascii "=" ++ cStr (queryOf q.uri) ∈ host.child q.environ := by
    unfold Host.child Request.environ
    rw [if_pos get]
    exact mem_putenv ..
  have length : (QUERY_STRING ++ ascii "=").length = 13 := by decide
  have short := takes.1 _ put
  rw [List.length_append, length] at short
  omega

/-! ## By both methods -/

/-- A form for the program that the URI `name` names, with its fields in the URI. -/
structure Got (name queryString : Bytes) (r : WireRequest) : Prop where
  method : r.method.map toUpper = GET
  uri : r.uri = name ++ 63 :: queryString
  short : r.encode.length < 2 ^ 31

/-- The same, with its fields in the body. -/
structure Posted (name queryString : Bytes) (r : WireRequest) : Prop where
  method : r.method.map toUpper = POST
  uri : r.uri = name
  body : r.body = queryString
  declared : r.headers.lookup Protocol.CONTENT_LENGTH = some (decimal r.body.length)
  short : r.encode.length < 2 ^ 31

section Forms
variable {site : Site} {name queryString : Bytes} {r : WireRequest}

theorem Got.means (got : Got name queryString r) : means r = ⟨GET, name ++ 63 :: queryString, []⟩ := by
  have differ : GET ≠ POST := by decide
  simp [Service.means, got.method, got.uri, differ]

theorem Posted.means (posted : Posted name queryString r) : means r = ⟨POST, name, queryString⟩ := by
  simp [Service.means, posted.method, posted.uri, posted.body, posted.declared]

theorem Got.sent (got : Got name queryString r) (c : Connection site r) :
    c.sent = (reply site (Service.means r)).bytes := by
  have differ : GET ≠ POST := by decide
  have framed (value : Bytes) (declared : r.Declares value) : value = decimal r.body.length :=
    absurd (got.method.symm.trans declared.1) differ
  have arrived : c.os.io.unread = r.encode := by rw [c.arrived]
  obtain ⟨going, asked⟩ := asks_encode c.sock c.env.staleSize arrived framed got.short
  rw [c.sent_asked got.short going, asked]

theorem Posted.sent (posted : Posted name queryString r) (c : Connection site r) :
    c.sent = (reply site (Service.means r)).bytes := by
  have framed (value : Bytes) (declared : r.Declares value) : value = decimal r.body.length :=
    Option.some.inj (declared.2.symm.trans posted.declared)
  have arrived : c.os.io.unread = r.encode := by rw [c.arrived]
  obtain ⟨going, asked⟩ := asks_encode c.sock c.env.staleSize arrived framed posted.short
  rw [c.sent_asked posted.short going, asked]

/-- A `GET` names the program before its `?`, and hands it what follows. -/
theorem location_got (plain : (63 : UInt8) ∉ name) (queryString : Bytes) :
    (Request.mk GET (name ++ 63 :: queryString) []).location = webPath name := by
  unfold Request.location
  rw [if_pos rfl, takeWhile_until plain]

theorem queryOf_got (plain : (63 : UInt8) ∉ name) (queryString : Bytes) :
    queryOf (name ++ 63 :: queryString) = queryString := by
  unfold queryOf
  rw [dropWhile_until plain]
  rfl

theorem input_got (plain : (63 : UInt8) ∉ name) (queryString : Bytes) :
    (Request.mk GET (name ++ 63 :: queryString) []).input = cStr queryString := by
  unfold Request.input
  rw [if_pos rfl, queryOf_got plain]

theorem location_posted (name queryString : Bytes) : (Request.mk POST name queryString).location = webPath name := by
  have notGet : POST ≠ GET := by decide
  unfold Request.location
  rw [if_neg notGet]

theorem input_posted (name queryString : Bytes) : (Request.mk POST name queryString).input = queryString := by
  have notGet : POST ≠ GET := by decide
  unfold Request.input
  rw [if_neg notGet]

/-- Too long a form for a variable. -/
theorem Got.refused (got : Got name queryString r) (plain : (63 : UInt8) ∉ name) (clean : (0 : UInt8) ∉ queryString)
    (long : 131058 < queryString.length) (host : Host) (path : Bytes) : ¬ host.Takes path (Service.means r).environ := by
  rw [got.means]
  intro takes
  have short := Host.short_of_takes rfl takes
  rw [queryOf_got plain, cStr_eq_self clean] at short
  omega

/-- A program answers what is asked of it. -/
theorem reply_program {path : Bytes} {text : Option Bytes} (node : site.node path = some (.file true text))
    (whole : cStr path = path) {q : Request} (method : q.method = GET ∨ q.method = POST) (here : q.location = path) :
    reply site q = programReply site (suffix2Desc (suffixOf path)) (site.run path q.environ q.stdin) := by
  have target : site.target path = some (path, .file true text) := by
    unfold Site.target
    rw [whole, node]
  unfold reply
  rw [if_pos method, here, target]
  simp only [Node.executable, Bool.or_true, if_true, whole]

/-- A child that `execl` has refused ends with status 1. -/
theorem reply_refused {path : Bytes} {text : Option Bytes} (node : site.node path = some (.file true text))
    (whole : cStr path = path) {q : Request} (method : q.method = GET ∨ q.method = POST) (here : q.location = path)
    (refused : (site.run path q.environ q.stdin).2 = .exited 1) : reply site q = failure site BAD_REQUEST := by
  rw [reply_program node whole method here]
  simp [programReply, refused]

end Forms

/-! ## A site with one program -/

/-- A server without an environment, on a system with the usual room. -/
def Host.bare : Host := ⟨[], 2 ^ 21⟩

/-- A site with nothing but a program. -/
def Site.only (path : Bytes) (run : List Bytes → Bytes → Bytes × WaitStatus) : Site where
  node := fun name => if name = path then some (.file true none) else none
  run := fun _ => run
  textShort := by
    intro path executable text node
    split at node <;> cases node
  errorFile := by split <;> simp

/-- A machine on which the program has just printed this. -/
def onlyEnv (path output : Bytes) : Env where
  stat := fun name => if name = path then some ⟨0o100755, 10⟩ else none
  openOk := fun _ => false
  pipeInput := true
  pipeOutput := true
  forkOk := true
  cgiOutput := output
  wait := .exited 0
  staleStat := ⟨0, 0⟩
  staleSize := 0

theorem shows_only {path output : Bytes} (run : List Bytes → Bytes → Bytes × WaitStatus)
    (addressable : output.length < 2 ^ 63) : Shows (onlyEnv path output) (fun _ => []) (Site.only path run) := by
  constructor
  case nodes =>
    intro name
    simp only [onlyEnv, Site.only]
    split
    · exact .unreadable ⟨0o100755, 10⟩ rfl (by decide) rfl
    · exact .missing rfl rfl
  case pipes => exact ⟨rfl, rfl, rfl⟩
  case addressable => exact addressable

theorem headerTexts_nil : ∀ h ∈ ([] : List (Bytes × Bytes)), OneLine h.1 ∧ OneLine h.2 :=
  fun _ mem => absurd mem List.not_mem_nil

theorem headerNames_nil : ∀ h ∈ ([] : List (Bytes × Bytes)), ¬ SEP <:+: h.1 :=
  fun _ mem => absurd mem List.not_mem_nil

/-- A `GET` with nothing but its request line. -/
def getOf (uri : Bytes) (word : IsWord uri) : WireRequest :=
  { postedForm with
    method := ascii "GET"
    uri := uri
    headers := []
    body := []
    trailing := []
    methodWord := .of_all (by decide) (by decide)
    uriWord := word
    headerTexts := headerTexts_nil
    headerNames := headerNames_nil
    bodyShort := by decide }

theorem oneLine_contentLength : OneLine Protocol.CONTENT_LENGTH := by
  unfold OneLine
  decide

/-- A `POST` with a body and its length. -/
def postOf (uri body : Bytes) (word : IsWord uri) (short : body.length < 2 ^ 31)
    (length : OneLine (decimal body.length)) : WireRequest :=
  { getOf uri word with
    method := ascii "POST"
    headers := [(Protocol.CONTENT_LENGTH, decimal body.length)]
    body := body
    methodWord := .of_all (by decide) (by decide)
    headerTexts := by
      intro h mem
      obtain rfl := List.mem_singleton.mp mem
      exact ⟨oneLine_contentLength, length⟩
    headerNames := by simp [ascii, SEP, Protocol.CONTENT_LENGTH, List.infix_cons_iff]
    bodyShort := short }

/-- A system on which the bytes of a request have arrived. -/
def arrivedOn (r : WireRequest) : Os := ⟨⟨r.encode, .closed⟩, {0, 1, 2, 3, 5}, [], [], []⟩

/-- The trace has one child, which the site runs. -/
theorem conducts_of {site : Site} {env : Env} {os : Os} {input output : Int × Int} {path : Bytes} {environ : List Bytes}
    (ends : os.trace.flatMap pipeEnds = [input, output]) (programs : os.trace.flatMap program = [(path, environ)])
    (ran : site.run path environ (pipeContents output.2 os) = (env.cgiOutput, env.wait)) : Conducts site env os := by
  intro input' output' path' environ' ends' programs'
  cases ends.symm.trans ends'
  cases programs.symm.trans programs'
  exact ran

/-- The connection, if the child does as it should. -/
def onlyOn {path output : Bytes} (run : List Bytes → Bytes → Bytes × WaitStatus) (addressable : output.length < 2 ^ 63)
    (r : WireRequest)
    (conducts :
      Conducts (.only path run) (onlyEnv path output) (handlerRequest (onlyEnv path output) 5 (arrivedOn r))) :
    Connection (.only path run) r where
  env := onlyEnv path output
  contents := fun _ => []
  start := {0, 1, 2}
  sock := 5
  os := arrivedOn r
  fin := .closed
  shows := shows_only run addressable
  serving := by
    constructor
    · show ({0, 1, 2} : Finset Nat) ⊆ {0, 1, 2, 3, 5}
      decide
    · show lowestUnused {0, 1, 2} ∈ ({0, 1, 2, 3, 5} : Finset Nat)
      decide
  arrived := rfl
  positive := by simp [arrivedOn]
  transfers := rfl
  conducts := conducts

end HttpServer.Service
