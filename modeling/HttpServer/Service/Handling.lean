import HttpServer.Service.Client
import HttpServer.Service.Reply

/-!
# A handler gives the reply of the site

Function by function, what the handler ensures in the world of its client. Between `dispatch`
and `SendHttpResponse` the response is `Staged`: its parts stand ready in the end point, and a
file to be sent is open. `ensures_handlerRequest` is the result, for every answer the world
allows.
-/

namespace HttpServer.Service
open Lib Net Protocol Cgi Server
open Lib.Program (ensures_pure)

variable {site : Site} {v : View}

/-- Nothing has gone to the client. -/
structure Silent (v v' : View) : Prop where
  request : v'.request = v.request
  sock : v'.sock = v.sock
  sent : v'.sent = v.sent

theorem Silent.refl (v : View) : Silent v v := ⟨rfl, rfl, rfl⟩

theorem Silent.trans {v v' v'' : View} (first : Silent v v') (second : Silent v' v'') : Silent v v'' :=
  ⟨second.request.trans first.request, second.sock.trans first.sock, second.sent.trans first.sent⟩

/-- Closing changes the files alone. -/
theorem ensures_close {α : Type} {post : α → View → Prop} {f : Unit → Handler α} (fd : Int)
    (rest : ∀ files, (f ()).Ensures (client site) post { v with files := files }) :
    (Handler.close fd >>= f).Ensures (client site) post v := by
  rintro ⟨⟩ _
  show (f ()).Ensures (client site) post (v.after site (.close fd) ())
  unfold View.after
  simp only
  split
  · exact rest _
  · exact rest v.files

/-! ## The child -/

/-- However the body is split, the child is given all of it. -/
theorem ensures_writeLoop {fd fuel total : Nat} {body : Bytes} (stdin : v.stdin = some fd)
    (within : total ≤ body.length) (enough : body.length - total < fuel) :
    (Handler.writeLoop fd body body.length fuel total).Ensures (client site)
      (fun _ v' => v' = { v with given := v.given ++ body.drop total }) v := by
  induction fuel generalizing total v with
  | zero => omega
  | succ fuel ih =>
    unfold Handler.writeLoop
    by_cases more : total < body.length
    · have nonempty : body.drop total ≠ [] := by
        intro nothing
        have := List.drop_eq_nil_iff.mp nothing
        omega
      rw [if_pos (by exact_mod_cast more), Int.toNat_natCast]
      intro (size : Int) allowed
      obtain ⟨some, most⟩ := allowed nonempty
      rw [List.length_drop] at most
      have after : (client site).after v (.write fd (body.drop total)) size =
          { v with given := v.given ++ (body.drop total).take size.toNat } := by
        simp [client, View.after, stdin]
      have sum : (total : Int) + size = (total + size.toNat : Nat) := by omega
      have rest := @ih { v with given := v.given ++ (body.drop total).take size.toNat } (total + size.toNat) stdin
        (by omega) (by omega)
      rw [after]
      show (if 0 < size then _ else _ : Handler Unit).Ensures _ _ _
      rw [if_pos some, sum]
      apply rest.mono
      rintro _ _ rfl
      simp only [List.append_assoc, ← List.drop_drop, List.take_append_drop]
    · have done : body.drop total = [] := List.drop_eq_nil_of_le (by omega)
      rw [if_neg (by exact_mod_cast more), done, List.append_nil]
      exact ensures_pure rfl

theorem ensures_writeBody {fd : Nat} {req : HttpRequest} (stdin : v.stdin = some fd) (exactly : Exact req) :
    (Handler.writeBody fd req).Ensures (client site)
      (fun _ v' => v' = { v with given := v.given ++ givenBody req }) v := by
  unfold Handler.writeBody givenBody
  split
  · rw [exactly]
    exact ensures_writeLoop stdin (Nat.zero_le _) (by omega)
  · rw [List.append_nil]
    exact ensures_pure rfl

/-- The status code for the end of a program. -/
def codeOf : WaitStatus → Int
  | .failed => OK
  | .exited status => if status = 0 then OK else BAD_REQUEST
  | .signaled => SERVER_ERROR

/-- The parent returns the run of the child on what it gives it. -/
theorem ensures_cgiParent {in0 in1 out0 out1 : Nat} {ep : EndPoint} {path : Bytes} {environ : List Bytes}
    (stdin : v.stdin = some out1) (child : v.child = some (path, environ)) (exactly : Exact ep.httpRequest) :
    (Handler.cgiParent in0 in1 out0 out1 ep).Ensures (client site)
      (fun a v' => Silent v v' ∧
        a = (codeOf (site.run path environ (v.given ++ givenBody ep.httpRequest)).2,
          { ep with
            httpResponse.responseBody := ep.httpResponse.responseBody ++
              (site.run path environ (v.given ++ givenBody ep.httpRequest)).1 })) v := by
  unfold Handler.cgiParent
  apply ensures_close
  intro files₁
  apply ensures_close
  intro files₂
  have written := @ensures_writeBody site { v with files := files₂ } out1 ep.httpRequest stdin exactly
  apply written.bind
  rintro _ _ rfl
  have ran : View.ran site { v with files := files₂, given := v.given ++ givenBody ep.httpRequest } =
      site.run path environ (v.given ++ givenBody ep.httpRequest) := by
    simp only [View.ran, child]
  intro (output : Bytes) (printed : output = (View.ran site _).1) (status : WaitStatus)
    (ended : status = (View.ran site _).2)
  obtain rfl := printed.trans (congrArg Prod.fst ran)
  obtain rfl := ended.trans (congrArg Prod.snd ran)
  apply ensures_close
  intro files₃
  apply ensures_close
  intro files₄
  exact ensures_pure ⟨⟨rfl, rfl, rfl⟩, rfl⟩

/-- `ProcessCgi` returns the run of the program on what the request brings. -/
theorem ensures_processCgi {ep : EndPoint} (nothing : v.given = []) (exactly : Exact ep.httpRequest) :
    (Handler.processCgi ep).Ensures (client site)
      (fun a v' => Silent v v' ∧
        a = (codeOf (site.run (cStr ep.httpRequest.path) (childEnviron ep.httpRequest) (givenBody ep.httpRequest)).2,
          { ep with
            httpResponse.responseBody := ep.httpResponse.responseBody ++
              (site.run (cStr ep.httpRequest.path) (childEnviron ep.httpRequest) (givenBody ep.httpRequest)).1 })) v := by
  unfold Handler.processCgi
  rintro (input : Option (Nat × Nat)) made
  obtain ⟨⟨in0, in1⟩, rfl⟩ := Option.isSome_iff_exists.mp made
  rintro (output : Option (Nat × Nat)) made
  obtain ⟨⟨out0, out1⟩, rfl⟩ := Option.isSome_iff_exists.mp made
  rintro (forked : Bool) rfl
  have parent := @ensures_cgiParent site
    { v with stdin := some out1, child := some (cStr ep.httpRequest.path, childEnviron ep.httpRequest) }
    in0 in1 out0 out1 ep _ _ rfl rfl exactly
  apply Program.Ensures.mono parent
  rintro a v' ⟨silent, same⟩
  simp only [nothing, List.nil_append] at same
  exact ⟨⟨silent.request, silent.sock, silent.sent⟩, same⟩

/-! ## The target -/

theorem Node.describes_isExec {node : Node} {st : Stat} (described : node.describes st) :
    st.isExec = node.executable := by
  cases node with
  | folder => exact described.2
  | file executable text => exact described.2.1

/-- `stat` succeeds on what the site has, and describes it. -/
theorem ensures_stat {α : Type} {post : α → View → Prop} {path : Bytes} {f : Option Stat → Handler α}
    (missing : site.node path = none → (f none).Ensures (client site) post v)
    (found : ∀ node st, site.node path = some node → node.describes st → (f (some st)).Ensures (client site) post v) :
    (Handler.stat path >>= f).Ensures (client site) post v := by
  intro (st : Option Stat) allowed
  have allowed : site.stats path st := allowed
  unfold Site.stats at allowed
  cases named : site.node path with
  | none =>
    cases st with
    | none => exact missing named
    | some st =>
      rw [named] at allowed
      exact absurd allowed id
  | some node =>
    cases st with
    | none =>
      rw [named] at allowed
      exact absurd allowed id
    | some st =>
      rw [named] at allowed
      exact found node st named allowed

/-- The target is the site's, and `stat` has described it. -/
theorem ensures_redirect {path : Bytes} {top : Node} {st : Stat} (named : site.node (cStr path) = some top)
    (described : top.describes st) :
    (Handler.redirect path st).Ensures (client site)
      (fun target v' => v' = v ∧ ∃ node, site.target path = some (target.1, node) ∧ node.describes target.2 ∧
        (node.executable = false → site.node (cStr target.1) = some node)) v := by
  unfold Handler.redirect Site.target
  rw [named]
  cases top with
  | folder =>
    rw [if_pos described.1]
    apply ensures_stat
    · intro missing
      exact ensures_pure ⟨rfl, .folder, by rw [missing]; rfl, described, nofun⟩
    · intro node st' found described'
      exact ensures_pure ⟨rfl, node, by rw [found]; rfl, described', fun _ => found⟩
  | file executable text =>
    rw [if_neg (by simp [described.1])]
    exact ensures_pure ⟨rfl, _, rfl, described, fun _ => named⟩

/-! ## The content of a response -/

/-- What a dispatch that comes to the response `r` leaves: a failure, the output of a program, or an
open file. -/
inductive Content (site : Site) : Int × EndPoint → View → Response → Prop where
  | failed {code : Int} {ep : EndPoint} {v : View} : ErrorCode code → Content site (code, ep) v (failure site code)
  | program {ep : EndPoint} {v : View} : ep.httpRequest.cgi = true → ep.httpResponse.responseBody.length < 2 ^ 63 →
      Content site (OK, ep) v (described OK (suffix2Desc ep.httpRequest.suffix) ep.httpResponse.responseBody)
  | file {ep : EndPoint} {v : View} : ep.httpRequest.cgi = false →
      ep.httpRequest.size = (v.text ep.httpResponse.fd).length → (v.text ep.httpResponse.fd).length < 2 ^ 31 →
      Content site (OK, ep) v (described OK (suffix2Desc ep.httpRequest.suffix) (v.text ep.httpResponse.fd))

/-- The run of a program as the content of a response. -/
theorem content_program (ep : EndPoint) (v : View) (cgi : ep.httpRequest.cgi = true)
    (empty : ep.httpResponse.responseBody = []) {ran : Bytes × WaitStatus} (short : ran.1.length < 2 ^ 63) :
    Content site (codeOf ran.2, { ep with httpResponse.responseBody := ep.httpResponse.responseBody ++ ran.1 }) v
      (programReply site (suffix2Desc ep.httpRequest.suffix) ran) := by
  obtain ⟨output, status⟩ := ran
  rw [empty, List.nil_append]
  have ok : Content site (OK, { ep with httpResponse.responseBody := output }) v
      (described OK (suffix2Desc ep.httpRequest.suffix) output) := .program cgi short
  unfold programReply codeOf
  cases status with
  | failed => exact ok
  | exited status =>
    by_cases clean : status = 0
    · simp only [clean, if_true]
      exact ok
    · simp only [clean, if_false]
      exact .failed (.inr (.inl rfl))
  | signaled => exact .failed (.inr (.inr rfl))

/-- `open` succeeds on the texts of the site, and on nothing else that is no folder. -/
theorem ensures_openRead {α : Type} {post : α → View → Prop} {path : Bytes} {f : Int → Handler α}
    (plain : site.node path ≠ some .folder)
    (closed : ∀ fd < 0, site.text path = none → (f fd).Ensures (client site) post v)
    (opened : ∀ fd text v', 0 < fd → site.text path = some text → Silent v v' → v'.text fd = text →
      (f fd).Ensures (client site) post v') :
    (Handler.openRead path >>= f).Ensures (client site) post v := by
  intro (fd : Int) allowed
  have answer : if (site.text path).isSome then 0 < fd else fd < 0 := Or.resolve_left allowed plain
  show (f fd).Ensures (client site) post (v.after site (.openRead path) fd)
  unfold View.after
  simp only
  cases text : site.text path with
  | none =>
    have neg : fd < 0 := by simpa [text] using answer
    rw [if_neg (by omega)]
    exact closed fd neg text
  | some t =>
    have pos : 0 < fd := by simpa [text] using answer
    rw [if_pos pos.le]
    refine opened fd t { v with files := Function.update v.files fd.toNat (some t) } pos text ⟨rfl, rfl, rfl⟩ ?_
    simp [View.text, pos.le]

theorem ensures_processNonCgi {ep : EndPoint} {node : Node} (static : ep.httpRequest.cgi = false)
    (named : site.node (cStr ep.httpRequest.path) = some node) (plain : node.executable = false)
    (size : ∀ text, site.text (cStr ep.httpRequest.path) = some text → ep.httpRequest.size = text.length) :
    (Handler.processNonCgi ep).Ensures (client site)
      (fun a v' => Silent v v' ∧ (∃ fd, a.2 = { ep with httpResponse.fd := fd }) ∧
        Content site a v' (fileReply site (suffix2Desc ep.httpRequest.suffix) node)) v := by
  cases node with
  | folder => cases plain
  | file executable text =>
    have known : site.text (cStr ep.httpRequest.path) = text := by
      unfold Site.text
      rw [named]
    apply ensures_openRead
    case plain =>
      rw [named]
      nofun
    case closed =>
      intro fd neg missing
      rw [known] at missing
      subst missing
      refine ensures_pure ⟨.refl v, ⟨fd, rfl⟩, ?_⟩
      rw [if_neg (by omega)]
      exact .failed (.inl rfl)
    case opened =>
      intro fd t v' pos found silent holds
      obtain rfl := known.symm.trans found
      refine ensures_pure ⟨silent, ⟨fd, rfl⟩, ?_⟩
      have short := site.textShort _ _ _ named
      have same := size t found
      rw [if_pos pos.le]
      subst holds
      exact .file static same short

/-- `stat` has the size of a text, and it survives the `int` it is kept in. -/
theorem size_described {path text : Bytes} {node : Node} {st : Stat} (described : node.describes st)
    (named : site.node path = some node) (found : site.text path = some text) :
    st.size = text.length ∧ int32 st.size = text.length ∧ text.length < 2 ^ 31 := by
  unfold Site.text at found
  rw [named] at found
  cases node with
  | folder => cases found
  | file executable text' =>
    obtain rfl : text' = some text := found
    have size := described.2.2 text rfl
    have short := site.textShort _ _ _ named
    exact ⟨size, by rw [size]; exact int32_of_bounds (by omega) (by omega), short⟩

/-- A dispatch comes to the reply of the site. -/
theorem ensures_dispatch {ep : EndPoint} (accepted : Accepted ep) (nothing : v.given = [])
    (short : ∀ path environ stdin, (site.run path environ stdin).1.length < 2 ^ 63) :
    (Handler.dispatch ep).Ensures (client site)
      (fun a v' => Silent v v' ∧ Fresh a.2 ∧ a.2.sock = ep.sock ∧
        Content site a v' (reply site (asks ep.httpRequest))) v := by
  unfold Handler.dispatch
  by_cases method : ep.httpRequest.method = GET ∨ ep.httpRequest.method = POST
  case neg =>
    have fails : reply site (asks ep.httpRequest) = failure site BAD_REQUEST := if_neg method
    rw [if_pos (not_or.mp method), fails]
    exact ensures_pure ⟨.refl v, accepted.fresh, rfl, .failed (.inr (.inl rfl))⟩
  case pos =>
    have known : (asks ep.httpRequest).method = GET ∨ (asks ep.httpRequest).method = POST := method
    have location : (asks ep.httpRequest).location = webPath (splitUri ep.httpRequest).path := location_asks method
    rw [if_neg (by tauto)]
    apply ensures_stat
    case missing =>
      intro missing
      have fails : reply site (asks ep.httpRequest) = failure site NOT_FOUND := by
        unfold reply Site.target
        rw [if_pos known, location, missing]
      rw [fails]
      exact ensures_pure ⟨.refl v, accepted.fresh.same ⟨rfl, rfl, rfl⟩, rfl, .failed (.inl rfl)⟩
    case found =>
      intro top st named described
      apply (ensures_redirect named described).bind
      rintro ⟨path, st'⟩ w ⟨rfl, node, target, described', plain⟩
      have serves :
          ((splitUri ep.httpRequest).cgi || st'.isExec) = ((asks ep.httpRequest).form || node.executable) := by
        rw [form_asks method accepted.noForm, Node.describes_isExec described']
      have replies : reply site (asks ep.httpRequest) =
          if (splitUri ep.httpRequest).cgi || st'.isExec then
            programReply site (suffix2Desc (suffixOf path))
              (site.run (cStr path) (asks ep.httpRequest).environ (asks ep.httpRequest).stdin)
          else fileReply site (suffix2Desc (suffixOf path)) node := by
        rw [serves]
        unfold reply
        rw [if_pos known, location, target]
      rw [replies]
      let req : HttpRequest :=
        { splitUri ep.httpRequest with
          path := path
          cgi := (splitUri ep.httpRequest).cgi || st'.isExec
          size := int32 st'.size
          suffix := suffixOf path }
      have same : SameInput ep.httpRequest req := by
        obtain ⟨sameMethod, sameLength, sameBody⟩ := splitUri_keeps ep.httpRequest
        exact ⟨sameMethod, sameLength, sameBody, rfl⟩
      show (if req.cgi then Handler.processCgi { ep with httpRequest := req }
        else Handler.processNonCgi { ep with httpRequest := req } : Handler _).Ensures _ _ _
      by_cases cgi : req.cgi = true
      · have run := @ensures_processCgi site w { ep with httpRequest := req } nothing (same.exact accepted.exactly)
        simp only [environ_asks method accepted.exactly accepted.noQuery same, stdin_asks same] at run
        rw [if_pos cgi, if_pos (show _ from cgi)]
        apply run.mono
        rintro _ v' ⟨silent, rfl⟩
        refine ⟨silent, accepted.fresh.same ⟨rfl, rfl, rfl⟩, rfl, ?_⟩
        exact content_program { ep with httpRequest := req } v' cgi accepted.empty (short ..)
      · have sealed : node.executable = false := by
          have split : ((asks ep.httpRequest).form || node.executable) = false := serves ▸ eq_false_of_ne_true cgi
          simpa using (Bool.or_eq_false_iff.mp split).2
        rw [if_neg cgi, if_neg (show ¬ _ from cgi)]
        apply (@ensures_processNonCgi site w { ep with httpRequest := req } node (eq_false_of_ne_true cgi)
          (plain sealed) sealed _).mono
        · rintro a v' ⟨silent, ⟨fd, changed⟩, content⟩
          refine ⟨silent, ?_, ?_, content⟩
          · rw [changed]
            exact accepted.fresh.same ⟨rfl, rfl, rfl⟩
          · rw [changed]
        · intro text found
          exact (size_described described' (plain sealed) found).2.1

/-! ## The response -/

/-- The response stands ready in the end point, and its file is open. -/
structure Staged (v : View) (ep : EndPoint) (r : Response) : Prop where
  statusLine : ep.httpResponse.statusLine = r.statusLine ++ LINE_END
  responseHeader : ep.httpResponse.responseHeader = r.headers.map fun h => WireRequest.headerLine h ++ LINE_END
  blank : ep.httpResponse.blank = LINE_END
  addressable : ep.httpRequest.cgi = true → ep.httpResponse.responseBody.length < 2 ^ 63
  body : (if ep.httpRequest.cgi then ep.httpResponse.responseBody
    else (v.text ep.httpResponse.fd).take (sizeT ep.httpRequest.size)) = r.body

theorem sizeT_length {text : Bytes} (short : text.length < 2 ^ 31) : sizeT text.length = text.length := by
  unfold sizeT
  omega

/-- The head of a success, with the body it announces. -/
theorem staged_ok {ep : EndPoint} {body : Bytes} (fresh : Fresh ep) (ok : ep.httpResponse.statusCode = OK)
    (length : (if ep.httpRequest.cgi then decimal ep.httpResponse.responseBody.length
      else decimalInt ep.httpRequest.size) = decimal body.length)
    (addressable : ep.httpRequest.cgi = true → ep.httpResponse.responseBody.length < 2 ^ 63)
    (sent : (if ep.httpRequest.cgi then ep.httpResponse.responseBody
      else (v.text ep.httpResponse.fd).take (sizeT ep.httpRequest.size)) = body) :
    Staged v (buildOkResponse ep.stated) (described OK (suffix2Desc ep.httpRequest.suffix) body) := by
  constructor
  case statusLine =>
    show ep.stated.httpResponse.statusLine = _
    rw [fresh.stated, ok]
    rfl
  case responseHeader =>
    rw [described_lines, ← length]
    show ep.httpResponse.responseHeader ++ _ = _
    rw [fresh.responseHeader]
    rfl
  case blank => exact fresh.blank
  case addressable => exact addressable
  case body => exact sent

/-- The failure of the site is its error page, if there is one to read. -/
theorem failure_text (site : Site) (code : Int) :
    failure site code =
      match site.text (cStr errorPage) with
      | some text => described code (ascii "text/html") text
      | none => ⟨statusText code, [], []⟩ := by
  unfold failure Site.text
  cases site.node (cStr errorPage) with
  | none => rfl
  | some node =>
    cases node with
    | folder => rfl
    | file executable text => cases text <;> rfl

theorem ensures_handlerError {ep : EndPoint} (fresh : Fresh ep) (staleStat : Stat) :
    (Handler.handlerError staleStat errorPage ep.stated).Ensures (client site)
      (fun ep' v' => Silent v v' ∧ ep'.sock = ep.sock ∧ Staged v' ep' (failure site ep.httpResponse.statusCode)) v := by
  rw [failure_text]
  apply ensures_openRead site.errorFile
  case closed =>
    intro fd neg missing
    rw [missing]
    show (if 0 < fd then _ else _ : Handler _).Ensures _ _ _
    rw [if_neg (by omega)]
    refine ensures_pure ⟨.refl v, rfl, ?_⟩
    constructor
    case statusLine => exact fresh.stated
    case responseHeader => exact fresh.responseHeader
    case blank => exact fresh.blank
    case addressable => exact fun cgi => absurd cgi Bool.false_ne_true
    case body =>
      have none : v.text fd = [] := if_neg (by omega)
      show (v.text fd).take _ = []
      rw [none, List.take_nil]
  case opened =>
    intro fd text v' pos found silent holds
    rw [found]
    show (if 0 < fd then _ else _ : Handler _).Ensures _ _ _
    rw [if_pos pos]
    apply ensures_stat
    case missing =>
      intro missing
      unfold Site.text at found
      rw [missing] at found
      cases found
    case found =>
      intro node st named described'
      obtain ⟨size, kept, short⟩ := size_described described' named found
      refine ensures_pure ⟨silent, rfl, ?_⟩
      constructor
      case statusLine => exact fresh.stated
      case responseHeader =>
        rw [described_lines]
        show ep.httpResponse.responseHeader ++ _ = _
        rw [fresh.responseHeader, Option.getD_some, size, decimalInt_natCast, List.nil_append]
        rfl
      case blank => exact fresh.blank
      case addressable => exact fun cgi => absurd cgi Bool.false_ne_true
      case body =>
        show (v'.text fd).take (sizeT (int32 st.size)) = text
        rw [holds, kept, sizeT_length short, List.take_length]

/-- The helper stages what the dispatch has come to. -/
theorem ensures_helper {code : Int} {ep : EndPoint} {r : Response} (content : Content site (code, ep) v r)
    (fresh : Fresh ep) (staleStat : Stat) :
    (Handler.buildHttpResponseHelper staleStat { ep with httpResponse.statusCode := code }).Ensures (client site)
      (fun ep' v' => Silent v v' ∧ ep'.sock = ep.sock ∧ Staged v' ep' r) v := by
  have fresh' : Fresh { ep with httpResponse.statusCode := code } := fresh.same ⟨rfl, rfl, rfl⟩
  unfold Handler.buildHttpResponseHelper
  cases content with
  | failed error =>
    have known : code = NOT_FOUND ∨ code = BAD_REQUEST ∨ code = SERVER_ERROR := error
    simp only
    rw [if_neg error.ne_ok, if_pos known]
    exact ensures_handlerError fresh' staleStat
  | program cgi short =>
    simp only
    rw [if_pos trivial]
    refine ensures_pure ⟨.refl v, rfl, @staged_ok v { ep with httpResponse.statusCode := OK } _ fresh' rfl ?_ ?_ ?_⟩
    case refine_1 => rw [if_pos cgi]
    case refine_2 => exact fun _ => short
    case refine_3 => rw [if_pos cgi]
  | file static size short =>
    have bytes : ¬ ep.httpRequest.cgi = true := ne_true_of_eq_false static
    simp only
    rw [if_pos trivial]
    refine ensures_pure ⟨.refl v, rfl, @staged_ok v { ep with httpResponse.statusCode := OK } _ fresh' rfl ?_ ?_ ?_⟩
    case refine_1 => rw [if_neg bytes, size, decimalInt_natCast]
    case refine_2 => exact fun cgi => absurd cgi bytes
    case refine_3 => rw [if_neg bytes, size, sizeT_length short, List.take_length]

/-! ## Sending -/

section Sending
variable {sock : Int} (own : sock = v.sock)
include own

/-- `send` takes all it is given. -/
theorem ensures_send {α : Type} {post : α → View → Prop} {data : Bytes} {f : Int → Handler α}
    (rest : (f data.length).Ensures (client site) post (v.got data)) :
    (Handler.send sock data >>= f).Ensures (client site) post v := by
  rintro _ rfl
  have after : (client site).after v (.send sock data) (data.length : Int) = v.got data := by
    show (if sock = v.sock then v.got (data.take (data.length : Int).toNat) else v) = _
    rw [if_pos own, Int.toNat_natCast, List.take_length]
  rw [after]
  exact rest

/-- `sendfile` takes what the file has, up to the count. -/
theorem ensures_sendfile {α : Type} {post : α → View → Prop} {fd : Int} {count : Nat} {f : Unit → Handler α}
    (rest : (f ()).Ensures (client site) post (v.got ((v.text fd).take count))) :
    (Handler.sendfile sock fd count >>= f).Ensures (client site) post v := by
  rintro ⟨⟩ _
  have after : (client site).after v (.sendfile sock fd count) () = v.got ((v.text fd).take count) := if_pos own
  rw [after]
  exact rest

theorem ensures_sendHeaders (lines : List Bytes) :
    (Handler.sendHeaders sock lines).Ensures (client site) (fun _ v' => v' = v.got lines.flatten) v := by
  induction lines generalizing v with
  | nil => exact ensures_pure v.got_nil.symm
  | cons line rest ih =>
    apply ensures_send own
    rw [List.flatten_cons, ← View.got_got]
    exact @ih (v.got line) own

end Sending

/-- What is left where the program of a handler has ended sends the rest of `bytes`. -/
def Finishes (bytes : Bytes) : Stage → View → Prop
  | .returned, v => v.sent = bytes
  | .sending sock body total, v =>
    sock = v.sock ∧ body.length < 2 ^ 63 ∧ total ≤ body.length ∧ v.sent ++ body.drop total = bytes

/-- What is sent before the last round is part of it all. -/
theorem Finishes.part {bytes : Bytes} {stage : Stage} (finishes : Finishes bytes stage v) :
    v.sent <+: bytes := by
  cases stage with
  | returned => exact finishes ▸ List.prefix_rfl
  | sending sock body total => exact ⟨_, finishes.2.2.2⟩

theorem ensures_leave {sock : Int} {bytes : Bytes} (sent : v.sent = bytes) :
    (Handler.leave sock).Ensures (client site) (fun stage v' => v'.request = v.request ∧ Finishes bytes stage v') v := by
  apply ensures_close
  exact fun files => ensures_pure ⟨rfl, sent⟩

/-- One round sends what is left of the body, and the next finds nothing. -/
theorem ensures_goOn {bytes : Bytes} {stage : Stage} (finishes : Finishes bytes stage v) :
    (Handler.goOn stage).Ensures (client site) (fun stage' v' => v'.request = v.request ∧ Finishes bytes stage' v')
      v := by
  cases stage with
  | returned => exact ensures_pure ⟨rfl, finishes⟩
  | sending sock body total =>
    obtain ⟨own, short, within, all⟩ := finishes
    show (Handler.sendLoop sock body total).Ensures _ _ _
    unfold Handler.sendLoop
    split
    · rename_i more
      have size : sizeT ((body.drop total).length : Int) = body.length - total := by
        rw [List.length_drop]
        unfold sizeT
        omega
      have some : 0 < body.length - total := by omega
      have sum : (total + (body.length - total)) % 2 ^ 64 = body.length := by omega
      apply ensures_send own
      rw [size, if_pos some, sum]
      refine ensures_pure ⟨rfl, own, short, le_refl _, ?_⟩
      rw [List.drop_length, List.append_nil]
      exact all
    · rename_i done
      rw [List.drop_eq_nil_of_le (by omega), List.append_nil] at all
      exact ensures_leave all

/-- What is staged is sent. -/
theorem ensures_sendHttpResponse {ep : EndPoint} {r : Response} (staged : Staged v ep r) (own : ep.sock = v.sock)
    (silent : v.sent = []) :
    (Handler.sendHttpResponse ep).Ensures (client site)
      (fun stage v' => v'.request = v.request ∧ Finishes r.bytes stage v') v := by
  let head := ep.httpResponse.statusLine ++ (ep.httpResponse.responseHeader.flatten ++ ep.httpResponse.blank)
  have bytes : r.bytes = head ++ r.body := by
    simp only [head, staged.statusLine, staged.responseHeader, staged.blank, Response.bytes, List.append_assoc]
  unfold Handler.sendHttpResponse
  apply ensures_send own
  apply (@ensures_sendHeaders site (v.got _) _ own ep.httpResponse.responseHeader).bind
  rintro _ _ rfl
  apply @ensures_send site ((v.got _).got _) _ own
  rw [View.got_got, View.got_got]
  have sent : (v.got head).sent = head := by simp [View.got, silent]
  by_cases cgi : ep.httpRequest.cgi = true
  · have body := staged.body
    rw [if_pos cgi] at body ⊢
    refine ensures_pure ⟨rfl, own, staged.addressable cgi, Nat.zero_le _, ?_⟩
    rw [List.drop_zero, bytes, ← body]
    exact congrArg (· ++ _) sent
  · have body := staged.body
    rw [if_neg cgi] at body ⊢
    apply @ensures_sendfile site (v.got head) _ own
    apply ensures_close
    intro files
    apply @ensures_leave site _ _ _
    rw [bytes, ← body]
    exact congrArg (· ++ _) sent

/-! ## The whole connection -/

/-- A request that is sent as it should be: its length, if declared, is right. -/
structure WellSent (r : WireRequest) : Prop where
  framed : ∀ value, r.Declares value → value = decimal r.body.length
  short : r.encode.length < 2 ^ 31

/-- A handler is on its way to the reply of the site. -/
theorem ensures_handlerRequest {found : Circumstances} {r : WireRequest} (sock : Nat) (wellSent : WellSent r)
    (short : ∀ path environ stdin, (site.run path environ stdin).1.length < 2 ^ 63) :
    (Server.handlerRequest found sock).Ensures (client site)
      (fun stage v' => v'.request = r ∧ Finishes (reply site (means r)).bytes stage v') (View.new r sock) := by
  unfold Server.handlerRequest
  intro (stream : Sock) (arrived : stream.unread = r.encode)
  obtain ⟨going, asked⟩ := asks_encode sock found.staleSize arrived wellSent.framed wellSent.short
  have whole : Accepted (recvHttpRequest (EndPoint.new sock found.staleSize) stream).1 :=
    accepted_of_going (arrived ▸ wellSent.short) going
  have same := (recvHttpRequest_same (EndPoint.new sock found.staleSize) stream).sock
  show (if (recvHttpRequest (EndPoint.new sock found.staleSize) stream).1.stop then _ else _ : Handler Stage).Ensures _ _
    (View.new r sock)
  rw [going, if_neg Bool.false_ne_true]
  have dispatched := ensures_dispatch (v := View.new r sock) whole rfl short
  rw [asked] at dispatched
  have built : (Handler.buildHttpResponse found.staleStat
      (recvHttpRequest (EndPoint.new sock found.staleSize) stream).1).Ensures (client site)
      (fun ep' v' => Silent (View.new r sock) v' ∧ ep'.sock = (sock : Int) ∧ Staged v' ep' (reply site (means r)))
      (View.new r sock) := by
    apply dispatched.bind
    rintro ⟨code, ep⟩ v₁ ⟨silent, fresh, sock₁, content⟩
    apply (ensures_helper content fresh found.staleStat).mono
    rintro ep' v₂ ⟨silent', sock₂, staged⟩
    exact ⟨silent.trans silent', sock₂.trans (sock₁.trans same), staged⟩
  apply built.bind
  rintro ep v₁ ⟨silent, sock₁, staged⟩
  have own := sock₁.trans (congrArg Nat.cast silent.sock.symm)
  apply (ensures_sendHttpResponse staged own silent.sent).mono
  rintro stage v₂ ⟨request, finishes⟩
  exact ⟨request.trans silent.request, finishes⟩

end HttpServer.Service
