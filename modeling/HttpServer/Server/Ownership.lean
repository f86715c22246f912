import HttpServer.Protocol.Descriptors
import HttpServer.Server.Handler

/-!
# What a handler owns

`descriptors` says what the calls of a handler do to file descriptors. Whatever the system
answers, a handler that starts with the descriptor of its connection makes every later call on
descriptors it has at that point, and ends with none but the pipe ends `ProcessCgi` leaves: two
for every failure of the second `pipe`, four for every failure of `fork`
(`keeps_handlerRequest`).
-/

namespace HttpServer.Server
open Lib Net Protocol

/-- The descriptor a number names, if it names one. -/
def named (fd : Int) : List Nat := if 0 ≤ fd then [fd.toNat] else []

@[simp] theorem named_natCast (fd : Nat) : named fd = [fd] := by simp [named]

theorem named_neg {fd : Int} (neg : fd < 0) : named fd = [] := if_neg (Int.not_le.mpr neg)

/-- The descriptors calls are made on, close and open, and those `ProcessCgi` will not close. -/
def descriptors : Discipline Call Call.Answer Nat where
  uses
    | .recv ep => named ep.sock
    | .write fd _ | .read fd => named fd
    | .send sock _ => named sock
    | .sendfile sock fd _ => named sock ++ named fd
    | _ => []
  gives
    | .close fd => named fd
    | _ => 0
  takes
    | .openRead _, fd => named fd
    | .pipeInput, some ends => {ends.1, ends.2}
    | .pipeOutput, some ends => {ends.1, ends.2}
    | _, _ => 0
  owes
    | .pipeOutput, none => 2
    | .fork _ _, false => 4
    | _, _ => 0

namespace Handler
variable {live : Multiset Nat} {debt : Nat}

/-! ## The calls -/

theorem keeps_silent (c : Call) (own : ∀ d ∈ descriptors.uses c, d ∈ live) (gives : descriptors.gives c = 0)
    (takes : ∀ r, descriptors.takes c r = 0) (owes : ∀ r, descriptors.owes c r = 0) :
    Keeps descriptors (Keeps.Same live debt) live debt (Program.perform c) :=
  .silent c own gives takes owes

theorem keeps_recv {ep : EndPoint} {sock : Nat} (same : ep.sock = sock) (own : sock ∈ live) :
    Keeps descriptors (Keeps.Same live debt) live debt (recv ep) :=
  keeps_silent (.recv ep) (by simpa [descriptors, same] using own) rfl (fun _ => rfl) fun _ => rfl

theorem keeps_stat (path : Bytes) : Keeps descriptors (Keeps.Same live debt) live debt (stat path) :=
  keeps_silent (.stat path) (by simp [descriptors]) rfl (fun _ => rfl) fun _ => rfl

theorem keeps_write {fd : Nat} (data : Bytes) (own : fd ∈ live) :
    Keeps descriptors (Keeps.Same live debt) live debt (write fd data) :=
  keeps_silent (.write fd data) (by simpa [descriptors] using own) rfl (fun _ => rfl) fun _ => rfl

theorem keeps_read {fd : Nat} (own : fd ∈ live) : Keeps descriptors (Keeps.Same live debt) live debt (read fd) :=
  keeps_silent (.read fd) (by simpa [descriptors] using own) rfl (fun _ => rfl) fun _ => rfl

theorem keeps_waitpid : Keeps descriptors (Keeps.Same live debt) live debt waitpid :=
  keeps_silent .waitpid (by simp [descriptors]) rfl (fun _ => rfl) fun _ => rfl

theorem keeps_send {sock : Nat} (data : Bytes) (own : sock ∈ live) :
    Keeps descriptors (Keeps.Same live debt) live debt (send sock data) :=
  keeps_silent (.send sock data) (by simpa [descriptors] using own) rfl (fun _ => rfl) fun _ => rfl

theorem keeps_sendfile {sock : Nat} {fd : Int} (count : Nat) (own : sock ∈ live) (file : ∀ d ∈ named fd, d ∈ live) :
    Keeps descriptors (Keeps.Same live debt) live debt (sendfile sock fd count) := by
  refine keeps_silent (.sendfile sock fd count) ?_ rfl (fun _ => rfl) fun _ => rfl
  intro d used
  rcases List.mem_append.mp used with mem | mem
  · rw [named_natCast, List.mem_singleton] at mem
    exact mem ▸ own
  · exact file d mem

/-- Closing what is owned, or nothing. -/
theorem keeps_close (fd : Int) : Keeps descriptors (Keeps.Same live debt) (named fd + live) debt (close fd) := by
  apply Keeps.perform (E := descriptors) (c := .close fd)
  · simp [descriptors]
  · intro _
    exact ⟨zero_add _, rfl⟩

theorem keeps_close_natCast (fd : Nat) : Keeps descriptors (Keeps.Same live debt) (fd ::ₘ live) debt (close fd) := by
  have closes := @keeps_close live debt fd
  rwa [named_natCast, Multiset.coe_singleton, Multiset.singleton_add] at closes

/-- What `openRead` returns is owned, if it is a descriptor. -/
theorem keeps_openRead (path : Bytes) :
    Keeps descriptors (fun fd live' debt' => live' = named fd + live ∧ debt' = debt) live debt (openRead path) := by
  have opens := @Keeps.perform _ _ _ descriptors debt live (.openRead path)
    (fun (fd : Int) live' debt' => live' = named fd + live ∧ debt' = debt) (by simp [descriptors]) fun _ => ⟨rfl, rfl⟩
  rwa [show descriptors.gives (.openRead path) = 0 from rfl, zero_add] at opens

/-- The ends of a pipe that could be made. -/
def endsOf : Option (Nat × Nat) → Multiset Nat
  | some ends => {ends.1, ends.2}
  | none => 0

theorem keeps_pipeInput :
    Keeps descriptors (fun ends live' debt' => live' = endsOf ends + live ∧ debt' = debt) live debt pipeInput := by
  have pipes := @Keeps.perform _ _ _ descriptors debt live .pipeInput
    (fun (ends : Option (Nat × Nat)) live' debt' => live' = endsOf ends + live ∧ debt' = debt) (by simp [descriptors])
    fun ends => by cases ends <;> exact ⟨rfl, rfl⟩
  rwa [show descriptors.gives .pipeInput = 0 from rfl, zero_add] at pipes

theorem keeps_pipeOutput :
    Keeps descriptors (fun ends live' debt' => live' = endsOf ends + live ∧ debt' = debt + if ends.isSome then 0 else 2)
      live debt pipeOutput := by
  have pipes := @Keeps.perform _ _ _ descriptors debt live .pipeOutput
    (fun (ends : Option (Nat × Nat)) live' debt' => live' = endsOf ends + live ∧
      debt' = debt + if ends.isSome then 0 else 2) (by simp [descriptors])
    fun ends => by cases ends <;> exact ⟨rfl, rfl⟩
  rwa [show descriptors.gives .pipeOutput = 0 from rfl, zero_add] at pipes

theorem keeps_fork (path : Bytes) (environ : List Bytes) :
    Keeps descriptors (fun ok live' debt' => live' = live ∧ debt' = debt + if ok then 0 else 4) live debt
      (fork path environ) := by
  have forks := @Keeps.perform _ _ _ descriptors debt live (.fork path environ)
    (fun (ok : Bool) live' debt' => live' = live ∧ debt' = debt + if ok then 0 else 4) (by simp [descriptors])
    fun ok => by cases ok <;> exact ⟨zero_add live, rfl⟩
  rwa [show descriptors.gives (.fork path environ) = 0 from rfl, zero_add] at forks

/-! ## The content of a response -/

theorem keeps_writeLoop {fd : Nat} (own : fd ∈ live) (body : Bytes) (contentLength : Int) (fuel : Nat) (total : Int) :
    Keeps descriptors (Keeps.Same live debt) live debt (writeLoop fd body contentLength fuel total) := by
  induction fuel generalizing total with
  | zero => exact .pure ⟨rfl, rfl⟩
  | succ fuel ih =>
    unfold writeLoop
    split
    · apply (keeps_write _ own).bind_same
      intro size
      split
      · exact ih _
      · exact .pure ⟨rfl, rfl⟩
    · exact .pure ⟨rfl, rfl⟩

theorem keeps_writeBody {fd : Nat} (own : fd ∈ live) (req : HttpRequest) :
    Keeps descriptors (Keeps.Same live debt) live debt (writeBody fd req) := by
  unfold writeBody
  split
  · exact keeps_writeLoop own ..
  · exact .pure ⟨rfl, rfl⟩

/-- What a handler that owned `live` owns once it has the content of its response: a file to
send, if it sends one, and the pipe ends it has left behind, which it owes. -/
def Served (sock : Int) (live : Multiset Nat) (debt : Nat) (a : Int × EndPoint) (live' : Multiset Nat) (debt' : Nat) :
    Prop :=
  a.2.sock = sock ∧ ∃ leaked file, live' = file + (leaked + live) ∧ debt' = debt + leaked.card ∧
    SendsFile a.2 file ∧ (a.1 ≠ OK → file = 0)

theorem served_bare {ep : EndPoint} {sock code : Int} (same : ep.sock = sock) (sends : SendsFile ep 0) :
    Served sock live debt (code, ep) live debt :=
  ⟨same, 0, 0, by simp, by simp, sends, fun _ => rfl⟩

theorem keeps_cgiParent {in0 in1 out0 out1 : Nat} {ep : EndPoint} {sock : Int} (same : ep.sock = sock)
    (cgi : ep.httpRequest.cgi = true) :
    Keeps descriptors (Served sock live debt) (in0 ::ₘ in1 ::ₘ out0 ::ₘ out1 ::ₘ live) debt
      (cgiParent in0 in1 out0 out1 ep) := by
  unfold cgiParent
  rw [Multiset.cons_swap in0 in1, Multiset.cons_swap in0 out0]
  apply (keeps_close_natCast in1).bind_same
  intro _
  apply (keeps_close_natCast out0).bind_same
  intro _
  apply (keeps_writeBody (by simp) ep.httpRequest).bind_same
  intro _
  apply (keeps_read (by simp)).bind_same
  intro output
  apply keeps_waitpid.bind_same
  intro status
  apply (keeps_close_natCast in0).bind_same
  intro _
  apply (keeps_close_natCast out1).bind_same
  intro _
  apply Keeps.pure
  apply served_bare
  · exact same
  · exact .inl ⟨rfl, .inl cgi⟩

theorem keeps_processCgi {ep : EndPoint} {sock : Int} (same : ep.sock = sock) (cgi : ep.httpRequest.cgi = true) :
    Keeps descriptors (Served sock live debt) live debt (processCgi ep) := by
  have sends : SendsFile ep 0 := .inl ⟨rfl, .inl cgi⟩
  unfold processCgi
  apply keeps_pipeInput.bind
  rintro input _ _ ⟨rfl, rfl⟩
  cases input with
  | none =>
    apply Keeps.pure
    simpa [endsOf] using served_bare same sends
  | some input =>
    apply keeps_pipeOutput.bind
    rintro output _ _ ⟨rfl, rfl⟩
    cases output with
    | none => exact .pure ⟨same, {input.1, input.2}, 0, by simp [endsOf], by simp, sends, fun _ => rfl⟩
    | some output =>
      apply (keeps_fork _ _).bind
      rintro ok _ _ ⟨rfl, rfl⟩
      cases ok with
      | true =>
        have all : endsOf (some output) + (endsOf (some input) + live) =
            input.1 ::ₘ input.2 ::ₘ output.1 ::ₘ output.2 ::ₘ live := by
          simp only [endsOf, Multiset.insert_eq_cons, ← Multiset.singleton_add, add_assoc]
          ac_rfl
        rw [all]
        exact keeps_cgiParent same cgi
      | false =>
        refine .pure ⟨same, endsOf output + endsOf input, 0, ?_, by simp [endsOf], sends, fun _ => rfl⟩
        rw [zero_add, add_assoc]

/-- A file that is open is sent. -/
theorem sendsFile_named {ep : EndPoint} {fd : Int} (static : ep.httpRequest.cgi = false)
    (same : ep.httpResponse.fd = fd) : SendsFile ep (named fd) := by
  unfold named
  split
  · rename_i nonneg
    exact .inr ⟨fd.toNat, rfl, static, by rw [same, Int.toNat_of_nonneg nonneg]⟩
  · rename_i neg
    exact .inl ⟨rfl, .inr (by omega)⟩

theorem keeps_processNonCgi {ep : EndPoint} {sock : Int} (same : ep.sock = sock) (static : ep.httpRequest.cgi = false) :
    Keeps descriptors (Served sock live debt) live debt (processNonCgi ep) := by
  apply (keeps_openRead _).bind
  rintro fd _ _ ⟨rfl, rfl⟩
  apply Keeps.pure
  refine ⟨same, 0, named fd, by simp, by simp, sendsFile_named static rfl, ?_⟩
  intro failed
  have neg : ¬ 0 ≤ fd := fun nonneg => failed (if_pos nonneg)
  rw [named_neg (by omega)]
  rfl

theorem keeps_dispatch {ep : EndPoint} (closed : ep.httpResponse.fd < 0) :
    Keeps descriptors (Served ep.sock live debt) live debt (dispatch ep) := by
  unfold dispatch
  split
  · apply Keeps.pure
    exact served_bare rfl (.inl ⟨rfl, .inr closed⟩)
  · apply (keeps_stat _).bind_same
    intro found
    cases found with
    | none =>
      apply Keeps.pure
      exact served_bare rfl (.inl ⟨rfl, .inr closed⟩)
    | some st =>
      have target : Keeps descriptors (Keeps.Same live debt) live debt
          (redirect (webPath (splitUri ep.httpRequest).path) st) := by
        unfold redirect
        split
        · exact (keeps_stat _).bind_same fun _ => .pure ⟨rfl, rfl⟩
        · exact .pure ⟨rfl, rfl⟩
      apply target.bind_same
      intro target
      simp only
      split
      · rename_i cgi
        exact keeps_processCgi rfl cgi
      · rename_i static
        exact keeps_processNonCgi rfl (by simpa using static)

/-! ## The response -/

/-- What a handler that owned `live` owns once its response is ready. -/
def Ready (sock : Int) (live : Multiset Nat) (debt : Nat) (ep : EndPoint) (live' : Multiset Nat) (debt' : Nat) : Prop :=
  ep.sock = sock ∧ ∃ file, live' = file + live ∧ debt' = debt ∧ SendsFile ep file

theorem keeps_handlerError (staleStat : Stat) (page : Bytes) {ep : EndPoint} {sock : Int} (same : ep.sock = sock) :
    Keeps descriptors (Ready sock live debt) live debt (handlerError staleStat page ep) := by
  unfold handlerError
  apply (keeps_openRead _).bind
  rintro fd _ _ ⟨rfl, rfl⟩
  simp only
  split
  · apply (keeps_stat _).bind_same
    intro st
    exact .pure ⟨same, named fd, rfl, rfl, sendsFile_named rfl rfl⟩
  · exact .pure ⟨same, named fd, rfl, rfl, sendsFile_named rfl rfl⟩

theorem keeps_buildHttpResponseHelper (staleStat : Stat) {ep : EndPoint} {file : Multiset Nat}
    (sends : SendsFile ep file) (failed : ep.httpResponse.statusCode ≠ OK → file = 0) :
    Keeps descriptors (Ready ep.sock live debt) (file + live) debt (buildHttpResponseHelper staleStat ep) := by
  unfold buildHttpResponseHelper
  simp only
  split
  · exact .pure ⟨rfl, file, rfl, rfl, sends⟩
  · rename_i notOk
    obtain rfl := failed notOk
    rw [zero_add]
    split
    · exact keeps_handlerError staleStat errorPage rfl
    · exact .pure ⟨rfl, 0, (zero_add live).symm, rfl, sends⟩

theorem keeps_buildHttpResponse (staleStat : Stat) {ep : EndPoint} (closed : ep.httpResponse.fd < 0) :
    Keeps descriptors
      (fun ep' live' debt' => ∃ leaked, Ready ep.sock (leaked + live) (debt + leaked.card) ep' live' debt')
      live debt (buildHttpResponse staleStat ep) := by
  apply (keeps_dispatch closed).bind
  rintro ⟨code, ep'⟩ _ _ ⟨sock, leaked, file, rfl, rfl, sends, failed⟩
  have helped := @keeps_buildHttpResponseHelper (leaked + live) (debt + leaked.card) staleStat
    { ep' with httpResponse.statusCode := code } file sends failed
  apply helped.weaken
  intro a live' debt' ready
  exact ⟨leaked, ready.1.trans sock, ready.2⟩

theorem keeps_sendHeaders {sock : Nat} (own : sock ∈ live) (lines : List Bytes) :
    Keeps descriptors (Keeps.Same live debt) live debt (sendHeaders sock lines) := by
  induction lines with
  | nil => exact .pure ⟨rfl, rfl⟩
  | cons line rest ih =>
    apply (keeps_send line own).bind_same
    exact fun _ => ih

/-- What a program of a handler is left with: what it owes, and its socket if it is to go on
sending. -/
def Paid : Stage → Multiset Nat → Nat → Prop
  | .returned, live, debt => live.card = debt
  | .sending sock _ _, live, debt => ∃ (fd : Nat) (leaked : Multiset Nat),
      sock = fd ∧ live = fd ::ₘ leaked ∧ leaked.card = debt

theorem keeps_leave (sock : Nat) (leaked : Multiset Nat) :
    Keeps descriptors Paid (sock ::ₘ leaked) leaked.card (leave sock) := by
  apply (keeps_close_natCast sock).bind_same
  exact fun _ => .pure rfl

/-- Every round sends on the socket, and the last one closes it. -/
theorem keeps_sendLoop (sock : Nat) (body : Bytes) (total : Nat) (leaked : Multiset Nat) :
    Keeps descriptors Paid (sock ::ₘ leaked) leaked.card (sendLoop sock body total) := by
  unfold sendLoop
  split
  · apply (keeps_send _ (Multiset.mem_cons_self sock leaked)).bind_same
    intro size
    split
    · exact .pure ⟨sock, leaked, rfl, rfl, rfl⟩
    · exact keeps_leave sock leaked
  · exact keeps_leave sock leaked

theorem keeps_goOn (stage : Stage) (live : Multiset Nat) (debt : Nat) (paid : Paid stage live debt) :
    Keeps descriptors Paid live debt (goOn stage) := by
  cases stage with
  | returned => exact .pure paid
  | sending sock body total =>
    obtain ⟨fd, leaked, rfl, rfl, rfl⟩ := paid
    exact keeps_sendLoop fd body total leaked

/-- Sending closes the file. -/
theorem keeps_sendHttpResponse {sock : Nat} {ep : EndPoint} {file : Multiset Nat} (leaked : Multiset Nat)
    (same : ep.sock = sock) (sends : SendsFile ep file) :
    Keeps descriptors Paid (file + (sock ::ₘ leaked)) leaked.card (sendHttpResponse ep) := by
  have held : sock ∈ file + (sock ::ₘ leaked) := by simp
  unfold sendHttpResponse
  rw [same]
  apply (keeps_send _ held).bind_same
  intro _
  apply (keeps_sendHeaders held _).bind_same
  intro _
  apply (keeps_send _ held).bind_same
  intro _
  rcases sends with ⟨rfl, nothing⟩ | ⟨fd, rfl, static, file⟩
  · rw [zero_add]
    split
    · exact .pure ⟨sock, leaked, rfl, rfl, rfl⟩
    · rename_i static
      have neg : ep.httpResponse.fd < 0 := nothing.resolve_left fun cgi => static cgi
      apply (keeps_sendfile _ (by simp) (by simp [named_neg neg])).bind_same
      intro _
      have closes := @keeps_close (sock ::ₘ leaked) leaked.card ep.httpResponse.fd
      rw [named_neg neg, Multiset.coe_nil, zero_add] at closes
      exact closes.bind_same fun _ => keeps_leave sock leaked
  · rw [if_neg (by simp [static]), file]
    apply (keeps_sendfile _ (by simp) (by simp)).bind_same
    intro _
    rw [Multiset.singleton_add]
    exact (keeps_close_natCast fd).bind_same fun _ => keeps_leave sock leaked

end Handler

/-- A handler makes its calls on what it owns, and is left with what it owes. -/
theorem keeps_handlerRequest (found : Circumstances) (sock : Nat) :
    Keeps descriptors Handler.Paid {sock} 0 (handlerRequest found sock) := by
  unfold handlerRequest
  have received : Keeps descriptors (Keeps.Same {sock} 0) {sock} 0 (Handler.recv (EndPoint.new sock found.staleSize)) :=
    Handler.keeps_recv rfl (Multiset.mem_singleton_self sock)
  apply received.bind_same
  intro stream
  have same : SameConnection (EndPoint.new sock found.staleSize)
      (recvHttpRequest (EndPoint.new sock found.staleSize) stream).1 := recvHttpRequest_same _ _
  simp only
  split
  · rw [same.sock]
    exact Handler.keeps_leave sock 0
  · have closed : (recvHttpRequest (EndPoint.new sock found.staleSize) stream).1.httpResponse.fd < 0 := by
      rw [same.httpResponse]
      exact Int.negSucc_lt_zero 0
    apply (Handler.keeps_buildHttpResponse found.staleStat closed).bind
    rintro ep _ _ ⟨leaked, sock', file, rfl, rfl, sends⟩
    rw [same.sock] at sock'
    rw [zero_add, add_comm leaked, Multiset.singleton_add]
    exact Handler.keeps_sendHttpResponse leaked sock' sends

end HttpServer.Server
