import HttpServer.Lib.Ledger
import HttpServer.Protocol.Calls
import HttpServer.Protocol.RecvSpec

/-!
# The descriptors of one connection

The trace of a request is an account of descriptors: `open` and `pipe` take them, `close`
gives them back. `Held` is the invariant every function is measured by: the account settles
and the table holds the `base` descriptors and the ones the request has open. `ProcessCgi`
is the one function that may leave some of its own open, so `handlerRequest_balanced_iff`
names exactly the requests it does so for.
-/

namespace HttpServer.Protocol
open Lib Net

/-- The entries a system call makes in the account of descriptors. Only numbers from zero on
are descriptors: `close(-1)` gives nothing back. -/
def Syscall.entries : Syscall → List (Entry Nat)
  | .openRead _ fd => if 0 ≤ fd then [.take fd.toNat] else []
  | .pipe (some ends) => [.take ends.1.toNat, .take ends.2.toNat]
  | .close fd _ => if 0 ≤ fd then [.give fd.toNat] else []
  | _ => []

/-- The account of the descriptors since the trace began. -/
def Os.account (os : Os) : List (Entry Nat) := os.trace.flatMap Syscall.entries

/-- Between `before` and `after`, with a trace begun at `before`, the connection's
descriptor is gone and all others are as they were: every descriptor opened was free, every
one closed was open, and each was closed as often as it was opened. -/
structure Balanced (sock : Nat) (before after : Os) : Prop where
  table : after.fds = before.fds.erase sock
  settled : Ledger.settle before.fds after.account = some after.fds
  once : Ledger.given after.account = sock ::ₘ Ledger.taken after.account

/-! ## The invariant -/

/-- The account settles from `start`, and what is held is `base` and `live`. -/
structure Held (start : Finset Nat) (base live : Multiset Nat) (os : Os) : Prop where
  settled : Ledger.settle start os.account = some os.fds
  split : os.fds.val = base + live

/-- Going from `os` to `os'`, no descriptor is opened or closed. -/
structure Quiet (os os' : Os) : Prop where
  fds : os'.fds = os.fds
  account : os'.account = os.account

theorem Quiet.refl (os : Os) : Quiet os os := ⟨rfl, rfl⟩

theorem Quiet.trans {os os' os'' : Os} (first : Quiet os os') (second : Quiet os' os'') : Quiet os os'' :=
  ⟨second.fds.trans first.fds, second.account.trans first.account⟩

theorem quiet_emit (os : Os) {call : Syscall} (silent : call.entries = []) : Quiet os (os.emit call) := by
  constructor
  · rfl
  · simp [Os.account, Os.emit, silent]

theorem quiet_write (fd : Int) (data : Bytes) (os : Os) : Quiet os (os.write fd data).2 :=
  ⟨rfl, (quiet_emit os rfl).account⟩

theorem quiet_send (fd : Int) (data : Bytes) (os : Os) : Quiet os (os.send fd data).2 :=
  ⟨rfl, (quiet_emit os rfl).account⟩

section Held
variable {start : Finset Nat} {base live : Multiset Nat} {os os' : Os}

theorem Held.quiet (held : Held start base live os) (quiet : Quiet os os') : Held start base live os' := by
  constructor
  · rw [quiet.account, quiet.fds]
    exact held.settled
  · rw [quiet.fds]
    exact held.split

/-- A call that takes one free descriptor. -/
theorem Held.take (held : Held start base live os) {fd : Nat} (free : fd ∉ os.fds)
    (fds : os'.fds = insert fd os.fds) (account : os'.account = os.account ++ [.take fd]) :
    Held start base (fd ::ₘ live) os' := by
  constructor
  · rw [account, Ledger.settle_append, held.settled, fds]
    simp [Ledger.post_take free]
  · rw [fds, Finset.insert_val_of_notMem free, held.split, Multiset.add_cons]

theorem Held.openRead (held : Held start base live os) (env : Env) (path : Bytes) :
    (∃ fd : Nat, (os.openRead env path).1 = fd ∧ Held start base (fd ::ₘ live) (os.openRead env path).2) ∨
      ((os.openRead env path).1 = -1 ∧ Held start base live (os.openRead env path).2) := by
  unfold Os.openRead
  split
  · refine .inl ⟨lowestUnused os.fds, rfl, ?_⟩
    apply held.take (lowestUnused_notMem _) rfl
    simp [Os.account, Syscall.entries]
  · exact .inr ⟨rfl, held.quiet (quiet_emit os rfl)⟩

theorem Held.pipe_none (held : Held start base live os) : Held start base live (os.pipe false).2 :=
  held.quiet (quiet_emit os rfl)

theorem Held.pipe_some (held : Held start base live os) :
    ∃ rd wr : Nat, (os.pipe true).1 = some ((rd : Int), (wr : Int)) ∧
      Held start base (wr ::ₘ rd ::ₘ live) (os.pipe true).2 := by
  refine ⟨lowestUnused os.fds, lowestUnused (insert (lowestUnused os.fds) os.fds), rfl, ?_⟩
  -- as if the two ends were opened one after the other
  have first := @Held.take start base live os
    { os with
      fds := insert (lowestUnused os.fds) os.fds
      trace := os.trace ++ [.openRead [] (lowestUnused os.fds)] }
    held _ (lowestUnused_notMem _) rfl (by simp [Os.account, Syscall.entries])
  apply first.take (lowestUnused_notMem _) rfl
  simp [Os.account, Syscall.entries, Os.pipe]

/-- Closing a descriptor the request has open. -/
theorem Held.close (held : Held start base live os) {fd : Nat} {rest : Multiset Nat} (split : live = fd ::ₘ rest) :
    Held start base rest (os.close fd) := by
  subst split
  have mem : fd ∈ os.fds := by
    show fd ∈ os.fds.val
    simp [held.split]
  have closed : os.close fd = { os with fds := os.fds.erase fd, trace := os.trace ++ [.close fd true] } := by
    simp [Os.close, mem]
  rw [closed]
  constructor
  · have account : Os.account { os with fds := os.fds.erase fd, trace := os.trace ++ [.close fd true] } =
        os.account ++ [.give fd] := by simp [Os.account, Syscall.entries]
    rw [account, Ledger.settle_append, held.settled]
    simp [Ledger.post_give mem]
  · show (os.fds.erase fd).val = _
    rw [Finset.erase_val, held.split, Multiset.add_cons, Multiset.erase_cons_head]

/-- `close(-1)` changes no table. -/
theorem Held.close_neg (held : Held start base live os) {fd : Int} (neg : fd < 0) :
    Held start base live (os.close fd) := by
  have stray : os.close fd = os.emit (.close fd false) := by
    unfold Os.close
    rw [if_neg]
    rintro ⟨nonneg, -⟩
    exact absurd neg (Int.not_lt.mpr nonneg)
  rw [stray]
  exact held.quiet (quiet_emit os (by simp [Syscall.entries, Int.not_le.mpr neg]))

/-! ## What each function leaves open -/

/-- The parent closes all four ends. -/
theorem held_cgiParent (env : Env) {in0 in1 out0 out1 : Nat} (ep : EndPoint)
    (held : Held start base (out1 ::ₘ out0 ::ₘ in1 ::ₘ in0 ::ₘ live) os) :
    Held start base live (cgiParent env in0 in1 out0 out1 ep os).os := by
  have ends : out1 ::ₘ out0 ::ₘ in1 ::ₘ in0 ::ₘ live = in1 ::ₘ out0 ::ₘ in0 ::ₘ out1 ::ₘ live := by
    rw [Multiset.cons_swap out0 in1, Multiset.cons_swap out1 in1, Multiset.cons_swap out1 out0,
      Multiset.cons_swap out1 in0]
  have own : Held start base (in0 ::ₘ out1 ::ₘ live) ((os.close in1).close out0) := (held.close ends).close rfl
  have written : Held start base (in0 ::ₘ out1 ::ₘ live)
      (if ep.httpRequest.method = POST then
        writeLoop out1 ep.httpRequest.requestBody ep.httpRequest.contentLength
          (ep.httpRequest.requestBody.length + 1) 0 ((os.close in1).close out0)
      else (os.close in1).close out0) := by
    split
    · exact own.quiet (rel_writeLoop .refl .trans quiet_write ..)
    · exact own
  have waited := (written.quiet (@quiet_emit _ (.read in0 env.cgiOutput) rfl)).quiet (@quiet_emit _ .waitpid rfl)
  exact (waited.close rfl).close rfl

/-- The outcomes of `pipe` and `fork` for which `ProcessCgi` returns early with ends of its
pipes open. -/
def LeavesPipeOpen (env : Env) : Prop := env.pipeInput = true ∧ ¬ (env.pipeOutput = true ∧ env.forkOk = true)

theorem held_processCgi (env : Env) (ep : EndPoint) (held : Held start base live os) :
    ∃ leaked, Held start base (leaked + live) (processCgi env ep os).os ∧ (leaked = 0 ↔ ¬ LeavesPipeOpen env) := by
  unfold LeavesPipeOpen processCgi
  cases env.pipeInput with
  | false =>
    refine ⟨0, ?_, by simp⟩
    rw [zero_add]
    exact held.pipe_none
  | true =>
    obtain ⟨in0, in1, input, held⟩ := held.pipe_some
    simp only [input]
    cases env.pipeOutput with
    | false =>
      refine ⟨{in1, in0}, ?_, by simp⟩
      show Held start base ({in1, in0} + live) (Os.pipe false _).2
      simpa using held.pipe_none
    | true =>
      obtain ⟨out0, out1, output, held⟩ := held.pipe_some
      simp only [output]
      cases env.forkOk with
      | false =>
        refine ⟨{out1, out0, in1, in0}, ?_, by simp⟩
        show Held start base ({out1, out0, in1, in0} + live) (Os.emit _ (.fork false))
        simpa using held.quiet (@quiet_emit _ (.fork false) rfl)
      | true =>
        refine ⟨0, ?_, by simp⟩
        rw [zero_add]
        apply held_cgiParent
        exact (held.quiet (quiet_emit _ rfl)).quiet (quiet_emit _ rfl)

/-- `file` is what the end point has open to send: a descriptor if it sends a file, none if
it sends a CGI response or its file did not open. -/
def SendsFile (ep : EndPoint) (file : Multiset Nat) : Prop :=
  (file = 0 ∧ (ep.httpRequest.cgi = true ∨ ep.httpResponse.fd < 0)) ∨
    ∃ fd : Nat, file = {fd} ∧ ep.httpRequest.cgi = false ∧ ep.httpResponse.fd = fd

theorem held_processNonCgi (env : Env) (ep : EndPoint) (static : ep.httpRequest.cgi = false)
    (held : Held start base live os) :
    ∃ file, Held start base (file + live) (processNonCgi env ep os).os ∧
      SendsFile (processNonCgi env ep os).ep file ∧ ((processNonCgi env ep os).code ≠ OK → file = 0) := by
  unfold processNonCgi
  rcases held.openRead env (cStr ep.httpRequest.path) with ⟨fd, opened, held⟩ | ⟨failed, held⟩
  · have nonneg : (0 : Int) ≤ fd := Int.natCast_nonneg fd
    simp only [opened, if_pos nonneg]
    exact ⟨{fd}, held, .inr ⟨fd, rfl, static, rfl⟩, fun notOk => absurd rfl notOk⟩
  · have neg : (-1 : Int) < 0 := by decide
    simp only [failed, if_neg (Int.not_le.mpr neg)]
    refine ⟨0, ?_, .inl ⟨rfl, .inr neg⟩, fun _ => rfl⟩
    rw [zero_add]
    exact held

theorem held_handlerError (env : Env) (page : Bytes) (ep : EndPoint) (held : Held start base live os) :
    ∃ file, Held start base (file + live) (handlerError env page ep os).2 ∧
      SendsFile (handlerError env page ep os).1 file := by
  unfold handlerError
  rcases held.openRead env (cStr page) with ⟨fd, opened, held⟩ | ⟨failed, held⟩
  · simp only [opened]
    refine ⟨{fd}, ?_, .inr ⟨fd, rfl, ?_⟩⟩
    · split
      · exact held.quiet (quiet_emit _ rfl)
      · exact held
    · split <;> exact ⟨rfl, rfl⟩
  · have neg : (-1 : Int) < 0 := by decide
    simp only [failed, if_neg (Int.lt_asymm neg)]
    refine ⟨0, ?_, .inl ⟨rfl, .inr neg⟩⟩
    rw [zero_add]
    exact held

/-- The helper keeps the file of an OK response, and opens one only where there is none. -/
theorem held_helper (env : Env) (ep : EndPoint) {file : Multiset Nat} (held : Held start base (file + live) os)
    (sends : SendsFile ep file) (failed : ep.httpResponse.statusCode ≠ OK → file = 0) :
    ∃ file', Held start base (file' + live) (buildHttpResponseHelper env ep os).2 ∧
      SendsFile (buildHttpResponseHelper env ep os).1 file' := by
  apply helper_cases (motive := fun r => ∃ file', Held start base (file' + live) r.2 ∧ SendsFile r.1 file')
  case ok => exact fun _ => ⟨file, held, sends⟩
  case error =>
    intro error
    rw [failed error.ne_ok, zero_add] at held
    exact held_handlerError env errorPage _ held
  case other =>
    intro notOk
    obtain rfl := failed notOk
    exact ⟨0, held, sends⟩

/-- The request reaches `ProcessCgi`. -/
def RunsCgi (env : Env) (req : HttpRequest) : Prop :=
  (req.method = GET ∨ req.method = POST) ∧
    ∃ st, env.stat (cStr (firstPath req)) = some st ∧ servesCgi env req st = true

/-- Of the two content sources only `ProcessCgi` may leave descriptors behind. -/
theorem held_content (env : Env) {ep : EndPoint} {cgi : Bool} (source : ep.httpRequest.cgi = cgi)
    (held : Held start base live os) :
    ∃ leaked file, Held start base (file + (leaked + live)) (content cgi env ep os).os ∧
      SendsFile (content cgi env ep os).ep file ∧ ((content cgi env ep os).code ≠ OK → file = 0) ∧
      (leaked = 0 ↔ ¬ (cgi = true ∧ LeavesPipeOpen env)) := by
  have same := (content_same cgi env ep os).cgi
  cases cgi with
  | true =>
    obtain ⟨leaked, held, exactly⟩ := held_processCgi env ep held
    refine ⟨leaked, 0, ?_, .inl ⟨rfl, .inl (same.trans source)⟩, fun _ => rfl, by simpa using exactly⟩
    rw [zero_add]
    exact held
  | false =>
    obtain ⟨file, held, sends, failed⟩ := held_processNonCgi env ep source held
    refine ⟨0, file, ?_, sends, failed, by simp⟩
    rw [zero_add]
    exact held

theorem held_dispatch (env : Env) (ep : EndPoint) (closed : ep.httpResponse.fd < 0)
    (held : Held start base live os) :
    ∃ leaked file, Held start base (file + (leaked + live)) (dispatch env ep os).os ∧
      SendsFile (dispatch env ep os).ep file ∧ ((dispatch env ep os).code ≠ OK → file = 0) ∧
      (leaked = 0 ↔ ¬ (RunsCgi env ep.httpRequest ∧ LeavesPipeOpen env)) := by
  have located : Held start base live (os.located ep.httpRequest) := held.quiet (quiet_emit os rfl)
  apply dispatch_cases (motive := fun a => ∃ leaked file, Held start base (file + (leaked + live)) a.os ∧
    SendsFile a.ep file ∧ (a.code ≠ OK → file = 0) ∧
    (leaked = 0 ↔ ¬ (RunsCgi env ep.httpRequest ∧ LeavesPipeOpen env)))
  case unknown =>
    intro unknown
    have never : ¬ RunsCgi env ep.httpRequest := fun runs => unknown runs.1
    exact ⟨0, 0, by simpa using held, .inl ⟨rfl, .inr closed⟩, fun _ => rfl, by simp [never]⟩
  case missing =>
    intro _ missing
    have never : ¬ RunsCgi env ep.httpRequest := by
      rintro ⟨-, st, found, -⟩
      rw [missing] at found
      cases found
    exact ⟨0, 0, by simpa using located, .inl ⟨rfl, .inr closed⟩, fun _ => rfl, by simp [never]⟩
  case found =>
    intro st method found
    have runs : RunsCgi env ep.httpRequest ↔ servesCgi env ep.httpRequest st = true := by
      constructor
      · rintro ⟨-, st', found', cgi⟩
        cases found.symm.trans found'
        exact cgi
      · intro cgi
        exact ⟨method, st, found, cgi⟩
    have targeted : Held start base live (os.targeted ep.httpRequest st) := by
      unfold Os.targeted
      split
      · exact located.quiet (quiet_emit _ rfl)
      · exact located
    rw [runs]
    exact held_content env rfl targeted

/-- Sending gives the file back. -/
theorem held_sendHttpResponse (ep : EndPoint) {file : Multiset Nat} (sends : SendsFile ep file)
    (held : Held start base (file + live) os) : Held start base live (sendHttpResponse ep os) := by
  have status := held.quiet (quiet_send ep.sock ep.httpResponse.statusLine os)
  have headers := status.quiet (rel_headers .refl .trans quiet_send ep.sock ep.httpResponse.responseHeader _)
  have head := headers.quiet (quiet_send ep.sock ep.httpResponse.blank _)
  unfold sendHttpResponse
  simp only
  rcases sends with ⟨rfl, none⟩ | ⟨fd, rfl, static, open_fd⟩
  · rw [zero_add] at head
    split
    · exact head.quiet (rel_sendLoop .refl .trans quiet_send ..)
    · rename_i static
      rcases none with cgi | neg
      · exact absurd cgi static
      · exact (head.quiet (quiet_emit _ rfl)).close_neg neg
  · rw [if_neg (by simp [static]), open_fd]
    exact (head.quiet (quiet_emit _ rfl)).close rfl

end Held

/-! ## The whole connection -/

/-- The response as a whole gives back the file it opened, but not what `ProcessCgi` left. -/
theorem held_response {start : Finset Nat} {base live : Multiset Nat} (env : Env) (ep : EndPoint) (os : Os)
    (closed : ep.httpResponse.fd < 0) (held : Held start base live os) :
    ∃ leaked, Held start base (leaked + live)
        (sendHttpResponse (buildHttpResponse env ep os).1 (buildHttpResponse env ep os).2) ∧
      (leaked = 0 ↔ ¬ (RunsCgi env ep.httpRequest ∧ LeavesPipeOpen env)) := by
  obtain ⟨leaked, file, held, sends, failed, exactly⟩ := held_dispatch env ep closed held
  obtain ⟨file', held, sends⟩ := held_helper env
    { (dispatch env ep os).ep with httpResponse.statusCode := (dispatch env ep os).code } held sends failed
  exact ⟨leaked, held_sendHttpResponse _ sends held, exactly⟩

/-- A connection closes its own descriptor, and leaks what `ProcessCgi` left. -/
theorem held_handlerRequest (env : Env) (sock : Nat) (os : Os) (member : sock ∈ os.fds) :
    let received := (recvHttpRequest (EndPoint.new sock env.staleSize) os.io).1
    ∃ leaked, Held os.fds (os.fds.erase sock).val leaked (handlerRequest env sock { os with trace := [] }) ∧
      (leaked = 0 ↔ ¬ (received.stop = false ∧ RunsCgi env received.httpRequest ∧ LeavesPipeOpen env)) := by
  intro received
  have same : SameConnection (EndPoint.new sock env.staleSize) received := recvHttpRequest_same _ _
  have begun : Held os.fds (os.fds.erase sock).val {sock}
      { os with io := (recvHttpRequest (EndPoint.new sock env.staleSize) os.io).2, trace := [] } := by
    constructor
    · rfl
    · rw [Finset.erase_val, add_comm, Multiset.singleton_add, Multiset.cons_erase member]
  unfold handlerRequest
  cases stop : received.stop with
  | true =>
    refine ⟨0, ?_, by simp⟩
    simp only [received] at stop same
    simp only [stop, if_true, same.sock]
    exact begun.close rfl
  | false =>
    have closed : received.httpResponse.fd < 0 := by
      rw [same.httpResponse]
      exact Int.negSucc_lt_zero 0
    obtain ⟨leaked, held, exactly⟩ := held_response env received _ closed begun
    refine ⟨leaked, ?_, by simpa using exactly⟩
    simp only [received] at stop same
    simp only [stop, Bool.false_eq_true, if_false, buildHttpResponse_sock, same.sock]
    exact held.close (by rw [add_comm, Multiset.singleton_add])

/-- A run that ends with all but `sock` is balanced exactly if nothing more is held. -/
theorem Held.balanced_iff {sock : Nat} {before after : Os} {leaked : Multiset Nat} (member : sock ∈ before.fds)
    (held : Held before.fds (before.fds.erase sock).val leaked after) :
    Balanced sock before after ↔ leaked = 0 := by
  constructor
  · intro balanced
    have split := held.split
    rw [balanced.table] at split
    exact left_eq_add.mp split
  · rintro rfl
    have table : after.fds = before.fds.erase sock := by
      apply Finset.val_injective
      rw [held.split, add_zero]
    refine ⟨table, held.settled, ?_⟩
    have balance := Ledger.settle_balance held.settled
    rw [table, ← Multiset.cons_erase (Finset.mem_val.mpr member), ← Finset.erase_val, Multiset.cons_add,
      add_comm, ← Multiset.cons_add] at balance
    exact (add_right_cancel balance).symm

/-- **The balance of descriptors, exactly.** A connection leaves the descriptor table as it
found it, but for its own descriptor, if and only if it is not the connection of a complete
request for a CGI program for which `pipe` succeeds once and then `pipe` or `fork` fails. -/
theorem handlerRequest_balanced_iff (env : Env) (sock : Nat) (os : Os) (member : sock ∈ os.fds) :
    let received := (recvHttpRequest (EndPoint.new sock env.staleSize) os.io).1
    Balanced sock os (handlerRequest env sock { os with trace := [] }) ↔
      ¬ (received.stop = false ∧ RunsCgi env received.httpRequest ∧ LeavesPipeOpen env) := by
  obtain ⟨leaked, held, exactly⟩ := held_handlerRequest env sock os member
  exact (held.balanced_iff member).trans exactly

/-- A connection that asks for a CGI program. -/
def cgiConnection : Os where
  io := ⟨ascii "GET /test_cgi?a HTTP/1.0\r\n\r\n", .closed⟩
  fds := {0, 1, 2, 5}
  trace := []
  writes := []
  sends := []

/-- A machine on which every file is an executable program. -/
def Env.programs : Env := { Env.bare with stat := fun _ => some ⟨0o100755, 10⟩ }

theorem handlerRequest_balanced_iff_cgi :
    Balanced 5 cgiConnection (handlerRequest .programs 5 cgiConnection) ↔
      ¬ ((recvHttpRequest (EndPoint.new 5 0) cgiConnection.io).1.stop = false ∧
        RunsCgi .programs (recvHttpRequest (EndPoint.new 5 0) cgiConnection.io).1.httpRequest ∧
        LeavesPipeOpen .programs) :=
  handlerRequest_balanced_iff .programs 5 cgiConnection (by decide)

/-- If the second `pipe` or `fork` fails, the table keeps the ends that are open by then. -/
theorem handlerRequest_leaks :
    ¬ Balanced 5 cgiConnection (handlerRequest { Env.programs with pipeOutput := false } 5 cgiConnection) ∧
    ¬ Balanced 5 cgiConnection (handlerRequest { Env.programs with forkOk := false } 5 cgiConnection) := by
  constructor
  · intro balanced
    have fds : (handlerRequest { Env.programs with pipeOutput := false } 5 cgiConnection).fds = {0, 1, 2, 3, 4} := by
      decide
    rw [balanced.table] at fds
    revert fds
    decide
  · intro balanced
    have fds : (handlerRequest { Env.programs with forkOk := false } 5 cgiConnection).fds = {0, 1, 2, 3, 4, 6, 7} := by
      decide
    rw [balanced.table] at fds
    revert fds
    decide

end HttpServer.Protocol
