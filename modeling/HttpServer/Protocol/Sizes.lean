import HttpServer.Protocol.Framing

/-!
# The size of the file

A size is read as an `off_t`, kept in the `int` of `http_request.size`, written into the
header as decimal text and passed to `sendfile` as a `size_t`. The static page and the error
page do not write the same variable: `static_sizes` and `error_sizes` say what each of them
announces and requests, and `size_survives_iff` that both are the size of the file exactly
below 2 GiB.
-/

namespace HttpServer.Protocol
open Lib Net

/-- The count a call requests from `sendfile`. -/
def Syscall.transfer : Syscall → Option Nat
  | .sendfile _ count => some count
  | _ => none

/-- The counts requested from `sendfile`. -/
def Os.transfers (os : Os) : List Nat := os.trace.filterMap Syscall.transfer

/-- The file that answers the request: the page of the OK path, or the error page if
`HandlerError` serves it. -/
inductive Serves (env : Env) (ep : EndPoint) (os : Os) (st : Stat) : Prop where
  | page (code : (dispatch env ep os).code = OK) (static : (dispatch env ep os).ep.httpRequest.cgi = false)
      (file : env.stat (cStr (dispatch env ep os).ep.httpRequest.path) = some st) : Serves env ep os st
  | error (code : ErrorCode (dispatch env ep os).code)
      (opened : 0 < ((dispatch env ep os).os.openRead env (cStr errorPage)).1)
      (file : env.stat (cStr errorPage) = some st) : Serves env ep os st

/-- The header and the one `sendfile` of a connection both carry the size of the file. -/
structure SizeSurvives (env : Env) (sock : Int) (os : Os) (st : Stat) : Prop where
  announced : fieldTexts CONTENT_LENGTH (answered env sock os).1.httpResponse.responseHeader =
    [decimalInt st.size ++ LINE_END]
  requested : (handlerRequest env sock os).transfers = os.transfers ++ [st.size.toNat]

/-! ## The counts of a trace -/

section Transfers

theorem transfers_emit (os : Os) (call : Syscall) :
    (os.emit call).transfers = os.transfers ++ call.transfer.toList :=
  filterMap_snoc Syscall.transfer rfl

theorem transfers_close (fd : Int) (os : Os) : (os.close fd).transfers = os.transfers := by
  obtain ⟨ok, trace⟩ := trace_close fd os
  exact filterMap_silent trace rfl

theorem transfers_send (sock : Int) (data : Bytes) (os : Os) : (os.send sock data).2.transfers = os.transfers :=
  @filterMap_silent os _ (.send sock _) _ _ rfl rfl

theorem transfers_headers (sock : Int) (lines : List Bytes) (os : Os) :
    (lines.foldl (fun os line => (os.send sock line).2) os).transfers = os.transfers := by
  apply @rel_headers fun os os' => os'.transfers = os.transfers
  case refl => exact fun _ => rfl
  case trans => exact fun first second => second.trans first
  case send => exact transfers_send

/-- Building a response requests nothing. -/
theorem frame_transfers : Frame fun os os' => os'.transfers = os.transfers := by
  apply frame_of_trace
  case refl => exact fun _ => rfl
  case trans => exact fun first second => second.trans first
  case one =>
    intro os os' call silent trace
    apply filterMap_silent trace
    cases call with
    | sendfile => cases silent
    | _ => rfl

/-- A response that is not of a CGI program is one `sendfile`. -/
theorem transfers_sendHttpResponse {ep : EndPoint} (os : Os) (static : ep.httpRequest.cgi = false) :
    (sendHttpResponse ep os).transfers = os.transfers ++ [sizeT ep.httpRequest.size] := by
  unfold sendHttpResponse
  simp only [static, Bool.false_eq_true, if_false]
  rw [transfers_close, transfers_emit, transfers_send, transfers_headers, transfers_send]
  rfl

end Transfers

/-! ## The two paths -/

section Paths
variable {env : Env} {ep : EndPoint} {os : Os} {st : Stat}

/-- What a path writes: `announced` into the header and `kept` into `http_request.size`. -/
structure Writes (ep : EndPoint) (announced kept : Int) : Prop where
  static : ep.httpRequest.cgi = false
  header : fieldTexts CONTENT_LENGTH ep.httpResponse.responseHeader = [decimalInt announced ++ LINE_END]
  size : ep.httpRequest.size = kept

/-- The OK path announces what it keeps. -/
theorem static_sizes (fresh : Fresh ep) (code : (dispatch env ep os).code = OK)
    (static : (dispatch env ep os).ep.httpRequest.cgi = false)
    (file : env.stat (cStr (dispatch env ep os).ep.httpRequest.path) = some st) :
    Writes (buildHttpResponse env ep os).1 (int32 st.size) (int32 st.size) := by
  unfold buildHttpResponse
  have outcome := dispatch_outcome env ep os
  generalize dispatch env ep os = a at *
  cases outcome with
  | failed error => exact absurd code error.ne_ok
  | cgi st' method found serves _ _ request =>
    rw [request] at static
    exact absurd (serves.symm.trans static) (by decide)
  | file st' method found serves _ head request =>
    have size : a.ep.httpRequest.size = int32 st.size := by
      rw [request] at file ⊢
      show int32 (redirect env (firstPath ep.httpRequest) st').2.size = _
      rw [redirect_described found file]
    rw [helper_ok env _ code]
    constructor
    case static => exact static
    case header =>
      show fieldTexts CONTENT_LENGTH (a.ep.httpResponse.responseHeader ++ [ascii "Content-Type: " ++ _ ++ LINE_END,
        ascii "Content-Length: " ++ (if a.ep.httpRequest.cgi then _ else decimalInt a.ep.httpRequest.size) ++
          LINE_END]) = _
      rw [head.responseHeader, fresh.responseHeader, List.nil_append, length_texts, static,
        if_neg Bool.false_ne_true, size]
    case size => exact size

/-- The error page announces the `off_t`, and keeps an `int`. -/
theorem error_sizes (fresh : Fresh ep) (code : ErrorCode (dispatch env ep os).code)
    (opened : 0 < ((dispatch env ep os).os.openRead env (cStr errorPage)).1)
    (file : env.stat (cStr errorPage) = some st) :
    Writes (buildHttpResponse env ep os).1 st.size (int32 st.size) := by
  unfold buildHttpResponse
  have head := (dispatch_outcome env ep os).head
  generalize dispatch env ep os = a at *
  rw [helper_error env _ code, handlerError_opened env errorPage _ opened, file, Option.getD_some]
  constructor
  case static => rfl
  case header =>
    show fieldTexts CONTENT_LENGTH (a.ep.httpResponse.responseHeader ++ [ascii "Content-Type: text/html" ++ LINE_END,
      ascii "Content-Length: " ++ decimalInt st.size ++ LINE_END]) = _
    rw [head.responseHeader, fresh.responseHeader, List.nil_append]
    exact length_texts (ascii "text/html") _
  case size => rfl

end Paths

/-! ## The result -/

/-- A size that is stored in an `int` is passed on as itself below 2 GiB, and only there. -/
theorem sizeT_int32_iff {n : Int} (nonneg : 0 ≤ n) (offT : n < 2 ^ 63) : sizeT (int32 n) = n.toNat ↔ n < 2 ^ 31 := by
  have bounds := int32_bounds n
  constructor
  · intro same
    unfold sizeT at same
    omega
  · intro small
    rw [int32_of_bounds (by omega) small]
    unfold sizeT
    omega

theorem handlerRequest_transfers (env : Env) (sock : Int) (os : Os) (received : (accepted env sock os).stop = false)
    {announced kept : Int} (writes : Writes (answered env sock os).1 announced kept) :
    (handlerRequest env sock os).transfers = os.transfers ++ [sizeT kept] := by
  unfold accepted at received
  unfold handlerRequest
  simp only [received, Bool.false_eq_true, if_false]
  rw [transfers_close]
  refine (transfers_sendHttpResponse _ writes.static).trans ?_
  rw [writes.size, frame_transfers.buildHttpResponse]
  rfl

/-- **Sizes on the wire.** For every file with a size of type `off_t` that answers a request,
on the OK path or as the error page: the `Content-Length` and the count requested from
`sendfile` are its size if and only if that is less than 2 GiB. -/
theorem size_survives_iff (env : Env) (sock : Int) (os : Os) {st : Stat}
    (received : (accepted env sock os).stop = false)
    (serves : Serves env (accepted env sock os) (os.accepting env sock) st)
    (nonneg : 0 ≤ st.size) (offT : st.size < 2 ^ 63) :
    SizeSurvives env sock os st ↔ st.size < 2 ^ 31 := by
  have fresh := fresh_accepted env sock os
  -- the header is right below 2 GiB on both paths, and the count tells the rest
  have settle {announced : Int} (small : st.size < 2 ^ 31 → announced = st.size)
      (writes : Writes (answered env sock os).1 announced (int32 st.size)) :
      SizeSurvives env sock os st ↔ st.size < 2 ^ 31 := by
    have requested := handlerRequest_transfers env sock os received writes
    constructor
    · intro survives
      apply (sizeT_int32_iff nonneg offT).mp
      simpa using requested.symm.trans survives.requested
    · intro below
      constructor
      · rw [writes.header, small below]
      · rw [requested, (sizeT_int32_iff nonneg offT).mpr below]
  cases serves with
  | page code static file =>
    apply settle _ (static_sizes fresh code static file)
    intro below
    exact int32_of_bounds (by omega) below
  | error code opened file => exact settle (fun _ => rfl) (error_sizes fresh code opened file)

/-- A machine on which every file has this size and is a page. -/
def Env.sized (size : Int) : Env := { Env.pages with stat := fun _ => some ⟨0o100644, size⟩ }

theorem size_survives_iff_five : SizeSurvives (.sized 5) 5 pageConnection ⟨0o100644, 5⟩ ↔ (5 : Int) < 2 ^ 31 :=
  size_survives_iff (.sized 5) 5 pageConnection (by decide) (.page (by decide) (by decide) rfl) (by decide) (by decide)

/-- A page of 2 GiB is announced with a negative length, and one of five bytes more than 4 GiB
as a page of five bytes. -/
theorem size_lost :
    Serves (.sized (2 ^ 31)) (accepted (.sized (2 ^ 31)) 5 pageConnection)
      (pageConnection.accepting (.sized (2 ^ 31)) 5) ⟨0o100644, 2 ^ 31⟩ ∧
    fieldTexts CONTENT_LENGTH (answered (.sized (2 ^ 31)) 5 pageConnection).1.httpResponse.responseHeader =
      [ascii "-2147483648" ++ LINE_END] ∧
    (handlerRequest (.sized (2 ^ 31)) 5 pageConnection).transfers = [2 ^ 64 - 2 ^ 31] ∧
    ¬ SizeSurvives (.sized (2 ^ 31)) 5 pageConnection ⟨0o100644, 2 ^ 31⟩ ∧
    ¬ SizeSurvives (.sized (2 ^ 32 + 5)) 5 pageConnection ⟨0o100644, 2 ^ 32 + 5⟩ := by
  refine ⟨.page (by decide) (by decide) rfl, ?_, ?_, ?_, ?_⟩
  · decide
  · decide
  · intro survives
    exact absurd survives.requested (by decide)
  · intro survives
    exact absurd survives.requested (by decide)

end HttpServer.Protocol
