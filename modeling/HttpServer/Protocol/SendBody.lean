import HttpServer.Protocol.Respond

/-!
# Sending a CGI response

The body loop of `SendHttpResponse` against every sequence of results of `send`. The result
is kept in a `size_t`, so a failure counts as the largest length there is: `total` goes one
back, or from zero beyond the end. `Unbroken` is the condition on the results under which
no failure reaches the loop; `sendBody_exact_iff` shows that the bytes accepted and `total`
are right exactly then.
-/

namespace HttpServer.Protocol
open Lib Net

/-- The body loop of `SendHttpResponse`, with `total` at its exit. -/
def sendBody (sock : Int) (body : Bytes) : Nat → Nat → Os → Nat × Os
  | 0, total, os => (total, os)
  | fuel + 1, total, os =>
    if total < body.length then
      let s := os.send sock (body.drop total)
      if 0 < sizeT s.1 then sendBody sock body fuel ((total + sizeT s.1) % 2 ^ 64) s.2 else (total, s.2)
    else (total, os)

/-- It is the loop of the response. -/
theorem sendBody_os (sock : Int) (body : Bytes) (fuel total : Nat) (os : Os) :
    (sendBody sock body fuel total os).2 = sendLoop sock body fuel total os := by
  induction fuel generalizing total os with
  | zero => rfl
  | succ fuel ih =>
    unfold sendBody sendLoop
    split
    · simp only
      split
      · exact ih _ _
      · rfl
    · rfl

/-- The bytes a call hands to the socket. -/
def Syscall.accepted : Syscall → Bytes
  | .send _ data => data
  | _ => []

/-- The bytes the socket has accepted since the trace began. -/
def Os.accepted (os : Os) : Bytes := os.trace.flatMap Syscall.accepted

/-- No `send` fails up to the one that completes a body of which `left` bytes are left, or that
takes nothing. -/
def Unbroken : Nat → List Int → Prop
  | _, [] => True
  | left, ret :: rest => left = 0 ∨ (0 ≤ ret ∧ (ret = 0 ∨ Unbroken (left - ret.toNat) rest))

/-! ## One call -/

section Call
variable {os : Os} {data : Bytes}

theorem accepted_send (sock : Int) (os : Os) (data : Bytes) :
    (os.send sock data).2.accepted = os.accepted ++ data.take (os.send sock data).1.toNat := by
  simp [Os.accepted, Os.send, Os.emit, Syscall.accepted]

/-- A call that fails. -/
theorem send_failure (sock : Int) {rest : List Int} (script : os.sends = -1 :: rest) :
    sizeT (os.send sock data).1 = 2 ^ 64 - 1 ∧ (os.send sock data).2.accepted = os.accepted ∧
      (os.send sock data).2.sends = rest := by
  have ret : (os.send sock data).1 = -1 := by
    show min (os.sends.headD data.length) data.length = _
    rw [script, List.headD_cons]
    omega
  refine ⟨by rw [ret]; rfl, ?_, by simp [Os.send, script]⟩
  rw [accepted_send, ret]
  simp

/-- A call that takes `size` bytes. -/
theorem send_count (sock : Int) {size : Nat} (ret : min (os.sends.headD data.length) data.length = size)
    (addressable : data.length < 2 ^ 63) :
    sizeT (os.send sock data).1 = size ∧ size ≤ data.length ∧
      (os.send sock data).2.accepted = os.accepted ++ data.take size ∧
      (os.send sock data).2.sends = os.sends.tail := by
  have value : (os.send sock data).1 = size := ret
  refine ⟨?_, by omega, ?_, rfl⟩
  · rw [value]
    unfold sizeT
    omega
  · rw [accepted_send, value, Int.toNat_natCast]

end Call

/-! ## One round -/

section Round
variable {sock : Int} {body : Bytes} {total : Nat} {os os' : Os}

/-- What one round of the loop comes to, from `os` to `os'`: a failure puts `total` one back
modulo `2 ^ 64`, an empty result ends the loop, and any other adds what was taken. -/
inductive Round (sock : Int) (body : Bytes) (total : Nat) (os os' : Os) : Prop where
  | failed (rest : List Int) (script : os.sends = -1 :: rest) (accepted : os'.accepted = os.accepted)
      (goes : ∀ fuel, sendBody sock body (fuel + 1) total os =
        sendBody sock body fuel ((total + (2 ^ 64 - 1)) % 2 ^ 64) os')
  | refused (rest : List Int) (script : os.sends = 0 :: rest) (accepted : os'.accepted = os.accepted)
      (goes : ∀ fuel, sendBody sock body (fuel + 1) total os = (total, os'))
  | took (size : Nat) (some : 0 < size) (within : total + size ≤ body.length)
      (result : min (os.sends.headD (body.length - total : Nat)) (body.length - total : Nat) = size)
      (accepted : os'.accepted = os.accepted ++ (body.drop total).take size)
      (goes : ∀ fuel, sendBody sock body (fuel + 1) total os = sendBody sock body fuel (total + size) os')

theorem round (valid : ∀ ret ∈ os.sends, -1 ≤ ret) (addressable : body.length < 2 ^ 63) (more : total < body.length) :
    ∃ os', os'.sends = os.sends.tail ∧ Round sock body total os os' := by
  have length : (body.drop total).length = body.length - total := List.length_drop
  have unfolded : ∀ fuel, sendBody sock body (fuel + 1) total os =
      if 0 < sizeT (os.send sock (body.drop total)).1 then
        sendBody sock body fuel ((total + sizeT (os.send sock (body.drop total)).1) % 2 ^ 64)
          (os.send sock (body.drop total)).2
      else (total, (os.send sock (body.drop total)).2) := by
    intro fuel
    rw [sendBody, if_pos more]
  refine ⟨(os.send sock (body.drop total)).2, rfl, ?_⟩
  by_cases failure : os.sends.head? = some (-1)
  · obtain ⟨rest, script⟩ := List.head?_eq_some_iff.mp failure
    obtain ⟨size, accepted, -⟩ := @send_failure os (body.drop total) sock rest script
    apply Round.failed rest script accepted
    intro fuel
    rw [unfolded, size, if_pos (by decide)]
  · have nonneg : 0 ≤ min (os.sends.headD (body.drop total).length) (body.drop total).length := by
      cases script : os.sends with
      | nil => simp
      | cons ret rest =>
        have low := valid ret (by simp [script])
        have notFailed : ret ≠ -1 := fun eq => failure (by rw [script, eq]; rfl)
        rw [List.headD_cons]
        omega
    obtain ⟨size, result⟩ := Int.eq_ofNat_of_zero_le nonneg
    obtain ⟨value, within, accepted, -⟩ := send_count sock result (by omega)
    rcases Nat.eq_zero_or_pos size with rfl | some
    · cases script : os.sends with
      | nil =>
        rw [script, List.headD_nil] at result
        omega
      | cons ret rest =>
        rw [script, List.headD_cons] at result
        obtain rfl : ret = 0 := by omega
        apply Round.refused rest script
        · rw [accepted, List.take_zero, List.append_nil]
        · intro fuel
          rw [unfolded, value, if_neg (lt_irrefl 0)]
    · apply Round.took size some (by omega) (by rw [← length]; exact result) accepted
      intro fuel
      have sum : (total + size) % 2 ^ 64 = total + size := by omega
      rw [unfolded, value, if_pos some, sum]

/-- Behind the body the loop is over. -/
theorem sendBody_done (done : body.length ≤ total) (fuel : Nat) : sendBody sock body fuel total os = (total, os) := by
  cases fuel with
  | zero => rfl
  | succ fuel =>
    rw [sendBody, if_neg]
    omega

theorem valid_tail (valid : ∀ ret ∈ os.sends, -1 ≤ ret) (sends : os'.sends = os.sends.tail) :
    ∀ ret ∈ os'.sends, -1 ≤ ret := by
  intro ret mem
  rw [sends] at mem
  exact valid ret (List.mem_of_mem_tail mem)

/-- A result that takes bytes leaves the condition to the rest of the script. -/
theorem unbroken_took {left size : Nat} {script : List Int} (more : 0 < left) (some : 0 < size)
    (result : min (script.headD left) left = size) : Unbroken left script ↔ Unbroken (left - size) script.tail := by
  cases script with
  | nil => simp [Unbroken]
  | cons ret rest =>
    rw [List.headD_cons] at result
    have positive : 0 < ret := by omega
    have rest_left : left - ret.toNat = left - size := by omega
    rw [Unbroken, List.tail_cons, rest_left]
    constructor
    · rintro (done | ⟨-, zero | unbroken⟩)
      · omega
      · omega
      · exact unbroken
    · intro unbroken
      exact .inr ⟨by omega, .inr unbroken⟩

/-! ## Whole runs -/

/-- A script that is used up leaves one round that takes all and one that ends the loop, so more
fuel changes nothing. -/
theorem sendBody_fuel (addressable : body.length < 2 ^ 63) {n fuel fuel' : Nat} (valid : ∀ ret ∈ os.sends, -1 ≤ ret)
    (length : os.sends.length ≤ n) (enough : n + 2 ≤ fuel) (enough' : n + 2 ≤ fuel') :
    sendBody sock body fuel total os = sendBody sock body fuel' total os := by
  induction n generalizing total os fuel fuel' with
  | zero =>
    have script : os.sends = [] := List.eq_nil_of_length_eq_zero (by omega)
    obtain ⟨fuel, rfl⟩ : ∃ k, fuel = k + 1 := ⟨fuel - 1, by omega⟩
    obtain ⟨fuel', rfl⟩ : ∃ k, fuel' = k + 1 := ⟨fuel' - 1, by omega⟩
    by_cases more : total < body.length
    · obtain ⟨os', sends, round⟩ := @round sock body total os valid addressable more
      cases round with
      | failed rest script' => rw [script] at script'; cases script'
      | refused rest script' => rw [script] at script'; cases script'
      | took size some within result accepted goes =>
        rw [script, List.headD_nil] at result
        rw [goes, goes, sendBody_done (by omega), sendBody_done (by omega)]
    · rw [sendBody_done (by omega), sendBody_done (by omega)]
  | succ n ih =>
    obtain ⟨fuel, rfl⟩ : ∃ k, fuel = k + 1 := ⟨fuel - 1, by omega⟩
    obtain ⟨fuel', rfl⟩ : ∃ k, fuel' = k + 1 := ⟨fuel' - 1, by omega⟩
    by_cases more : total < body.length
    · obtain ⟨os', sends, round⟩ := @round sock body total os valid addressable more
      have shorter : os'.sends.length ≤ n := by
        rw [sends, List.length_tail]
        omega
      cases round with
      | failed rest script accepted goes =>
        rw [goes, goes]
        exact ih (valid_tail valid sends) shorter (by omega) (by omega)
      | refused rest script accepted goes => rw [goes, goes]
      | took size some within result accepted goes =>
        rw [goes, goes]
        exact ih (valid_tail valid sends) shorter (by omega) (by omega)
    · rw [sendBody_done (by omega), sendBody_done (by omega)]

/-- While no `send` fails, what is accepted is the body up to `total`. -/
theorem sendBody_unbroken (addressable : body.length < 2 ^ 63) {fuel : Nat} (valid : ∀ ret ∈ os.sends, -1 ≤ ret)
    (within : total ≤ body.length) (clean : os.accepted = body.take total)
    (unbroken : Unbroken (body.length - total) os.sends) :
    (sendBody sock body fuel total os).1 ≤ body.length ∧
      (sendBody sock body fuel total os).2.accepted = body.take (sendBody sock body fuel total os).1 := by
  induction fuel generalizing total os with
  | zero => exact ⟨within, clean⟩
  | succ fuel ih =>
    by_cases more : total < body.length
    · obtain ⟨os', sends, round⟩ := @round sock body total os valid addressable more
      cases round with
      | failed rest script accepted goes =>
        rw [script, Unbroken] at unbroken
        omega
      | refused rest script accepted goes =>
        rw [goes]
        exact ⟨within, accepted.trans clean⟩
      | took size some small result accepted goes =>
        rw [goes]
        apply ih (valid_tail valid sends) small
        · rw [accepted, clean, ← List.take_add]
        · rw [sends, ← Nat.sub_sub]
          exact (unbroken_took (by omega) some result).mp unbroken
    · rw [sendBody_done (by omega)]
      exact ⟨within, clean⟩

/-- Once `total` is behind what is accepted it stays so, unless it goes below zero. -/
theorem sendBody_behind (addressable : body.length < 2 ^ 63) {fuel : Nat} (valid : ∀ ret ∈ os.sends, -1 ≤ ret)
    (within : total ≤ body.length) (behind : total < os.accepted.length) :
    (sendBody sock body fuel total os).1 < (sendBody sock body fuel total os).2.accepted.length ∨
      (sendBody sock body fuel total os).1 = 2 ^ 64 - 1 := by
  induction fuel generalizing total os with
  | zero => exact .inl behind
  | succ fuel ih =>
    by_cases more : total < body.length
    · obtain ⟨os', sends, round⟩ := @round sock body total os valid addressable more
      cases round with
      | failed rest script accepted goes =>
        rw [goes]
        rcases Nat.eq_zero_or_pos total with rfl | some
        · rw [sendBody_done (by omega)]
          exact .inr rfl
        · have back : (total + (2 ^ 64 - 1)) % 2 ^ 64 = total - 1 := by omega
          rw [back]
          exact ih (valid_tail valid sends) (by omega) (by rw [accepted]; omega)
      | refused rest script accepted goes =>
        rw [goes]
        exact .inl (by rw [accepted]; exact behind)
      | took size some small result accepted goes =>
        rw [goes]
        apply ih (valid_tail valid sends) small
        rw [accepted, List.length_append, List.length_take, List.length_drop]
        omega
    · rw [sendBody_done (by omega)]
      exact .inl behind

/-- A `send` that fails leaves `total` behind what is accepted, or below zero. -/
theorem sendBody_broken (addressable : body.length < 2 ^ 63) {fuel : Nat} (valid : ∀ ret ∈ os.sends, -1 ≤ ret)
    (enough : os.sends.length < fuel) (within : total ≤ body.length) (clean : os.accepted = body.take total)
    (broken : ¬ Unbroken (body.length - total) os.sends) :
    (sendBody sock body fuel total os).1 < (sendBody sock body fuel total os).2.accepted.length ∨
      (sendBody sock body fuel total os).1 = 2 ^ 64 - 1 := by
  induction fuel generalizing total os with
  | zero => omega
  | succ fuel ih =>
    have more : total < body.length := by
      by_contra done
      apply broken
      cases os.sends with
      | nil => trivial
      | cons ret rest => exact .inl (by omega)
    have length : os.accepted.length = total := by
      rw [clean, List.length_take]
      omega
    obtain ⟨os', sends, round⟩ := @round sock body total os valid addressable more
    cases round with
    | failed rest script accepted goes =>
      rw [goes]
      rcases Nat.eq_zero_or_pos total with rfl | some
      · rw [sendBody_done (by omega)]
        exact .inr rfl
      · have back : (total + (2 ^ 64 - 1)) % 2 ^ 64 = total - 1 := by omega
        rw [back]
        apply sendBody_behind addressable (valid_tail valid sends) (by omega)
        rw [accepted]
        omega
    | refused rest script accepted goes =>
      rw [script] at broken
      exact absurd (.inr ⟨le_refl 0, .inl rfl⟩) broken
    | took size some small result accepted goes =>
      rw [goes]
      apply ih (valid_tail valid sends) _ small
      · rw [accepted, clean, ← List.take_add]
      · rw [sends, ← Nat.sub_sub]
        exact fun unbroken => broken ((unbroken_took (by omega) some result).mpr unbroken)
      · rw [sends, List.length_tail]
        have nonempty : os.sends ≠ [] := by
          intro nil
          rw [nil] at broken
          exact broken trivial
        have := List.length_pos_of_ne_nil nonempty
        omega

end Round

/-- **Sending the body, exactly.** For every body and every script of results, each `-1` or a
count: the loop ends within the fuel `SendHttpResponse` gives it, and at its exit the socket
has accepted a prefix of the body and `total` is its length if and only if no `send` has
failed. -/
theorem sendBody_exact_iff (sock : Int) (body : Bytes) (os : Os) (begun : os.trace = [])
    (addressable : body.length < 2 ^ 63) (valid : ∀ ret ∈ os.sends, -1 ≤ ret) :
    (∀ fuel, os.sends.length + 2 ≤ fuel →
      sendBody sock body fuel 0 os = sendBody sock body (os.sends.length + 2) 0 os) ∧
    (((sendBody sock body (os.sends.length + 2) 0 os).2.accepted <+: body ∧
        (sendBody sock body (os.sends.length + 2) 0 os).1 =
          (sendBody sock body (os.sends.length + 2) 0 os).2.accepted.length) ↔
      Unbroken body.length os.sends) := by
  have clean : os.accepted = body.take 0 := by simp [Os.accepted, begun]
  constructor
  · exact fun fuel enough => sendBody_fuel addressable valid le_rfl enough le_rfl
  · constructor
    · rintro ⟨prefix_, total⟩
      by_contra broken
      have length := prefix_.length_le
      have enough : os.sends.length < os.sends.length + 2 := by omega
      rcases sendBody_broken addressable valid enough (Nat.zero_le _) clean broken with behind | below
      · exact absurd total (Nat.ne_of_lt behind)
      · rw [below] at total
        omega
    · intro unbroken
      obtain ⟨within, accepted⟩ := @sendBody_unbroken sock body 0 os addressable (os.sends.length + 2) valid
        (Nat.zero_le _) clean unbroken
      rw [accepted]
      refine ⟨List.take_prefix _ _, ?_⟩
      rw [List.length_take]
      omega

/-- A socket that takes one byte, fails once, and then takes everything. -/
def flakySocket : Os where
  io := ⟨[], .closed⟩
  fds := {5}
  trace := []
  writes := []
  sends := [1, -1]

theorem sendBody_exact_iff_flaky :
    (∀ fuel, flakySocket.sends.length + 2 ≤ fuel →
      sendBody 5 (ascii "abc") fuel 0 flakySocket = sendBody 5 (ascii "abc") (flakySocket.sends.length + 2) 0 flakySocket) ∧
    (((sendBody 5 (ascii "abc") (flakySocket.sends.length + 2) 0 flakySocket).2.accepted <+: ascii "abc" ∧
        (sendBody 5 (ascii "abc") (flakySocket.sends.length + 2) 0 flakySocket).1 =
          (sendBody 5 (ascii "abc") (flakySocket.sends.length + 2) 0 flakySocket).2.accepted.length) ↔
      Unbroken (ascii "abc").length flakySocket.sends) :=
  sendBody_exact_iff 5 (ascii "abc") flakySocket rfl (by decide) (by decide)

/-- After the failure the first byte goes out again; a failure at once ends the loop with a
`total` beyond everything. -/
theorem sendBody_repeats :
    (sendBody 5 (ascii "abc") 4 0 flakySocket).2.accepted = ascii "aabc" ∧
    ¬ (sendBody 5 (ascii "abc") 4 0 flakySocket).2.accepted <+: ascii "abc" ∧
    (sendBody 5 (ascii "abc") 3 0 { flakySocket with sends := [-1] }).1 = 2 ^ 64 - 1 ∧
    (sendBody 5 (ascii "abc") 3 0 { flakySocket with sends := [-1] }).2.accepted = [] := by
  decide

end HttpServer.Protocol
