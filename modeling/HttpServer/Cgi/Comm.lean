import HttpServer.Protocol.Recv
import HttpServer.Protocol.RecvSpec

/-!
# The CGI side of the interface

`GetQueryString` of `cgi/comm.hpp`, on an environment and a standard input. An environment
is the list of its entries `NAME=value`; `putenv` replaces the first entry of the name or
adds one, and `getenv` reads the first. A null pointer from `getenv` ends the program, in
the constructor of `std::string` or in `atoi`, so `getQueryString` is partial.
-/

namespace HttpServer.Cgi
open Lib Protocol

/-! ## The environment -/

/-- The entries of a process environment, C strings. -/
abbrev Environ := List Bytes

/-- The name of an entry, with its `=`. -/
def entryKey (entry : Bytes) : Bytes := (entry.takeWhile fun b => b != 61) ++ ascii "="

/-- `putenv(entry)`, for an entry that has a `=`. -/
def putenv (environ : Environ) (entry : Bytes) : Environ :=
  match environ with
  | [] => [entry]
  | other :: rest => if (entryKey entry).isPrefixOf other then entry :: rest else other :: putenv rest entry

/-- `getenv(name)`. -/
def getenv (environ : Environ) (name : Bytes) : Option Bytes :=
  (environ.find? fun entry => (name ++ ascii "=").isPrefixOf entry).map fun entry => entry.drop (name.length + 1)

/-- A name that can be set. -/
def IsVariable (name : Bytes) : Prop := (61 : UInt8) ∉ name

instance (name : Bytes) : Decidable (IsVariable name) := inferInstanceAs (Decidable ((61 : UInt8) ∉ name))

theorem entryKey_assign {name : Bytes} (plain : IsVariable name) (value : Bytes) :
    entryKey (name ++ ascii "=" ++ value) = name ++ ascii "=" := by
  unfold entryKey
  rw [List.append_assoc]
  exact congrArg (· ++ ascii "=") (takeWhile_until plain value)

/-- Two different names are never prefixes of one entry. -/
theorem key_unique {name name' entry : Bytes} (plain : IsVariable name) (plain' : IsVariable name')
    (first : name ++ ascii "=" <+: entry) (second : name' ++ ascii "=" <+: entry) : name = name' := by
  obtain ⟨value, split⟩ := first
  obtain ⟨value', split'⟩ := second
  have key := entryKey_assign plain value
  have key' := entryKey_assign plain' value'
  rw [split, ← split', key'] at key
  exact (List.append_cancel_right key).symm

theorem getenv_cons_self (name value : Bytes) (environ : Environ) :
    getenv ((name ++ ascii "=" ++ value) :: environ) name = some value := by
  have here : (name ++ ascii "=").isPrefixOf (name ++ ascii "=" ++ value) = true := by
    rw [List.isPrefixOf_iff_prefix]
    exact List.prefix_append ..
  unfold getenv
  rw [List.find?_cons_of_pos here, Option.map_some]
  simp [ascii]

theorem getenv_cons_other {name entry : Bytes} (other : ¬ name ++ ascii "=" <+: entry) (environ : Environ) :
    getenv (entry :: environ) name = getenv environ name := by
  unfold getenv
  rw [List.find?_cons_of_neg]
  rwa [List.isPrefixOf_iff_prefix]

/-- A variable just set reads back. -/
theorem getenv_putenv_self {name : Bytes} (plain : IsVariable name) (value : Bytes) (environ : Environ) :
    getenv (putenv environ (name ++ ascii "=" ++ value)) name = some value := by
  induction environ with
  | nil => exact getenv_cons_self name value []
  | cons entry environ ih =>
    unfold putenv
    rw [entryKey_assign plain]
    split
    · exact getenv_cons_self name value environ
    · rename_i other
      rw [List.isPrefixOf_iff_prefix] at other
      rw [getenv_cons_other other, ih]

/-- Setting a variable leaves the others alone. -/
theorem getenv_putenv_other {name name' : Bytes} (plain : IsVariable name) (plain' : IsVariable name')
    (differ : name' ≠ name) (value : Bytes) (environ : Environ) :
    getenv (putenv environ (name ++ ascii "=" ++ value)) name' = getenv environ name' := by
  have apart : ¬ name' ++ ascii "=" <+: name ++ ascii "=" ++ value :=
    fun key => differ (key_unique plain' plain key (List.prefix_append ..))
  induction environ with
  | nil => exact getenv_cons_other apart []
  | cons entry environ ih =>
    unfold putenv
    rw [entryKey_assign plain]
    split
    · rename_i same
      rw [List.isPrefixOf_iff_prefix] at same
      rw [getenv_cons_other apart, getenv_cons_other]
      exact fun key => differ (key_unique plain' plain key same)
    · by_cases mine : name' ++ ascii "=" <+: entry
      · obtain ⟨text, rfl⟩ := mine
        rw [getenv_cons_self, getenv_cons_self]
      · rw [getenv_cons_other mine, getenv_cons_other mine, ih]

/-! ## The query string -/

def METHOD : Bytes := ascii "METHOD"
def QUERY_STRING : Bytes := ascii "QUERY_STRING"
def CONTENT_LENGTH : Bytes := ascii "CONTENT_LENGTH"

/-- What `GetQueryString` returns, with its output and the standard input it leaves. -/
structure QueryRead where
  result : Bool
  queryString : Bytes
  stdin : Bytes
  deriving DecidableEq, Repr

/-- The loop of the `POST` branch: a `read` at the end of the input leaves `c` as it is. -/
def readLoop : Nat → Int → UInt8 → Bytes → Bytes → Bytes × Bytes
  | 0, _, _, stdin, queryString => (queryString, stdin)
  | fuel + 1, contentLength, c, stdin, queryString =>
    if contentLength = 0 then (queryString, stdin)
    else
      let c := stdin.headD c
      readLoop fuel (int32 (contentLength - 1)) c stdin.tail (queryString ++ [c])

/-- `GetQueryString(query_string)`. A 32-bit count is zero after less than `2 ^ 32` rounds. -/
def getQueryString (environ : Environ) (stdin queryString : Bytes) : Option QueryRead :=
  match getenv environ METHOD with
  | none => none
  | some method =>
    if method = GET then (getenv environ QUERY_STRING).map fun text => ⟨true, text, stdin⟩
    else if method = POST then
      (getenv environ CONTENT_LENGTH).map fun text =>
        let read := readLoop (2 ^ 32) (atoi text) 0 stdin queryString
        ⟨true, read.1, read.2⟩
    else some ⟨false, queryString, stdin⟩

/-- The loop appends as many bytes as its count wants: what there is, and then the last byte again. -/
theorem readLoop_eq {fuel : Nat} {n : Int} (low : -2 ^ 31 ≤ n) (high : n < 2 ^ 31) (enough : wanted n < fuel)
    (stdin : Bytes) (c : UInt8) (queryString : Bytes) :
    readLoop fuel n c stdin queryString =
      (queryString ++ stdin.take (wanted n) ++ List.replicate (wanted n - stdin.length) (stdin.getLastD c),
        stdin.drop (wanted n)) := by
  induction fuel generalizing n c stdin queryString with
  | zero => omega
  | succ fuel ih =>
    have zero := wanted_eq_zero low high
    unfold readLoop
    by_cases done : n = 0
    · rw [if_pos done, zero.mpr done]
      simp
    · have some : 0 < wanted n := Nat.pos_of_ne_zero fun eq => done (zero.mp eq)
      have next := wanted_pred some
      obtain ⟨low', high'⟩ := int32_bounds (n - 1)
      rw [if_neg done, ih low' high' (by omega), ← next]
      cases stdin with
      | nil => simp [List.replicate_succ]
      | cons ch rest =>
        rw [List.getLastD_cons]
        simp

/-- The loop takes the bytes it wants, if they are there. -/
theorem readLoop_available {fuel : Nat} {n : Int} (low : -2 ^ 31 ≤ n) (high : n < 2 ^ 31) (enough : wanted n < fuel)
    {stdin : Bytes} (available : wanted n ≤ stdin.length) (c : UInt8) (queryString : Bytes) :
    readLoop fuel n c stdin queryString = (queryString ++ stdin.take (wanted n), stdin.drop (wanted n)) := by
  rw [readLoop_eq low high enough, Nat.sub_eq_zero_of_le available]
  simp

/-! ## Fields -/

/-- `CutString(in, sep, out1, out2)`: without the separator the outputs stay as they are. -/
def cutString (input sep out1 out2 : Bytes) : Bytes × Bytes :=
  match find sep input with
  | some pos => (input.take pos, input.drop (pos + sep.length))
  | none => (out1, out2)

/-- **Both cuts are at the first separator**, for any text, separator and outputs: `Utill::CutString`
returns true if the text has the separator, and its outputs are then the text around the first
one; else they stay as they are. Those of this `CutString` are always the same. -/
theorem cutString_first (s sep sub1 sub2 : Bytes) :
    ((Net.cutString s sub1 sub2 sep).found = true ↔ sep <:+: s) ∧
    ((Net.cutString s sub1 sub2 sep).found = true →
      (Net.cutString s sub1 sub2 sep).sub1 ++ sep ++ (Net.cutString s sub1 sub2 sep).sub2 = s ∧
      ∀ a b, (Net.cutString s sub1 sub2 sep).sub1 ++ sep = a ++ sep ++ b → b = []) ∧
    ((Net.cutString s sub1 sub2 sep).found = false →
      (Net.cutString s sub1 sub2 sep).sub1 = sub1 ∧ (Net.cutString s sub1 sub2 sep).sub2 = sub2) ∧
    cutString s sep sub1 sub2 = ((Net.cutString s sub1 sub2 sep).sub1, (Net.cutString s sub1 sub2 sep).sub2) := by
  unfold Net.cutString cutString
  cases search : find sep s with
  | none => simp [find_none_iff.mp search]
  | some pos =>
    have within : sep <:+: s := by
      by_contra absent
      rw [find_none_iff.mpr absent] at search
      cases search
    simp only [true_iff, forall_const, reduceCtorEq, false_implies, and_true]
    exact ⟨within, (find_split search).symm, fun a b again => find_first search again⟩

/-- What precedes the first `x`; nothing, if there is none. -/
def upTo (x : UInt8) (s : Bytes) : Bytes := if x ∈ s then s.takeWhile fun b => b != x else []

/-- What follows the first `x`; nothing, if there is none. -/
def behind (x : UInt8) (s : Bytes) : Bytes := (s.dropWhile fun b => b != x).drop 1

/-- With empty outputs a cut at one byte is what precedes and what follows it. -/
theorem cutString_byte (x : UInt8) (input : Bytes) : cutString input [x] [] [] = (upTo x input, behind x input) := by
  unfold cutString upTo behind
  rw [find_byte]
  split_ifs with found
  · simp only [take_run, ← List.drop_drop, drop_run, List.length_singleton]
  · rw [dropWhile_absent found, List.drop_nil]

/-- The value of the first of two fields `name=value` with a `&` between them. -/
def firstValue (queryString : Bytes) : Bytes := behind 61 (upTo 38 queryString)

/-- The value of the second. -/
def secondValue (queryString : Bytes) : Bytes := behind 61 (behind 38 queryString)

end HttpServer.Cgi
