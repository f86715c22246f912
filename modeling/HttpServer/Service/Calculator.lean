import HttpServer.Cgi.TestCgi
import HttpServer.Service.Forms

/-!
# The calculator, served

`test_cgi` is installed as `wwwroot/test_cgi` and asked for by a form. `calculator_served` says
that it does not matter whether the fields went by the URI or by the body: either way the reply is
the page of the four results, or the error page. Only a form too long for a variable of an
environment is refused in the URI alone.
-/

namespace HttpServer.Service
open Lib Protocol Cgi

/-- Where the calculator is installed. -/
def calculator : Bytes := ascii "wwwroot/test_cgi"

/-- The site runs `test_cgi` there, in the environment of the server with the entries it is given, if
`execl` takes that environment. What the program prints before a fault is left open, and all of an
undefined run. -/
structure Installed (site : Site) (host : Host) : Prop where
  node : ∃ text, site.node calculator = some (.file true text)
  run : ∀ entries stdin result status, host.Takes calculator entries →
    Test.main (host.child entries) stdin = some result → Test.status result = some status →
    (site.run calculator entries stdin).2 = status ∧
      ∀ page, result = .ok page → (site.run calculator entries stdin).1 = page
  refused : ∀ entries stdin, ¬ host.Takes calculator entries → (site.run calculator entries stdin).2 = .exited 1

/-- A division by zero is found before any overflow. -/
theorem answer_zero {queryString : Bytes} (zero : atoi (secondValue queryString) = 0) :
    Test.answer queryString = .error .divisionByZero := by
  have amp : ascii "&" = [38] := rfl
  have equals : ascii "=" = [61] := rfl
  have first : (Test.field (cutString queryString (ascii "&") [] []).1).2 = firstValue queryString := by
    simp only [Test.field, amp, equals, cutString_byte, firstValue]
  have second : (Test.field (cutString queryString (ascii "&") [] []).2).2 = secondValue queryString := by
    simp only [Test.field, amp, equals, cutString_byte, secondValue]
  have fits : Test.FitsInt (atoi (firstValue queryString)) := atoi_bounds _
  have null : Test.FitsInt 0 := by decide
  unfold Test.answer
  simp [first, second, zero, Test.checked, fits, null, Test.divide, bind, Except.bind]

/-- The name by which a client asks for it. -/
def calculatorName : Bytes := ascii "/test_cgi"

section Replies
variable {site : Site} {host : Host} (installed : Installed site host) {q : Request}
include installed

theorem reply_calculator (method : q.method = GET ∨ q.method = POST) (short : q.body.length < 2 ^ 31)
    (here : q.location = calculator) (takes : host.Takes calculator q.environ) :
    (∀ page, Test.answer q.input = .ok page → reply site q = described OK (ascii "text/html") page) ∧
      (Test.answer q.input = .error .divisionByZero → reply site q = failure site SERVER_ERROR) := by
  obtain ⟨text, node⟩ := installed.node
  have type : suffix2Desc (suffixOf calculator) = ascii "text/html" := by decide
  have ran : Test.main (host.child q.environ) q.stdin = some (Test.answer q.input) := by
    unfold Test.main Host.child
    rw [getQueryString_environ host.environ method short, Option.map_some]
  rw [reply_program node (by decide) method here, type]
  unfold programReply
  constructor
  · intro page answer
    obtain ⟨exits, printed⟩ := installed.run _ _ _ (.exited 0) takes ran (by rw [answer]; rfl)
    simp only [exits, if_true, printed page answer]
  · intro answer
    obtain ⟨exits, -⟩ := installed.run _ _ _ .signaled takes ran (by rw [answer]; rfl)
    simp only [exits]

theorem reply_calculator_refused (method : q.method = GET ∨ q.method = POST) (here : q.location = calculator)
    (refused : ¬ host.Takes calculator q.environ) : reply site q = failure site BAD_REQUEST := by
  obtain ⟨text, node⟩ := installed.node
  exact reply_refused node (by decide) method here (installed.refused _ _ refused)

end Replies

/-- **The calculator, by either method.** Ask the calculator of a site with `GET` and with `POST`, on
any two connections. If the second number is not zero and the results are values of `int`, both are
answered with the page of the four results; if the second number is zero, both with the error page.
This is where `execl` takes the environment of the child. Where it does not, as for every form of more
than 131058 bytes in a URI, the error page answers. -/
theorem calculator_served {site : Site} {host : Host} (installed : Installed site host) {queryString : Bytes}
    (clean : (0 : UInt8) ∉ queryString) (short : queryString.length < 2 ^ 31) {get post : WireRequest}
    (got : Got calculatorName queryString get) (posted : Posted calculatorName queryString post)
    (c : Connection site get) (c' : Connection site post) :
    (atoi (secondValue queryString) ≠ 0 →
      Test.FitsInt (atoi (firstValue queryString) + atoi (secondValue queryString)) →
      Test.FitsInt (atoi (firstValue queryString) - atoi (secondValue queryString)) →
      Test.FitsInt (atoi (firstValue queryString) * atoi (secondValue queryString)) →
      ∃ page, Test.answer queryString = .ok page ∧
        (host.Takes calculator (means get).environ → c.sent = (described OK (ascii "text/html") page).bytes) ∧
        (host.Takes calculator (means post).environ → c'.sent = (described OK (ascii "text/html") page).bytes)) ∧
    (atoi (secondValue queryString) = 0 →
      (host.Takes calculator (means get).environ → c.sent = (failure site SERVER_ERROR).bytes) ∧
      (host.Takes calculator (means post).environ → c'.sent = (failure site SERVER_ERROR).bytes)) ∧
    (¬ host.Takes calculator (means get).environ → c.sent = (failure site BAD_REQUEST).bytes) ∧
    (¬ host.Takes calculator (means post).environ → c'.sent = (failure site BAD_REQUEST).bytes) ∧
    (131058 < queryString.length → ¬ host.Takes calculator (means get).environ) := by
  have plain : (63 : UInt8) ∉ calculatorName := by decide
  have located : webPath calculatorName = calculator := by decide
  have hereGet := (location_got plain queryString).trans located
  have herePost := (location_posted calculatorName queryString).trans located
  have byGet := reply_calculator installed (.inl rfl) (by simp) hereGet
  have byPost := reply_calculator installed (.inr rfl) short herePost
  rw [input_got plain, cStr_eq_self clean] at byGet
  rw [input_posted] at byPost
  rw [got.sent c, posted.sent c', got.means, posted.means]
  refine ⟨?_, ?_, ?_, ?_, ?_⟩
  · intro nonzero sum difference product
    obtain ⟨page, answer⟩ := (Test.answer_ok_iff queryString).mpr ⟨nonzero, sum, difference, product⟩
    refine ⟨page, answer, ?_, ?_⟩
    · intro takes
      rw [(byGet takes).1 page answer]
    · intro takes
      rw [(byPost takes).1 page answer]
  · intro zero
    have answer := answer_zero zero
    constructor
    · intro takes
      rw [(byGet takes).2 answer]
    · intro takes
      rw [(byPost takes).2 answer]
  · intro refused
    rw [reply_calculator_refused installed (.inl rfl) hereGet refused]
  · intro refused
    rw [reply_calculator_refused installed (.inr rfl) herePost refused]
  · rw [← got.means]
    exact fun long => got.refused plain clean long host calculator

/-- A site with nothing but the calculator. -/
def Site.calculating : Site :=
  .only calculator fun entries stdin =>
    if Host.bare.Takes calculator entries then
      match Test.main (Host.bare.child entries) stdin with
      | some (.ok page) => (page, .exited 0)
      | some (.error .divisionByZero) => ([], .signaled)
      | _ => ([], .exited 1)
    else ([], .exited 1)

theorem installed_calculating : Installed .calculating .bare := by
  constructor
  case node => exact ⟨none, rfl⟩
  case refused =>
    intro entries stdin refused
    simp only [Site.calculating, Site.only, if_neg refused]
  case run =>
    intro entries stdin result status takes ran exits
    simp only [Site.calculating, Site.only, if_pos takes, ran]
    cases result with
    | ok page =>
      cases exits
      exact ⟨rfl, fun page' same => Except.ok.inj same⟩
    | error fault =>
      cases fault with
      | overflow => cases exits
      | divisionByZero =>
        cases exits
        exact ⟨rfl, fun page same => by cases same⟩

def sixByThree : Bytes := ascii "a=6&b=3"

/-- The page of the four results. -/
def pageOfSix : Bytes := ((Test.answer sixByThree).toOption).getD []

/-- The fields in the URI of a `GET`. -/
def gotSixByThree : WireRequest := getOf (ascii "/test_cgi?a=6&b=3") (.of_all (by decide) (by decide))

/-- The fields in the body of a `POST`. -/
def postedSixByThree : WireRequest :=
  postOf calculatorName sixByThree (.of_all (by decide) (by decide)) (by decide) (by unfold OneLine; decide)

theorem addressable_pageOfSix : pageOfSix.length < 2 ^ 63 := by decide +kernel

def gotOn : Connection .calculating gotSixByThree := by
  apply onlyOn _ addressable_pageOfSix
  apply @conducts_of _ _ _ (4, 6) (7, 8) calculator [ascii "METHOD=GET", ascii "QUERY_STRING=a=6&b=3"]
  case ends => decide +kernel
  case programs => decide +kernel
  case ran => decide +kernel

def postedOn : Connection .calculating postedSixByThree := by
  apply onlyOn _ addressable_pageOfSix
  apply @conducts_of _ _ _ (4, 6) (7, 8) calculator [ascii "METHOD=POST", ascii "CONTENT_LENGTH=7"]
  case ends => decide +kernel
  case programs => decide +kernel
  case ran => decide +kernel

theorem calculator_served_sixByThree :
    ∃ page, Test.answer sixByThree = .ok page ∧ gotOn.sent = (described OK (ascii "text/html") page).bytes ∧
      postedOn.sent = (described OK (ascii "text/html") page).bytes := by
  have served := calculator_served installed_calculating (by decide) (by decide)
    ⟨by decide, rfl, by decide⟩ ⟨by decide, rfl, rfl, by decide, by decide⟩ gotOn postedOn
  obtain ⟨page, answer, byGet, byPost⟩ := served.1 (by decide) (by decide) (by decide) (by decide)
  exact ⟨page, answer, byGet (by decide), byPost (by decide)⟩

end HttpServer.Service
