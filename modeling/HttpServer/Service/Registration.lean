import HttpServer.Cgi.MysqlCgi
import HttpServer.Service.Forms

/-!
# The registration, served

`mysql_cgi` is installed as `wwwroot/mysql_cgi`. Its fields go into one SQL statement, the same by
either method, and `InsertSql` returns true on both its ways out: `registration_served` says that
the client is told of a success for every form the program is executed for, also where the database
has not been reached and nothing has been sent to it.
-/

namespace HttpServer.Service
open Lib Protocol Cgi

/-- Where the program is installed. -/
def registration : Bytes := ascii "wwwroot/mysql_cgi"

/-- The name by which a client asks for it. -/
def registrationName : Bytes := ascii "/mysql_cgi"

/-- The site runs `mysql_cgi` there, in the environment of the server with the entries it is given, if
`execl` takes that environment. `connects` says whether the database can be reached. -/
structure Registers (site : Site) (host : Host) (connects : Bool) : Prop where
  node : ∃ text, site.node registration = some (.file true text)
  run : ∀ entries stdin outcome, host.Takes registration entries →
    Mysql.main connects (host.child entries) stdin = some outcome →
    site.run registration entries stdin = (outcome.stdout, .exited 0)
  refused : ∀ entries stdin, ¬ host.Takes registration entries → (site.run registration entries stdin).2 = .exited 1

/-- What the run of the program for a request comes to, once it is executed. -/
def registered (connects : Bool) (host : Host) (q : Request) : Option Mysql.Outcome :=
  Mysql.main connects (host.child q.environ) q.stdin

section Registration
variable {site : Site} {host : Host} {connects : Bool} {q : Request}

theorem registered_form (connects : Bool) (host : Host) (method : q.method = GET ∨ q.method = POST)
    (short : q.body.length < 2 ^ 31) :
    registered connects host q =
      some ⟨some (Mysql.sqlText q.input), if connects then some (cStr (Mysql.sqlText q.input)) else none, Mysql.page⟩ :=
  Mysql.main_inserted connects (getQueryString_environ host.environ method short)

theorem reply_registration (registers : Registers site host connects) (method : q.method = GET ∨ q.method = POST)
    (short : q.body.length < 2 ^ 31) (here : q.location = registration) (takes : host.Takes registration q.environ) :
    reply site q = described OK (ascii "text/html") Mysql.page := by
  obtain ⟨text, node⟩ := registers.node
  have type : suffix2Desc (suffixOf registration) = ascii "text/html" := by decide
  rw [reply_program node (by decide) method here, type,
    registers.run _ _ _ takes (registered_form connects host method short)]
  simp [programReply]

theorem reply_registration_refused (registers : Registers site host connects)
    (method : q.method = GET ∨ q.method = POST) (here : q.location = registration)
    (refused : ¬ host.Takes registration q.environ) : reply site q = failure site BAD_REQUEST := by
  obtain ⟨text, node⟩ := registers.node
  exact reply_refused node (by decide) method here (registers.refused _ _ refused)

/-- **The registration, by either method.** Register at a site with `GET` and with `POST`, on any two
connections. Whatever the form, and whether or not the database is reached, a client is told of a success
if `execl` takes the environment of the child, and gets the error page if not, as for every form of more
than 131058 bytes in a URI. The statement is the same by either method, and it is sent only if the
database is reached. -/
theorem registration_served (registers : Registers site host connects) {queryString : Bytes}
    (clean : (0 : UInt8) ∉ queryString) (short : queryString.length < 2 ^ 31) {get post : WireRequest}
    (got : Got registrationName queryString get) (posted : Posted registrationName queryString post)
    (c : Connection site get) (c' : Connection site post) :
    (host.Takes registration (means get).environ → c.sent = (described OK (ascii "text/html") Mysql.page).bytes) ∧
    (host.Takes registration (means post).environ → c'.sent = (described OK (ascii "text/html") Mysql.page).bytes) ∧
    (¬ host.Takes registration (means get).environ → c.sent = (failure site BAD_REQUEST).bytes) ∧
    (¬ host.Takes registration (means post).environ → c'.sent = (failure site BAD_REQUEST).bytes) ∧
    (131058 < queryString.length → ¬ host.Takes registration (means get).environ) ∧
    ∀ r ∈ [get, post], registered connects host (means r) =
      some ⟨some (Mysql.sqlText queryString), if connects then some (cStr (Mysql.sqlText queryString)) else none,
        Mysql.page⟩ := by
  have plain : (63 : UInt8) ∉ registrationName := by decide
  have located : webPath registrationName = registration := by decide
  have hereGet := (location_got plain queryString).trans located
  have herePost := (location_posted registrationName queryString).trans located
  rw [got.sent c, posted.sent c']
  refine ⟨?_, ?_, ?_, ?_, ?_, ?_⟩
  · rw [got.means]
    intro takes
    rw [reply_registration registers (.inl rfl) (by simp) hereGet takes]
  · rw [posted.means]
    intro takes
    rw [reply_registration registers (.inr rfl) short herePost takes]
  · rw [got.means]
    intro refused
    rw [reply_registration_refused registers (.inl rfl) hereGet refused]
  · rw [posted.means]
    intro refused
    rw [reply_registration_refused registers (.inr rfl) herePost refused]
  · exact fun long => got.refused plain clean long host registration
  · intro r mem
    rcases List.mem_cons.mp mem with rfl | mem
    · rw [got.means, registered_form connects host (.inl rfl) (by simp), input_got plain, cStr_eq_self clean]
    · obtain rfl := List.mem_singleton.mp mem
      rw [posted.means, registered_form connects host (.inr rfl) short, input_posted]

end Registration

/-- A site with nothing but the registration, and no database. -/
def Site.registering : Site :=
  .only registration fun entries stdin =>
    if Host.bare.Takes registration entries then
      match Mysql.main false (Host.bare.child entries) stdin with
      | some outcome => (outcome.stdout, .exited 0)
      | none => ([], .failed)
    else ([], .exited 1)

theorem registers_registering : Registers .registering .bare false := by
  constructor
  case node => exact ⟨none, rfl⟩
  case refused =>
    intro entries stdin refused
    simp only [Site.registering, Site.only, if_neg refused]
  case run =>
    intro entries stdin outcome takes ran
    simp only [Site.registering, Site.only, if_pos takes, ran]

def quoted : Bytes := ascii "n=o'b&p=x"

def gotQuoted : WireRequest := getOf (registrationName ++ 63 :: quoted) (.of_all (by decide) (by decide))

def postedQuoted : WireRequest :=
  postOf registrationName quoted (.of_all (by decide) (by decide)) (by decide) (by unfold OneLine; decide)

theorem addressable_page : Mysql.page.length < 2 ^ 63 := by decide +kernel

def gotQuotedOn : Connection .registering gotQuoted := by
  apply onlyOn _ addressable_page
  apply @conducts_of _ _ _ (4, 6) (7, 8) registration [ascii "METHOD=GET", ascii "QUERY_STRING=n=o'b&p=x"]
  case ends => decide +kernel
  case programs => decide +kernel
  case ran => decide +kernel

def postedQuotedOn : Connection .registering postedQuoted := by
  apply onlyOn _ addressable_page
  apply @conducts_of _ _ _ (4, 6) (7, 8) registration [ascii "METHOD=POST", ascii "CONTENT_LENGTH=9"]
  case ends => decide +kernel
  case programs => decide +kernel
  case ran => decide +kernel

theorem registration_served_quoted :
    gotQuotedOn.sent = (described OK (ascii "text/html") Mysql.page).bytes ∧
      postedQuotedOn.sent = (described OK (ascii "text/html") Mysql.page).bytes := by
  have served := registration_served registers_registering (by decide) (by decide)
    ⟨by decide, rfl, by decide⟩ ⟨by decide, rfl, rfl, by decide, by decide⟩ gotQuotedOn postedQuotedOn
  exact ⟨served.1 (by decide), served.2.1 (by decide)⟩

end HttpServer.Service
