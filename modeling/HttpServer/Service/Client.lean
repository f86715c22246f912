import HttpServer.Lib.Triples
import HttpServer.Server.Handler
import HttpServer.Service.Site

/-!
# What the client of a handler sees

`View` is one connection from outside: the request its client sends, the texts behind the
descriptors the handler has open, what the child is given, and the bytes that `send` and
`sendfile` have taken.
`client` is the world a handler runs in on a system that shows a site: the numbers of new
descriptors, the pieces in which the body is written and what `stat` says beyond the nodes of
the site are left open.
-/

namespace HttpServer.Service
open Lib Net Protocol Server

/-- A connection, seen from outside its handler. -/
structure View where
  request : WireRequest
  sock : Nat
  files : Nat → Option Bytes
  stdin : Option Nat
  child : Option (Bytes × List Bytes)
  given : Bytes
  sent : Bytes

/-- Before the first call of the handler. -/
def View.new (request : WireRequest) (sock : Nat) : View := ⟨request, sock, fun _ => none, none, none, [], []⟩

/-- More bytes have been taken. -/
def View.got (v : View) (data : Bytes) : View := { v with sent := v.sent ++ data }

theorem View.got_got (v : View) (first second : Bytes) : (v.got first).got second = v.got (first ++ second) := by
  simp [View.got]

theorem View.got_nil (v : View) : v.got [] = v := by
  simp [View.got]

/-- What `open` finds to read under a name. -/
def Site.text (site : Site) (path : Bytes) : Option Bytes :=
  match site.node path with
  | some (.file _ text) => text
  | _ => none

/-- What `stat` says of a node. -/
def Node.describes : Node → Stat → Prop
  | .folder, st => st.isDir = true ∧ st.isExec = true
  | .file executable text, st => st.isDir = false ∧ st.isExec = executable ∧ ∀ t ∈ text, st.size = t.length

/-- `stat` may answer so. -/
def Site.stats (site : Site) (path : Bytes) (st : Option Stat) : Prop :=
  match site.node path, st with
  | none, none => True
  | some node, some st => node.describes st
  | _, _ => False

/-- `open` may answer so: there is a text to read, or there is none. -/
def Site.opens (site : Site) (path : Bytes) (fd : Int) : Prop :=
  site.node path = some .folder ∨ if (site.text path).isSome then 0 < fd else fd < 0

/-- The text behind a descriptor. -/
def View.text (v : View) (fd : Int) : Bytes := if 0 ≤ fd then (v.files fd.toNat).getD [] else []

/-- The view after a call. -/
def View.after (site : Site) (v : View) : (c : Call) → c.Answer → View
  | .openRead path, (fd : Int) =>
    if 0 ≤ fd then { v with files := Function.update v.files fd.toNat (site.text path) } else v
  | .pipeOutput, some ends => { v with stdin := some ends.2 }
  | .fork path environ, true => { v with child := some (path, environ) }
  | .write fd data, (size : Int) =>
    if 0 ≤ fd ∧ v.stdin = some fd.toNat then { v with given := v.given ++ data.take size.toNat } else v
  | .send sock data, (size : Int) => if sock = v.sock then v.got (data.take size.toNat) else v
  | .sendfile sock fd count, _ => if sock = v.sock then v.got ((v.text fd).take count) else v
  | .close fd, _ => if 0 ≤ fd then { v with files := Function.update v.files fd.toNat none } else v
  | _, _ => v

/-- What the child of a connection prints, and how it ends. -/
def View.ran (site : Site) (v : View) : Bytes × WaitStatus :=
  match v.child with
  | some (path, environ) => site.run path environ v.given
  | none => ([], .failed)

/-- The answers of a system that shows the site and has resources to spare: pipes and children are
created, and `send` takes all it is given. -/
def View.allows (site : Site) (v : View) : (c : Call) → c.Answer → Prop
  | .recv _, (stream : Sock) => stream.unread = v.request.encode
  | .stat path, st => site.stats path st
  | .openRead path, fd => site.opens path fd
  | .pipeInput, ends | .pipeOutput, ends => ends.isSome = true
  | .fork _ _, ok => ok = true
  | .write _ data, (size : Int) => data ≠ [] → 0 < size ∧ size ≤ data.length
  | .read _, (output : Bytes) => output = (v.ran site).1
  | .waitpid, (status : WaitStatus) => status = (v.ran site).2
  | .send _ data, (size : Int) => size = data.length
  | .sendfile _ _ _, _ | .close _, _ => True

/-- The world of a handler. -/
def client (site : Site) : World Call Call.Answer View := ⟨View.allows site, View.after site⟩

end HttpServer.Service
