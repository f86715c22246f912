import HttpServer.Cgi.Transmission
import HttpServer.Protocol.Framing

/-!
# What the server is for

A site is what the server publishes: files, folders, and programs that answer by themselves.
`reply` is the response of a site to a request, as a function of these two and nothing else:
not of the connection it came on, of the descriptors in use, of the other fields of the
request, nor of the indeterminate values the source starts with.
-/

namespace HttpServer.Service
open Lib Net Protocol

/-- What is found under a name. A file that cannot be read has no text. -/
inductive Node where
  | folder
  | file (executable : Bool) (text : Option Bytes)
  deriving DecidableEq, Repr

/-- Folders have the permission as well, to be searched. -/
def Node.executable : Node → Bool
  | .folder => true
  | .file executable _ => executable

/-- A site. `run path environ stdin` is what comes of executing `path`: the output and the
status the process ends with. A name with nothing to execute has a run as well, one that fails. -/
structure Site where
  node : Bytes → Option Node
  run : Bytes → List Bytes → Bytes → Bytes × WaitStatus
  textShort : ∀ path executable text, node path = some (.file executable (some text)) → text.length < 2 ^ 31
  errorFile : node (cStr errorPage) ≠ some .folder

/-- What a request asks for. -/
structure Request where
  method : Bytes
  uri : Bytes
  body : Bytes
  deriving DecidableEq, Repr

/-- What the sender of a request means by it. A body counts if its length is declared. -/
def means (r : WireRequest) : Request where
  method := r.method.map toUpper
  uri := r.uri
  body := if r.method.map toUpper = POST ∧ (r.headers.lookup Protocol.CONTENT_LENGTH).isSome then r.body else []

namespace Request
variable (q : Request)

/-- The path the URI names: for a `GET` the part before a `?`. -/
def location : Bytes := webPath (if q.method = GET then q.uri.takeWhile fun b => b != 63 else q.uri)

/-- Whether the request brings data for a program. -/
def form : Bool := q.method = POST || 63 ∈ q.uri

/-- The variables a program is given. -/
def environ : List Bytes :=
  if q.method = GET then [Cgi.METHOD ++ ascii "=" ++ GET, Cgi.QUERY_STRING ++ ascii "=" ++ cStr (Cgi.queryOf q.uri)]
  else [Cgi.METHOD ++ ascii "=" ++ POST, Cgi.CONTENT_LENGTH ++ ascii "=" ++ decimal q.body.length]

/-- The standard input a program is given. -/
def stdin : Bytes := if q.method = POST then q.body else []

end Request

/-- The response to a request that fails: the error page, or nothing if it cannot be read. -/
def failure (site : Site) (code : Int) : Response :=
  match site.node (cStr errorPage) with
  | some (.file _ (some text)) => described code (ascii "text/html") text
  | _ => ⟨statusText code, [], []⟩

/-- What a path leads to, and under which name: a folder to its index page. -/
def Site.target (site : Site) (path : Bytes) : Option (Bytes × Node) :=
  match site.node (cStr path) with
  | none => none
  | some .folder => some (indexPath path, (site.node (cStr (indexPath path))).getD .folder)
  | some node => some (path, node)

/-- The response with the output of a program. -/
def programReply (site : Site) (type : Bytes) (ran : Bytes × WaitStatus) : Response :=
  match ran.2 with
  | .failed => described OK type ran.1
  | .exited status => if status = 0 then described OK type ran.1 else failure site BAD_REQUEST
  | .signaled => failure site SERVER_ERROR

/-- The response with the text of a file. -/
def fileReply (site : Site) (type : Bytes) : Node → Response
  | .file _ (some text) => described OK type text
  | _ => failure site NOT_FOUND

/-- The response to a request. -/
def reply (site : Site) (q : Request) : Response :=
  if q.method = GET ∨ q.method = POST then
    match site.target q.location with
    | none => failure site NOT_FOUND
    | some (path, node) =>
      if q.form || node.executable then
        programReply site (suffix2Desc (suffixOf path)) (site.run (cStr path) q.environ q.stdin)
      else fileReply site (suffix2Desc (suffixOf path)) node
  else failure site BAD_REQUEST

end HttpServer.Service
