import HttpServer.Net.Utill

/-!
# Requests, responses and the end point

The data of `Protocol.hpp`: the constants, the two description tables, `HttpRequest`,
`HttpResponse` and `EndPoint`. `HttpRequest::size` is not initialised by the source; the
value it starts with is a parameter of `EndPoint.new`.
-/

namespace HttpServer.Protocol
open Lib Net

def LINE_END : Bytes := ascii "\r\n"
def SEP : Bytes := ascii ": "
def WEB_ROOT : Bytes := ascii "wwwroot"
def HOME_PAGE : Bytes := ascii "index.html"
def HTTP_VERSION : Bytes := ascii "HTTP/1.0"
def PAGE_404 : Bytes := ascii "404.html"

def OK : Int := 200
def BAD_REQUEST : Int := 400
def NOT_FOUND : Int := 404
def SERVER_ERROR : Int := 500

/-- `Code2Desc`. -/
def code2Desc (code : Int) : Bytes :=
  if code = 200 then ascii "OK" else if code = 404 then ascii "Not Found" else []

/-- The table of `Suffix2Desc`. -/
def suffixTable : List (Bytes × Bytes) :=
  [(ascii ".html", ascii "text/html"), (ascii ".css", ascii "text/css"),
   (ascii ".js", ascii "application/javascript"), (ascii ".jpg", ascii "application/x-jpg"),
   (ascii ".xml", ascii "application/xml")]

/-- `Suffix2Desc`. -/
def suffix2Desc (suffix : Bytes) : Bytes := (suffixTable.lookup suffix).getD (ascii "text/html")

/-- The `unordered_map` of the header fields, as its entries in insertion order. -/
abbrev HeaderKv := List (Bytes × Bytes)

/-- `header_kv.insert({key, value})`: an entry that exists stays as it is. -/
def HeaderKv.insert (kv : HeaderKv) (key value : Bytes) : HeaderKv :=
  if (kv.lookup key).isSome then kv else kv ++ [(key, value)]

/-- `HttpRequest`. -/
structure HttpRequest where
  requestLine : Bytes
  requestHeader : List Bytes
  blank : Bytes
  requestBody : Bytes
  method : Bytes
  uri : Bytes
  version : Bytes
  headerKv : HeaderKv
  contentLength : Int
  path : Bytes
  suffix : Bytes
  queryString : Bytes
  cgi : Bool
  size : Int
  deriving DecidableEq, Repr

/-- `HttpResponse`. -/
structure HttpResponse where
  statusLine : Bytes
  responseHeader : List Bytes
  blank : Bytes
  responseBody : Bytes
  statusCode : Int
  fd : Int
  deriving DecidableEq, Repr

/-- `EndPoint`. -/
structure EndPoint where
  sock : Int
  httpRequest : HttpRequest
  httpResponse : HttpResponse
  stop : Bool
  deriving DecidableEq, Repr

/-- `EndPoint(_sock)`, with the indeterminate value `size` starts with. -/
def EndPoint.new (sock size : Int) : EndPoint where
  sock := sock
  httpRequest := ⟨[], [], [], [], [], [], [], [], 0, [], [], [], false, size⟩
  httpResponse := ⟨[], [], LINE_END, [], OK, -1⟩
  stop := false

end HttpServer.Protocol
