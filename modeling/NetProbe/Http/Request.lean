import NetProbe.Config.Basic
import NetProbe.Http.Head
import NetProbe.Program.Arguments
import NetProbe.Url.Basic
import NetProbe.Value
set_option autoImplicit false

/-! # Requests

A request is planned from the arguments of the operation, the configured defaults and the
connection that it goes over. `Request.plan` refuses methods that are no tokens, hosts that make no
URL, and header values with line breaks. What makes a URL is up to a library
(`Request.planWith`). A request goes out as a head of HTTP/1.1 (`Request.head`) or as the fields of
HTTP/3 (`Request.fields`); neither has a body. -/

namespace NetProbe.Http

structure Request where
  method : String
  url : Url
  /-- Names and values in the order in which they are sent. -/
  headers : List (String × String)
deriving DecidableEq, Repr

/-! ## Planning -/

/-- Why no request can be planned. -/
inductive RequestFault where
  | method (text : String)
  | url (text : String) (fault : Url.Fault)
  | lineBreak (field : String)
deriving DecidableEq, Repr

def RequestFault.message : RequestFault → String
  | method text => "invalid method " ++ Text.quote text
  | url text fault => "invalid URL " ++ text ++ ": " ++ fault.message
  | lineBreak field => field ++ " contains a line break"

/-- Characters of tokens. -/
def isTokenChar (c : Char) : Bool :=
  ('a' ≤ c && c ≤ 'z') || ('A' ≤ c && c ≤ 'Z') || ('0' ≤ c && c ≤ '9') ||
    ['!', '#', '$', '%', '&', '\'', '*', '+', '-', '.', '^', '_', '\x60', '|', '~'].contains c

/-- Whether a text is a token. -/
def isToken (s : String) : Bool :=
  !s.isEmpty && s.toList.all isTokenChar

/-- Whether a text has a line break in it. -/
def hasLineBreak (s : String) : Bool :=
  s.toList.any fun c => c == '\r' || c == '\n'

/-- A host as it stands in a URL: an address of version six in brackets, all else as it is. -/
def authorityOf (host : String) : String :=
  match Ip.parse? host with
  | some (.v6 a) => "[" ++ a.text ++ "]"
  | _ => host

/-- The text that the URL of a request is read from. -/
def urlText (a : HttpArguments) (c : Connection) : String :=
  a.urlScheme.getD c.scheme ++ "://" ++ authorityOf (a.urlHost.getD c.domain) ++ "/"

/-- The URL of a request, as a library makes it. -/
def planUrlWith (lib : Url.Library) (a : HttpArguments) (c : Connection) :
    Except RequestFault Url :=
  match lib.parse (urlText a c) with
  | .error e => .error (.url (urlText a c) e)
  | .ok url => .ok (lib.withPath url (a.urlPath.getD "/"))

/-- The URL of a request. -/
def planUrl (a : HttpArguments) (c : Connection) : Except RequestFault Url :=
  planUrlWith .ascii a c

/-- The headers that are left out when they are empty, with their values. -/
def optionalHeaders (a : HttpArguments) (d : HttpDefaults) : List (String × String) :=
  [("Accept", a.accept.getD d.accept),
    ("Accept-Language", a.acceptLanguage.getD d.acceptLanguage),
    ("Referer", a.referer.getD ""),
    ("User-Agent", a.userAgent.getD d.userAgent)]

/-- The optional headers that are not empty. -/
def planOptional : List (String × String) → Except RequestFault (List (String × String))
  | [] => .ok []
  | (name, value) :: rest =>
    if value.isEmpty then planOptional rest
    else if hasLineBreak value then .error (.lineBreak name)
    else (planOptional rest).map ((name, value) :: ·)

/-- The headers of a request: the host, even if it is empty, and the optional ones. -/
def planHeaders (a : HttpArguments) (d : HttpDefaults) (c : Connection) :
    Except RequestFault (List (String × String)) :=
  let host := a.host.getD c.domain
  if hasLineBreak host then .error (.lineBreak "host")
  else (planOptional (optionalHeaders a d)).map (("Host", host) :: ·)

/-- The request that the arguments ask for over a connection, with a library for its URL. -/
def Request.planWith (lib : Url.Library) (a : HttpArguments) (d : HttpDefaults) (c : Connection) :
    Except RequestFault Request :=
  let method := a.method.getD "GET"
  if !isToken method then .error (.method method)
  else match planUrlWith lib a c with
    | .error e => .error e
    | .ok url => (planHeaders a d c).map fun headers => { method, url, headers }

/-- The request that the arguments ask for over a connection. -/
def Request.plan (a : HttpArguments) (d : HttpDefaults) (c : Connection) :
    Except RequestFault Request :=
  Request.planWith .ascii a d c

/-! ## Sending -/

/-- A line of a head with its end. -/
def headLine (line : String) : String := line ++ "\r\n"

/-- The head of a request of HTTP/1.1. -/
def Request.head (r : Request) : String :=
  headLine (r.method ++ " " ++ r.url.target ++ " HTTP/1.1") ++
    String.join (r.headers.map fun h => headLine (h.1 ++ ": " ++ h.2)) ++ headLine ""

/-- A request of HTTP/3. The host is told by the authority and not by a header. -/
structure Fields where
  method : String
  scheme : String
  authority : String
  path : String
  headers : List (String × String)
deriving DecidableEq, Repr

/-- Why a request cannot be put into fields. -/
inductive FieldsFault where
  | uriTooLong
  | uriCharacter
  | headerValue
deriving DecidableEq, Repr

def FieldsFault.message : FieldsFault → String
  | uriTooLong => "uri too long"
  | uriCharacter => "invalid uri character"
  | headerValue => "failed to parse header value"

/-- The most bytes of a URL in fields. -/
def maxUri : Nat := 65534

/-- Characters of an authority. -/
def isAuthorityChar (c : Char) : Bool :=
  ('a' ≤ c && c ≤ 'z') || ('A' ≤ c && c ≤ 'Z') || ('0' ≤ c && c ≤ '9') ||
    ['!', '$', '%', '&', '\'', '(', ')', '*', '+', ',', '-', '.', ':', ';', '=', '@', '[', ']',
      '_', '~'].contains c

/-- Whether an authority can be put into fields. Percent signs are only for names and passwords. -/
def isAuthority (u : Url) : Bool :=
  u.userText.toList.all (fun c => c == '%' || isAuthorityChar c) &&
    (u.host.text ++ u.portText).toList.all isAuthorityChar

/-- Characters of header values: all but the control characters, of which the tab is allowed. -/
def isValueChar (c : Char) : Bool :=
  c == '\t' || (0x20 ≤ c.toNat && c.toNat != 0x7f)

/-- The fields of a request. -/
def Request.fields (r : Request) : Except FieldsFault Fields :=
  let headers := r.headers.filter fun h => !Text.sameIgnoringCase h.1 "host"
  if maxUri < r.url.text.utf8ByteSize then .error .uriTooLong
  else if !isAuthority r.url then .error .uriCharacter
  else if !headers.all (fun h => h.2.toList.all isValueChar) then .error .headerValue
  else .ok {
    method := r.method, scheme := r.url.scheme.text, authority := r.url.authority,
    path := r.url.target, headers := headers.map fun h => (Text.toLowerAscii h.1, h.2) }

end NetProbe.Http
