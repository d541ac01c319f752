import NetProbe.Url.Host
set_option autoImplicit false

/-! # URLs

URLs of web pages: a scheme, perhaps a user, a host, perhaps a port, a path, and perhaps a query
and a fragment. All parts but the host are held percent-encoded. `Url.parse` reads what stands
behind the scheme, `Url.withPath` puts in another path, in which question marks and number signs
mean themselves. These two make the library `Url.Library.ascii`, which knows URLs of web pages whose
hosts are in ASCII; other libraries know more. -/

namespace NetProbe

namespace Url

inductive Scheme where
  | http
  | https
  /-- A scheme that is not one of web pages. -/
  | other (name : String)
deriving DecidableEq, Repr

namespace Scheme

def text : Scheme → String
  | http => "http"
  | https => "https"
  | other name => name

/-- The scheme of web pages that has a name. -/
def ofText? (s : String) : Option Scheme :=
  if s = "http" then some http else if s = "https" then some https else none

/-- The port that URLs do not show. -/
def port? : Scheme → Option Nat
  | http => some 80
  | https => some 443
  | other _ => none

end Scheme

end Url

structure Url where
  scheme : Url.Scheme
  /-- A name and a password. -/
  user : Option (String × Option String) := none
  host : Url.Host
  port : Option UInt16 := none
  /-- The segments of the path; each follows a slash. -/
  segments : List String := [""]
  query : Option String := none
  fragment : Option String := none
deriving DecidableEq, Repr

namespace Url

/-! ## Printing -/

def userText (u : Url) : String :=
  match u.user with
  | none => ""
  | some (name, none) => name ++ "@"
  | some (name, some password) => name ++ ":" ++ password ++ "@"

def portText (u : Url) : String :=
  match u.port with
  | none => ""
  | some p => ":" ++ toString p.toNat

/-- What stands between the slashes and the path. -/
def authority (u : Url) : String :=
  u.userText ++ u.host.text ++ u.portText

/-- The path, which starts with a slash. -/
def path (u : Url) : String :=
  "/" ++ "/".intercalate u.segments

/-- The path and the query, as a request line shows them. -/
def target (u : Url) : String :=
  match u.query with
  | some q => u.path ++ "?" ++ q
  | none => u.path

def text (u : Url) : String :=
  let fragment := match u.fragment with
    | some f => "#" ++ f
    | none => ""
  u.scheme.text ++ "://" ++ u.authority ++ u.target ++ fragment

/-! ## Reading -/

/-- Line breaks and tabs, which count for nothing in a URL. -/
def isBreak (c : Char) : Bool :=
  c == '\n' || c == '\r' || c == '\t'

def isSlash (c : Char) : Bool :=
  c == '/' || c == '\\'

/-- Characters that end what stands before the path. -/
def isAuthorityEnd (c : Char) : Bool :=
  isSlash c || c == '?' || c == '#'

/-- The parts between the slashes, of which there are two sorts. -/
def splitSlashes : List Char → List (List Char)
  | [] => [[]]
  | c :: rest =>
    if isSlash c then [] :: splitSlashes rest
    else match splitSlashes rest with
      | [] => [[c]]
      | part :: parts => (c :: part) :: parts

/-- Segments that stand for the place they are at. -/
def isHere (s : List Char) : Bool :=
  Text.toLowerAscii (String.ofList s) ∈ [".", "%2e"]

/-- Segments that stand for the place above. -/
def isAbove (s : List Char) : Bool :=
  Text.toLowerAscii (String.ofList s) ∈ ["..", ".%2e", "%2e.", "%2e%2e"]

/-- The segments of a path, of which those before it were read. -/
def resolve (before : List String) : List (List Char) → List String
  | [] => before
  | s :: rest =>
    let next :=
      if isAbove s then before.dropLast ++ (if rest.isEmpty then [""] else [])
      else if isHere s then before ++ (if rest.isEmpty then [""] else [])
      else before ++ [String.ofList s]
    resolve next rest

/-- The segments of the text of a path. -/
def segmentsOf (cs : List Char) : List String :=
  let cs := cs.filter fun c => !isBreak c
  let cs := match cs with
    | c :: rest => if isSlash c then rest else c :: rest
    | [] => []
  resolve [] ((splitSlashes cs).map (encode isSpecialInPath))

/-- The URL with another path. -/
def withPath (u : Url) (path : String) : Url :=
  { u with segments := segmentsOf path.toList }

/-- The name and the password before the last at sign of a text, and what follows it. -/
def splitUser (cs : List Char) : Option (List Char) × List Char :=
  if cs.contains '@' then
    let host := (cs.reverse.takeWhile (· != '@')).reverse
    (some (cs.take (cs.length - host.length - 1)), host)
  else (none, cs)

/-- The name and the password that a text gives, if there is anything in it. -/
def userOf (cs : List Char) : Option (String × Option String) :=
  let name := String.ofList (encode isSpecialInUser (cs.takeWhile (· != ':')))
  let password := (cs.dropWhile (· != ':')).drop 1
  if password.isEmpty then if name.isEmpty then none else some (name, none)
  else some (name, some (String.ofList (encode isSpecialInUser password)))

/-- The text of the host and the one that follows it. Colons in brackets belong to the host. -/
def splitHost (inBrackets : Bool) : List Char → List Char × List Char
  | [] => ([], [])
  | c :: rest =>
    if c == ':' && !inBrackets then ([], c :: rest)
    else
      let (host, rest) := splitHost (c == '[' || (inBrackets && c != ']')) rest
      (c :: host, rest)

/-- The port of a text that is empty or starts with a colon. The one of the scheme is left out. -/
def portOf (scheme : Scheme) (cs : List Char) : Except Fault (Option UInt16) :=
  let digits := cs.drop 1
  let n := digits.foldl (fun n c => n * 10 + (c.toNat - 48)) 0
  if !digits.all Char.isDigit || 65535 < n then .error .port
  else if digits.isEmpty || some n = scheme.port? then .ok none
  else .ok (some (UInt16.ofNat n))

/-- The URL of a scheme and the text behind its colon and slashes. -/
def parse (scheme : Scheme) (text : String) : Except Fault Url :=
  let cs := (text.toList.filter fun c => !isBreak c).dropWhile isSlash
  let authority := cs.takeWhile fun c => !isAuthorityEnd c
  let rest := cs.dropWhile fun c => !isAuthorityEnd c
  let (user, place) := splitUser authority
  let (hostText, portText) := splitHost false place
  if hostText.isEmpty then .error .emptyHost
  else match Host.parse hostText, portOf scheme portText with
    | .error e, _ => .error e
    | .ok _, .error e => .error e
    | .ok host, .ok port =>
      let path := rest.takeWhile fun c => c != '?' && c != '#'
      let rest := rest.dropWhile fun c => c != '?' && c != '#'
      let query := (rest.takeWhile (· != '#')).drop 1
      let fragment := (rest.dropWhile (· != '#')).drop 1
      .ok {
        scheme, host, port, user := user.bind userOf, segments := segmentsOf path,
        query :=
          if rest.head? = some '?' then some (String.ofList (encode isSpecialInQuery query))
          else none,
        fragment :=
          if rest.contains '#' then some (String.ofList (encode isSpecialInFragment fragment))
          else none }

/-- The URL of a text, which starts with a scheme of web pages. -/
def read (text : String) : Except Fault Url :=
  let cs := text.toList
  match Scheme.ofText? (String.ofList (cs.takeWhile (· != ':'))) with
  | none => .error .scheme
  | some scheme => parse scheme (String.ofList ((cs.dropWhile (· != ':')).drop 1))

/-! ## Libraries -/

/-- What requests need of a library for URLs: to read a text, and to put in another path. -/
structure Library where
  parse : String → Except Fault Url
  withPath : Url → String → Url

/-- URLs of web pages whose hosts are in ASCII. -/
def Library.ascii : Library where
  parse := read
  withPath := Url.withPath

end Url

end NetProbe
