import HostingAdmin.Text.Integer
import HostingAdmin.Text.Literal
import HostingAdmin.Text.Utf

/-!
URLs: reading and normalising them, joining them with a base, and queries. Every part is kept in
its encoded form. Encoding is per character, so `%` and what follows it stay as they are.
-/

set_option autoImplicit false

namespace HostingAdmin

inductive UrlFault where
  | tooLong
  | control (c : Char) (position : Nat)
  | port (text : String)
  | address (text : String)
  | path (reason : String)
deriving DecidableEq

def UrlFault.message : UrlFault → String
  | .tooLong => "URL too long"
  | .control c position =>
    "Invalid non-printable ASCII character in URL, " ++ Text.literal (String.singleton c) ++
      " at position " ++ toString position ++ "."
  | .port text => "Invalid port: " ++ Text.literal text
  | .address text => "Invalid IPv4 address: " ++ Text.literal text
  | .path reason => reason

structure Url where
  scheme : String
  userInfo : String
  host : String
  port : Option Int
  path : String
  query : Option String
  fragment : Option String
deriving DecidableEq

namespace Url

def percent (c : Char) : List Char :=
  (String.utf8EncodeChar c).flatMap fun b =>
    '%' :: (Text.hex 2 b.toNat).map Char.toUpper

def encode (safe : Char → Bool) (cs : List Char) : List Char :=
  cs.flatMap fun c => if safe c then [c] else percent c

def printableBut (others : String) (c : Char) : Bool :=
  0x20 ≤ c.toNat && c.toNat < 0x7F && !others.toList.contains c

def pathSafe : Char → Bool := printableBut " \"#<>?`\x7b\x7d"

def querySafe : Char → Bool := printableBut " \"#<>"

def fragmentSafe : Char → Bool := printableBut " \"<>`"

def userInfoSafe : Char → Bool := printableBut " \"#<>?`\x7b\x7d/;=@[\\]^|"

def hostSafe (c : Char) : Bool :=
  c.isAlphanum || ("-._~!$&'()*+,;=\"`\x7b\x7d%|\\").toList.contains c

def encodeString (safe : Char → Bool) (s : String) : String :=
  String.ofList (encode safe s.toList)

def isDots (component : List Char) : Bool := component = ['.'] || component = ['.', '.']

-- Takes one component into a path read so far (newest first); two dots remove a
-- component, but never the empty one at the root.
def climbStep (done : List (List Char)) (component : List Char) : List (List Char) :=
  if component = ['.'] then done
  else if component = ['.', '.'] then
    if done = [] ∨ done = [[]] then done else done.drop 1
  else component :: done

def joinSlash (components : List (List Char)) : List Char := List.intercalate ['/'] components

def normalPath (cs : List Char) : List Char :=
  let components := cs.splitOn '/'
  if components.any isDots then joinSlash (components.foldl climbStep []).reverse else cs

def splitScheme (cs : List Char) : List Char × List Char :=
  let isMark (c : Char) : Bool := c.isAlphanum || c = '+' || c = '.' || c = '-'
  let word := cs.takeWhile isMark
  match cs.drop word.length with
  | ':' :: rest => if word.isEmpty || (word.headD ' ').isAlpha then (word, rest) else ([], cs)
  | _ => ([], cs)

def splitAuthority : List Char → List Char × List Char
  | '/' :: '/' :: rest =>
    let isEnd (c : Char) : Bool := c = '/' || c = '?' || c = '#'
    (rest.takeWhile fun c => !isEnd c, rest.dropWhile fun c => !isEnd c)
  | cs => ([], cs)

def splitUser (cs : List Char) : List Char × List Char :=
  if cs.contains '@' then
    let host := (cs.reverse.takeWhile (· != '@')).reverse
    (cs.take (cs.length - host.length - 1), host)
  else ([], cs)

def splitHost (cs : List Char) : List Char × List Char :=
  let inBrackets := cs.headD ' ' = '[' && cs.contains ']'
  let host :=
    if inBrackets then cs.take (cs.length - (cs.reverse.takeWhile (· != ']')).length)
    else cs.takeWhile (· != ':')
  (host, cs.drop host.length)

def looksNumeric (host : List Char) : Bool :=
  let parts := host.splitOn '.'
  parts.length = 4 && parts.all fun p => !p.isEmpty && p.all Char.isDigit

def isAddress (host : List Char) : Bool :=
  (host.splitOn '.').all fun p =>
    p.length ≤ 3 && (p.length = 1 || p.headD '0' != '0') &&
      Decimal.ofDigits (p.filterMap Text.asciiDigit?) < 256

def encodeHost (host : List Char) : Except UrlFault String :=
  if looksNumeric host then
    if isAddress host then .ok (String.ofList host) else .error (.address (String.ofList host))
  else if host.headD ' ' = '[' && host.getLastD ' ' = ']' then
    .ok (String.ofList (host.drop 1).dropLast)
  else .ok (String.ofList (encode hostSafe (host.map Char.toLower)))

def defaultPort? (scheme : String) : Option Int :=
  [("ftp", (21 : Int)), ("http", 80), ("https", 443), ("ws", 80), ("wss", 443)].lookup scheme

def readPort (scheme : String) (cs : List Char) : Except UrlFault (Option Int) :=
  let cs := match cs with
    | ':' :: rest => rest
    | _ => cs
  if cs.isEmpty then .ok none
  else
    match Text.integer? (String.ofList cs) with
    | none => .error (.port (String.ofList cs))
    | some n => .ok (if some n = defaultPort? scheme then none else some n)

def maxLength : Nat := 65536

def control? (s : String) : Option UrlFault :=
  let isControl (c : Char) : Bool := c.toNat < 0x20 || c.toNat = 0x7F
  (s.toList.zipIdx.find? fun p => isControl p.1).map fun p => .control p.1 p.2

def checkPath (hasScheme hasAuthority : Bool) (path : List Char) : Except UrlFault Unit :=
  let starts (s : String) : Bool := s.toList.isPrefixOf path
  if hasAuthority && !path.isEmpty && !starts "/" then
    .error (.path "For absolute URLs, path must be empty or begin with '/'")
  else if !hasScheme && !hasAuthority && starts "//" then
    .error (.path "Relative URLs cannot have a path starting with '//'")
  else if !hasScheme && !hasAuthority && starts ":" then
    .error (.path "Relative URLs cannot have a path starting with ':'")
  else .ok ()

def build (scheme authority path : List Char) (query fragment : Option (List Char)) :
    Except UrlFault Url := do
  let (user, rest) := splitUser authority
  let (host, rest) := splitHost rest
  let userInfo := String.ofList (encode userInfoSafe user)
  let host ← encodeHost host
  let port ← readPort (String.ofList scheme) rest
  let hasScheme := !scheme.isEmpty
  let hasAuthority := userInfo != "" || host != "" || port.isSome
  checkPath hasScheme hasAuthority path
  let path := if hasScheme || hasAuthority then normalPath path else path
  let path := if hasAuthority && path.isEmpty then ['/'] else path
  return {
    scheme := Text.lowerAscii (String.ofList scheme), userInfo, host, port
    path := String.ofList (encode pathSafe path)
    query := query.map fun q => String.ofList (encode querySafe q)
    fragment := fragment.map fun f => String.ofList (encode fragmentSafe f) }

def splitTail (cs : List Char) : List Char × Option (List Char) × Option (List Char) :=
  let (front, fragment) := Text.cut '#' cs
  let (path, query) := Text.cut '?' front
  (path, query, fragment)

def parse (s : String) : Except UrlFault Url :=
  if maxLength < s.length then .error .tooLong
  else
    match control? s with
    | some fault => .error fault
    | none =>
      let (scheme, rest) := splitScheme s.toList
      let (authority, rest) := splitAuthority rest
      let (path, query, fragment) := splitTail rest
      build scheme authority path query fragment

def authority (u : Url) : String :=
  (if u.userInfo = "" then "" else u.userInfo ++ "@") ++
    (if u.host.toList.contains ':' then "[" ++ u.host ++ "]" else u.host) ++
    (match u.port with
      | some n => ":" ++ toString n
      | none => "")

def target (u : Url) : String :=
  (if u.scheme = "" then "" else u.scheme ++ ":") ++
    (if u.authority = "" then "" else "//" ++ u.authority) ++ u.path

def toString (u : Url) : String :=
  u.target ++ (match u.query with
    | some q => "?" ++ q
    | none => "") ++ (match u.fragment with
    | some f => "#" ++ f
    | none => "")

instance : ToString Url := ⟨toString⟩

def isAbsolute (u : Url) : Bool := u.scheme != "" && u.host != ""

def rawPath (u : Url) : String :=
  (if u.path = "" then "/" else u.path) ++ (match u.query with
    | some q => "?" ++ q
    | none => "")

def withRawPath (u : Url) (raw : String) : Except UrlFault Url :=
  let (path, query) := Text.cut '?' raw.toList
  build u.scheme.toList u.authority.toList path query (u.fragment.map String.toList)

def asBase (u : Url) : Except UrlFault Url :=
  if Text.hasEnd u.rawPath "/" then .ok u else u.withRawPath (u.rawPath ++ "/")

-- The URL of a text below a base, unless the text is an absolute URL itself. A
-- relative path loses the slashes it starts with and its fragment.
def below (base : Url) (s : String) : Except UrlFault Url := do
  let u ← parse s
  if u.isAbsolute then return u
  else base.withRawPath (base.rawPath ++ String.ofList (u.rawPath.toList.dropWhile (· == '/')))

def formEncode (s : String) : String :=
  String.ofList <| s.toList.flatMap fun c =>
    if c = ' ' then ['+']
    else if c.isAlphanum || c = '_' || c = '.' || c = '-' || c = '~' then [c]
    else percent c

def form (params : List (String × String)) : String :=
  String.intercalate "&" (params.map fun p => formEncode p.1 ++ "=" ++ formEncode p.2)

def withParams (u : Url) (params : List (String × String)) : Url :=
  if params.isEmpty then u else { u with query := some (form params) }

-- The path to which a relative path leads from a base path: the last component of the
-- base is left, and empty components in between are dropped.
def mergePaths (base path : List Char) : List Char :=
  let baseParts := base.splitOn '/'
  let baseParts := if baseParts.getLastD [] = [] then baseParts else baseParts.dropLast
  let segments :=
    if path.headD ' ' = '/' then path.splitOn '/'
    else
      let all := baseParts ++ path.splitOn '/'
      all.take 1 ++ ((all.drop 1).dropLast).filter (· != []) ++ (all.drop 1).getLast?.toList
  let done := segments.foldl (fun done s =>
    if s = ['.', '.'] then done.drop 1 else if s = ['.'] then done else s :: done) []
  let done := if isDots (segments.getLastD []) then [] :: done else done
  let joined := joinSlash done.reverse
  if joined.isEmpty then ['/'] else joined

def resolve (base ref : Url) : Except UrlFault Url :=
  if ref.scheme != "" && ref.scheme != base.scheme then parse ref.toString
  else if ref.authority != "" then parse { ref with scheme := base.scheme }.toString
  else if ref.path = "" then
    parse { base with query := ref.query.or base.query, fragment := ref.fragment }.toString
  else
    let path := String.ofList (mergePaths base.path.toList ref.path.toList)
    parse { base with path, query := ref.query, fragment := ref.fragment }.toString

end Url

end HostingAdmin
