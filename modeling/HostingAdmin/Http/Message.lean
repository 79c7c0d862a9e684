import HostingAdmin.Json.Basic
import HostingAdmin.Text.Utf

/-!
HTTP messages: requests as they are asked for, and responses with their status and text.
-/

set_option autoImplicit false

namespace HostingAdmin

-- A request as it is asked for: its path is relative to wherever it is sent, and what
-- is absent is left to the sender.
structure Request where
  method : String
  path : String
  params : Option (Members String)
  headers : Option (Members String)
  body : Option Bytes
deriving DecidableEq

structure Response where
  status : Nat
  headers : List (String × String)
  body : Bytes
deriving DecidableEq

namespace Request

def plain (method path : String) : Request := ⟨method, path, none, none, none⟩

def authorized (r : Request) (token : String) : Request :=
  { r with headers := some (Members.put "Authorization" ("Bearer " ++ token) (r.headers.getD [])) }

end Request

namespace Status

def phrases : List (Nat × String) := [
  (100, "Continue"), (101, "Switching Protocols"), (102, "Processing"), (103, "Early Hints"),
  (200, "OK"), (201, "Created"), (202, "Accepted"), (203, "Non-Authoritative Information"),
  (204, "No Content"), (205, "Reset Content"), (206, "Partial Content"), (207, "Multi-Status"),
  (208, "Already Reported"), (226, "IM Used"), (300, "Multiple Choices"),
  (301, "Moved Permanently"), (302, "Found"), (303, "See Other"), (304, "Not Modified"),
  (305, "Use Proxy"), (307, "Temporary Redirect"), (308, "Permanent Redirect"),
  (400, "Bad Request"), (401, "Unauthorized"), (402, "Payment Required"), (403, "Forbidden"),
  (404, "Not Found"), (405, "Method Not Allowed"), (406, "Not Acceptable"),
  (407, "Proxy Authentication Required"), (408, "Request Timeout"), (409, "Conflict"),
  (410, "Gone"), (411, "Length Required"), (412, "Precondition Failed"),
  (413, "Request Entity Too Large"), (414, "Request-URI Too Long"),
  (415, "Unsupported Media Type"), (416, "Requested Range Not Satisfiable"),
  (417, "Expectation Failed"), (418, "I'm a teapot"), (421, "Misdirected Request"),
  (422, "Unprocessable Entity"), (423, "Locked"), (424, "Failed Dependency"), (425, "Too Early"),
  (426, "Upgrade Required"), (428, "Precondition Required"), (429, "Too Many Requests"),
  (431, "Request Header Fields Too Large"), (451, "Unavailable For Legal Reasons"),
  (500, "Internal Server Error"), (501, "Not Implemented"), (502, "Bad Gateway"),
  (503, "Service Unavailable"), (504, "Gateway Timeout"), (505, "HTTP Version Not Supported"),
  (506, "Variant Also Negotiates"), (507, "Insufficient Storage"), (508, "Loop Detected"),
  (510, "Not Extended"), (511, "Network Authentication Required")]

def text (code : Nat) : String :=
  match phrases.lookup code with
  | some phrase => toString code ++ " " ++ phrase
  | none => toString code

def ok : Nat := 200
def created : Nat := 201
def noContent : Nat := 204
def unauthorized : Nat := 401

def redirects : List Nat := [301, 302, 303, 307, 308]

end Status

inductive Charset where
  | utf8
  | latin1
  | ascii
deriving DecidableEq

namespace Charset

def names : List (String × Charset) :=
  let all (c : Charset) (names : List String) : List (String × Charset) := names.map fun n => (n, c)
  all .utf8 ["utf_8", "utf8", "u8", "utf", "utf8_ucs2", "utf8_ucs4", "cp65001"] ++
  all .latin1 ["latin_1", "latin1", "latin", "l1", "iso_8859_1", "iso8859_1", "iso8859", "8859",
    "cp819", "ibm819", "csisolatin1", "iso_8859_1_1987", "iso_ir_100"] ++
  all .ascii ["ascii", "us_ascii", "us", "646", "cp367", "ibm367", "csascii", "iso646_us",
    "iso_ir_6", "iso_646.irv_1991", "ansi_x3.4_1968", "ansi_x3_4_1968", "ansi_x3.4_1986"]

def plainName (name : String) : String :=
  let letter (c : Char) : Char := if c.isAlphanum || c = '.' then c.toLower else '_'
  let words := (name.toList.map letter).splitOn '_'
  String.intercalate "_" ((words.filter fun w => !w.isEmpty).map String.ofList)

def ofName? (name : String) : Option Charset := names.lookup (plainName name)

def decode : Charset → Bytes → String
  | .utf8, bytes => Text.ofUtf8Lossy bytes
  | .latin1, bytes => Text.ofLatin1 bytes
  | .ascii, bytes => Text.ofAsciiLossy bytes

-- Cuts a header value at its semicolons; those between quotes do not count.
def parameters (quoted : Bool) (part : List Char) : List Char → List (List Char)
  | [] => [part.reverse]
  | c :: rest =>
    if c = ';' ∧ quoted = false then part.reverse :: parameters false [] rest
    else if c = '"' ∧ part.head? ≠ some '\\' then parameters (!quoted) (c :: part) rest
    else parameters quoted (c :: part) rest

def unquote (cs : List Char) : List Char :=
  match cs with
  | '"' :: rest =>
    if rest.getLast? = some '"' then
      let rec plain : List Char → List Char
        | '\\' :: c :: more =>
          if c = '\\' ∨ c = '"' then c :: plain more else '\\' :: plain (c :: more)
        | c :: more => c :: plain more
        | [] => []
      plain rest.dropLast
    else cs
  | _ => cs

def ofContentType? (value : String) : Option Charset :=
  let named := (parameters false [] value.toList).findSome? fun p =>
    match Text.cut '=' p with
    | (name, some v) =>
      if String.ofList ((Text.trim Text.isBlank name).map Char.toLower) = "charset" then
        some (String.ofList (unquote (Text.trim Text.isBlank v)))
      else none
    | (_, none) => none
  named.bind ofName?

end Charset

namespace Response

def header? (r : Response) (name : String) : Option String :=
  (r.headers.find? fun h => Text.lowerAscii h.1 = Text.lowerAscii name).map Prod.snd

def charset (r : Response) : Charset :=
  ((r.header? "Content-Type").bind Charset.ofContentType?).getD .utf8

def text (r : Response) : String := r.charset.decode r.body

def statusText (r : Response) : String := Status.text r.status

end Response

end HostingAdmin
