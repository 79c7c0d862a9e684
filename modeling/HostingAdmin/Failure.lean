import HostingAdmin.FileTree
import HostingAdmin.Http.Url
import HostingAdmin.Validation

/-!
Everything that can go wrong, by its cause, with the message that is shown for it.
-/

set_option autoImplicit false

namespace HostingAdmin

structure Rejection where
  code : Int
  text : String
  details : Option String
deriving DecidableEq

def Rejection.message (r : Rejection) : String :=
  let base := "Realm API error (" ++ toString r.code ++ "): " ++ r.text
  match r.details with
  | some d => if d = "" then base else base ++ " - " ++ d
  | none => base

inductive TransportProblem where
  | connect
  | connectTimeout
  | readTimeout
  | writeTimeout
  | poolTimeout
  | read
  | remoteProtocol
  | proxy
  | unsupportedProtocol
  | tooManyRedirects
deriving DecidableEq

def TransportProblem.isTimeout : TransportProblem → Bool
  | .connectTimeout | .readTimeout | .writeTimeout | .poolTimeout => true
  | _ => false

structure TransportFault where
  problem : TransportProblem
  message : String
deriving DecidableEq

inductive CredentialFault where
  | apiKey
  | name
  | password
deriving DecidableEq

def CredentialFault.message : CredentialFault → String
  | .apiKey => "invalid API key"
  | .name => "invalid username or public API key"
  | .password => "invalid password"

inductive LocalFault where
  | noFolder (path : String)
  | noFile (assetPath : String)
deriving DecidableEq

def LocalFault.message : LocalFault → String
  | .noFolder path => "hosting files directory '" ++ path ++ "' does not exist"
  | .noFile path => "file '" ++ path ++
      "' has an entry in metadata file, but does not appear in files directory"

inductive Failure where
  | rejected (r : Rejection)
  | unauthorized (r : Rejection)
  | noSuchApp (clientAppId : String)
  | credentials (fault : CredentialFault)
  | notLoggedIn
  | hosting (fault : LocalFault)
  | invalid (fault : Invalid)
  | json (fault : Json.Fault)
  | undecodable
  | notAscii (text : String)
  | url (fault : UrlFault)
  | transport (fault : TransportFault)
  | file (fault : FileFault)
  | operation (path text : String)
  | importing (count : Nat) (first : String)
  | exporting (count : Nat) (first : String)
  | notOpen
  | noHome
  | linkLoop (path : String)
  | workerCount
  | nullCharacter
  | interrupted
  | stalled
deriving DecidableEq

def notAsciiMessage (text : String) : String :=
  let cs := text.toList
  let isAscii (c : Char) : Bool := c.toNat < 128
  let start := (cs.takeWhile isAscii).length
  let run := (cs.drop start).takeWhile fun c => !isAscii c
  let escape (c : Char) : List Char :=
    if c.toNat < 0x100 then '\\' :: 'x' :: Text.hex 2 c.toNat
    else if c.toNat < 0x10000 then '\\' :: 'u' :: Text.hex 4 c.toNat
    else '\\' :: 'U' :: Text.hex 8 c.toNat
  let what :=
    match run with
    | [c] => "character '" ++ String.ofList (escape c) ++ "' in position " ++ toString start
    | _ => "characters in position " ++ toString start ++ "-" ++
        toString (start + run.length - 1)
  "'ascii' codec can't encode " ++ what ++ ": ordinal not in range(128)"

def jsonMessage : Json.Fault → String
  | .malformed => "invalid JSON"
  | .undecodable => "invalid octets"
  | .digits count =>
    "Exceeds the limit (4300 digits) for integer string conversion: value has " ++
      toString count ++ " digits; use sys.set_int_max_str_digits() to increase the limit"

def batchMessage (count : Nat) (activity first : String) : String :=
  toString count ++ " error(s) occurred while " ++ activity ++ " hosting assets: " ++ first

def Failure.message : Failure → String
  | .rejected r => r.message
  | .unauthorized r => r.message
  | .noSuchApp id => Rejection.message ⟨404, "app '" ++ id ++ "' not found", none⟩
  | .credentials fault => fault.message
  | .notLoggedIn => "you are not logged in"
  | .hosting fault => fault.message
  | .invalid fault => fault.message
  | .json fault => jsonMessage fault
  | .undecodable => "invalid octets"
  | .notAscii text => notAsciiMessage text
  | .url fault => fault.message
  | .transport fault => fault.message
  | .file fault => fault.message
  | .operation _ text => text
  | .importing count first => batchMessage count "importing" first
  | .exporting count first => batchMessage count "exporting" first
  | .notOpen => "Client not initialized. Use 'async with' context manager."
  | .noHome => "Could not determine home directory."
  | .linkLoop path => "Symlink loop from " ++ Text.literal path
  | .workerCount => "num_workers must be at least 1"
  | .nullCharacter => "embedded null byte"
  | .interrupted => ""
  | .stalled => ""

def Failure.isExpected : Failure → Bool
  | .rejected _ | .unauthorized _ | .noSuchApp _ | .credentials _ | .notLoggedIn | .hosting _
  | .invalid _ | .transport _ | .file _ | .importing _ _ | .exporting _ _ => true
  | _ => false

end HostingAdmin
