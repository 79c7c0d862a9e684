import HostingAdmin.Failure

/-!
The two ways to log in: with an API key, or with a password.
-/

set_option autoImplicit false

namespace HostingAdmin

inductive Login where
  | apiKey (name key : String)
  | password (name word : String)
deriving DecidableEq

namespace Login

def isApiKey (key : String) : Bool := key != "" && key.toList.contains '-'

def username : Login → String
  | .apiKey name _ => name
  | .password name _ => name

def provider : Login → String
  | .apiKey _ _ => "mongodb-cloud"
  | .password _ _ => "local-userpass"

def payload : Login → Json
  | .apiKey name key => .obj [("username", .str name), ("apiKey", .str key)]
  | .password name word => .obj [("username", .str name), ("password", .str word)]

def fault? : Login → Option CredentialFault
  | .apiKey name key =>
    if !isApiKey key then some .apiKey else if name = "" then some .name else none
  | .password name word =>
    if name = "" then some .name else if word = "" then some .password else none

end Login

end HostingAdmin
