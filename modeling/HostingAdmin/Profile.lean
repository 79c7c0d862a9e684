import HostingAdmin.Credential.Token
import HostingAdmin.Json.Writer
import HostingAdmin.Validation

/-!
The credentials of the user: name, API keys and the two tokens of the session.
-/

set_option autoImplicit false

namespace HostingAdmin

structure Profile where
  username : String
  publicKey : String
  privateKey : String
  accessToken : String
  refreshToken : String
deriving DecidableEq

structure Tokens where
  access : String
  refresh : Option String
deriving DecidableEq

namespace Tokens

def title : String := "AuthResponse"

def check (source : Source) : Json → Checked Tokens :=
  Check.record source title fun ms =>
    Checked.and (Checked.and (.ok Tokens.mk)
      (Check.required ms ["access_token"] Check.string))
      (Check.optional ms ["refresh_token"] Check.optionalString none)

def parse (body : Bytes) : Except Invalid Tokens := Json.parsed title check body

end Tokens

namespace Profile

def empty : Profile := ⟨"", "", "", "", ""⟩

def title : String := "Profile"

def check (source : Source) : Json → Checked Profile :=
  Check.record source title fun ms =>
    let f := Checked.and (.ok Profile.mk) (Check.optional ms ["username"] Check.string "")
    let f := Checked.and f (Check.optional ms ["public_api_key"] Check.string "")
    let f := Checked.and f (Check.optional ms ["private_api_key"] Check.string "")
    let f := Checked.and f (Check.optional ms ["access_token"] Check.string "")
    Checked.and f (Check.optional ms ["refresh_token"] Check.string "")

def parse (body : Bytes) : Except Invalid Profile := Json.parsed title check body

def toJson (p : Profile) : Json :=
  .obj [("username", .str p.username), ("public_api_key", .str p.publicKey),
    ("private_api_key", .str p.privateKey), ("access_token", .str p.accessToken),
    ("refresh_token", .str p.refreshToken)]

def fileText (p : Profile) : Bytes := Text.utf8 p.toJson.indented

def isLoggedIn (p : Profile) : Bool := p.accessToken != ""

def isExpired (p : Profile) (now : Rat) : Bool := Token.isExpired p.accessToken now

def redactedKey (p : Profile) : String :=
  let parts := p.privateKey.toList.splitOn '-'
  let stars := parts.dropLast.map fun part => List.replicate part.length '*'
  String.ofList (List.intercalate ['-'] (stars ++ parts.getLast?.toList))

-- The profile with new tokens; an empty or absent refresh token leaves the old one.
def renewed (p : Profile) (t : Tokens) : Profile :=
  match t.refresh with
  | some r =>
    if r = "" then { p with accessToken := t.access }
    else { p with accessToken := t.access, refreshToken := r }
  | none => { p with accessToken := t.access }

end Profile

end HostingAdmin
