import HostingAdmin.Base64
import HostingAdmin.Json.Reader

/-!
Bearer tokens. A token that is a JSON Web Token may carry its expiry in the claim `exp` of its
second segment; the signature is not checked. Any other token is opaque and never known to be
expired.
-/

set_option autoImplicit false

namespace HostingAdmin.Token

def segments (token : String) : List (List Char) := token.toList.splitOn '.'

def claims? (token : String) : Option Json :=
  match segments token with
  | _ :: payload :: _ => (Base64.decode? (Base64.pad payload)).bind fun bytes =>
    (Json.ofBytes bytes).toOption
  | _ => none

def expiryClaim? (token : String) : Option Json :=
  match (claims? token).bind (·.get? "exp") with
  | some (.int n) => some (.int n)
  | some (.bool b) => some (.bool b)
  | _ => none

def expiry? (token : String) : Option Int :=
  match expiryClaim? token with
  | some (.int n) => some n
  | some (.bool b) => some (if b then 1 else 0)
  | _ => none

def isExpired (token : String) (now : Rat) : Bool :=
  match expiry? token with
  | some e => (e : Rat) < now
  | none => false

end HostingAdmin.Token
