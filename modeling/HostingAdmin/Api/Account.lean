import HostingAdmin.Api.Endpoint
import HostingAdmin.Credential.Login

/-!
The user: logging in, and what the server knows of the one who is logged in.
-/

set_option autoImplicit false

namespace HostingAdmin.Account

def logIn (l : Login) : Endpoint Tokens where
  request := Endpoint.withJson "POST" ("/auth/providers/" ++ l.provider ++ "/login")
    l.payload.spaced
  read r :=
    if r.status = Status.ok then (Tokens.parse r.body).mapError .invalid
    else .error (.unauthorized
      ⟨r.status, r.statusText ++ ": failed to authenticate", (Rejection.ofResponse r none).details⟩)

def profile : Endpoint Json where
  request := .plain "GET" "/auth/profile"
  read r := do
    Rejection.check r Status.ok "failed to fetch user profile"
    match ← (Json.ofBytes r.body).mapError Failure.json with
    | .obj ms => return .obj ms
    | _ => return .obj []

end HostingAdmin.Account
