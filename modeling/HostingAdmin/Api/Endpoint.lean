import HostingAdmin.Http.Link
import HostingAdmin.Json.Writer
import HostingAdmin.Mask

/-!
Calls of the Admin API. An endpoint is a request together with the way to read its answer.
-/

set_option autoImplicit false

namespace HostingAdmin

namespace Rejection

def errorText? (r : Response) : Option String :=
  match Json.ofBytes r.body with
  | .ok j =>
    match j.get? "error" with
    | some e => if e.holds then some e.inSentence else none
    | none => none
  | .error _ => none

def explanation (r : Response) : String :=
  let text := r.text
  if text = "" then r.statusText
  else (errorText? r).getD (String.ofList (text.toList.take 500))

def ofResponse (r : Response) (text : Option String) : Rejection :=
  let text := match text with
    | some t => if t = "" then r.statusText else t
    | none => r.statusText
  ⟨r.status, text, some (Mask.mask (explanation r))⟩

def check (r : Response) (expected : Nat) (text : String) : Except Failure Unit :=
  if r.status = expected then .ok () else .error (.rejected (ofResponse r (some text)))

end Rejection

structure Endpoint (α : Type) where
  request : Request
  read : Response → Except Failure α

namespace Endpoint

variable {α : Type}

def call (e : Endpoint α) (send : Sender) : Action α := do
  let r ← send e.request
  Action.ofExcept id (e.read r)

def done (request : Request) (expected : Nat) (text : String) : Endpoint Unit :=
  ⟨request, fun r => Rejection.check r expected text⟩

def jsonHeaders : Members String := [("Content-Type", "application/json")]

def withJson (method path text : String) : Request :=
  { Request.plain method path with headers := some jsonHeaders, body := some (Text.utf8 text) }

-- Reads a listing: an empty body, and any JSON value that holds nothing, is an empty
-- one.
def readListing (title text : String) (check : Source → Json → Checked α) (r : Response) :
    Except Failure (List α) := do
  Rejection.check r Status.ok text
  let j ← if r.body.isEmpty then pure .null else (Json.ofBytes r.body).mapError Failure.json
  let j := if j.holds then j else .arr []
  (j.checked (listTitle title) fun source => Check.list source (check source)).mapError .invalid

end Endpoint

end HostingAdmin
