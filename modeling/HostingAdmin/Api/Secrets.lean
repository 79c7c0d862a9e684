import HostingAdmin.Api.Apps

/-!
The secrets of an app. Their values are sent and never read.
-/

set_option autoImplicit false

namespace HostingAdmin

structure Secret where
  id : String
  name : String
  value : Option String
deriving DecidableEq

namespace Secret

def title : String := "Secret"

def check (source : Source) : Json → Checked Secret :=
  Check.record source title fun ms =>
    let f := Checked.and (.ok Secret.mk) (Check.optional ms ["_id", "id"] Check.string "")
    let f := Checked.and f (Check.required ms ["name"] Check.string)
    Checked.and f (Check.optional ms ["value"] Check.optionalString none)

def valueJson (s : Secret) : Json :=
  match s.value with
  | some v => .str v
  | none => .null

def toJson (s : Secret) : Json :=
  .obj [("_id", .str s.id), ("name", .str s.name), ("value", s.valueJson)]

def route (group app : String) : String := App.route group app ++ "/secrets"

def list (group app : String) : Endpoint (List Secret) where
  request := .plain "GET" (route group app)
  read := Endpoint.readListing title "failed to list secrets" check

def add (group app name value : String) : Endpoint Unit :=
  let body := Json.obj [("name", .str name), ("value", .str value)]
  .done (Endpoint.withJson "POST" (route group app) body.compact) Status.created
    "failed to add secret"

def put (group app : String) (s : Secret) : Endpoint Unit :=
  .done (Endpoint.withJson "PUT" (route group app ++ "/" ++ s.id) s.toJson.compact)
    Status.noContent "failed to update secret"

def deleteById (group app id : String) : Endpoint Unit :=
  .done (.plain "DELETE" (route group app ++ "/" ++ id)) Status.noContent "failed to remove secret"

inductive Selector where
  | id (text : String)
  | name (text : String)
  | nothing
deriving DecidableEq

namespace Selector

def text : Selector → String
  | .id text => text
  | .name text => text
  | .nothing => "None"

def selects (sel : Selector) (s : Secret) : Bool :=
  match sel with
  | .id text => s.id = text
  | .name text => s.name = text
  | .nothing => false

end Selector

def find (send : Sender) (group app : String) (sel : Selector) : Action Secret := do
  let secrets ← (list group app).call send
  match secrets.find? fun s => sel.selects s with
  | some s => return s
  | none => throw (.rejected ⟨404, "secret not found: " ++ sel.text, none⟩)

def update (send : Sender) (group app : String) (sel : Selector) (value : String) :
    Action Unit := do
  let s ← find send group app sel
  (put group app { s with value := some value }).call send

def remove (send : Sender) (group app : String) (sel : Selector) : Action Unit := do
  match sel with
  | .id text => (deleteById group app text).call send
  | _ =>
    let s ← find send group app sel
    (deleteById group app s.id).call send

end Secret

end HostingAdmin
