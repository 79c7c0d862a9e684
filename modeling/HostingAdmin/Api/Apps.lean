import HostingAdmin.Api.Endpoint

/-!
The apps of a group.
-/

set_option autoImplicit false

namespace HostingAdmin

structure App where
  id : String
  clientAppId : String
  name : String
  groupId : String
deriving DecidableEq

namespace App

def title : String := "App"

def check (source : Source) : Json → Checked App :=
  Check.record source title fun ms =>
    let f := Checked.and (.ok App.mk) (Check.required ms ["_id", "id"] Check.string)
    let f := Checked.and f (Check.optional ms ["client_app_id"] Check.string "")
    let f := Checked.and f (Check.optional ms ["name"] Check.string "")
    Checked.and f (Check.optional ms ["group_id"] Check.string "")

def route (group app : String) : String := "/groups/" ++ group ++ "/apps/" ++ app

def list (group : String) : Endpoint (List App) where
  request := .plain "GET" ("/groups/" ++ group ++ "/apps")
  read r := do
    Rejection.check r Status.ok "failed to fetch apps"
    let body := if r.body.isEmpty then Text.utf8 "[]" else r.body
    (Json.parsed (listTitle title) (fun source => Check.list source (check source)) body).mapError
      .invalid

def find (send : Sender) (group : String) (clientAppId : Option String) : Action App := do
  let apps ← (list group).call send
  match apps.find? fun a => some a.clientAppId = clientAppId with
  | some a => return a
  | none => throw (.noSuchApp (clientAppId.getD "None"))

end App

end HostingAdmin
