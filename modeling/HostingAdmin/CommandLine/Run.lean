import HostingAdmin.Api.Account
import HostingAdmin.Asset.Listing
import HostingAdmin.CommandLine.Invocation
import HostingAdmin.Hosting.Export
import HostingAdmin.Hosting.Import
import HostingAdmin.Profile.Store
import HostingAdmin.Session
import HostingAdmin.Settings

/-!
Carrying commands out. A command ends with an exit code, or fails; failures that a user can cause or
mend are shown as one message.
-/

set_option autoImplicit false

namespace HostingAdmin.CommandLine

-- Opens a session for the stored profile. New credentials are stored as soon as they
-- are there.
def openSession (s : Settings) : Action Sender := do
  let p ← Profile.load s.configPath
  Action.ofExcept id p.requireLogin
  let link ← Action.ofExcept id (Link.toBase s.baseUrl)
  modify fun w => { w with profile := p }
  return Session.Channel.send ⟨link, Profile.save s.configPath⟩

def resolveApp (send : Sender) (place : AppPlace) : Action String := do
  let look (clientAppId : Option String) : Action String := do
    let app ← App.find send place.group clientAppId
    Action.record .debug "Resolved client app ID"
      [("client_app_id", (clientAppId.map Json.str).getD .null), ("app_id", .str app.id)]
    return app.id
  match place.app with
  | .id id => if id = "" then look none else return id
  | .client id => look (some id)

/-! ### The user -/

-- The login that the arguments of a user mean: an empty API key is a missing password.
def intended : Login → Login
  | .apiKey name key => if key = "" then .password name "" else .apiKey name key
  | l => l

def loggedIn (l : Login) (t : Tokens) (old : Profile) : Profile :=
  let p := { old with
    username := l.username
    accessToken := t.access
    refreshToken := t.refresh.getD "" }
  match l with
  | .apiKey name key => { p with publicKey := name, privateKey := key }
  | .password _ _ => p

def logIn (s : Settings) (l : Login) : Action Unit := do
  if let some fault := l.fault? then throw (.credentials fault)
  let link ← Action.ofExcept id (Link.toBase s.baseUrl)
  let tokens ← (Account.logIn l).call link.send
  let old ← Profile.load s.configPath
  Profile.save s.configPath (loggedIn l tokens old)
  Action.inform ("Successfully logged in as " ++ l.username)

def identity (p : Profile) : String :=
  if !p.isLoggedIn then "No user is currently logged in"
  else
    let who := "The user, " ++ p.username ++ ", is currently logged in"
    if p.privateKey = "" then who else who ++ " using API key " ++ p.redactedKey

/-! ### Secrets -/

def intendedSecret : Secret.Selector → Secret.Selector
  | .id text => if text = "" then .nothing else .id text
  | sel => sel

def showSecrets (send : Sender) (place : AppPlace) : Action Unit := do
  let app ← resolveApp send place
  let secrets ← (Secret.list place.group app).call send
  if secrets.isEmpty then Action.inform "No available secrets to show"
  else secrets.forM fun s => Action.inform (s.id ++ "\t" ++ s.name)

/-! ### Assets -/

def findDiff (s : Settings) (send : Sender) (group app : String) (folder : Path)
    (strategy : Strategy) : Action Diff := do
  let known ← Cache.load s.cachePath
  let (listing, known) ← Listing.ofApp app folder known
  let here ← Action.ofExcept id listing
  if known.dirty then let _ ← known.save s.cachePath
  let there ← (Hosting.list group app).call send
  return Diff.between here there (strategy = .merge)

def identical : String := "Deployed app is identical to proposed version"

def showDiff (d : Diff) : Action Unit := d.lines.forM Action.inform

def showChanges (s : Settings) (place : AppPlace) (folder : String) (strategy : Strategy) :
    Action Unit := do
  let send ← openSession s
  let app ← resolveApp send place
  let d ← findDiff s send place.group app (Path.ofString folder) strategy
  if d.isEmpty then Action.inform identical else showDiff d

def workerCount (s : Settings) (wish : Option Int) : Int :=
  match wish with
  | some n => if n = 0 then s.workers else n
  | none => s.workers

def isConfirmed (d : Diff) (yes : Bool) : Action Bool := do
  if d.isEmpty || yes then return true
  else Action.confirm "Please confirm the changes shown above"

def pushAssets (s : Settings) (place : AppPlace) (folder : String) (strategy : Strategy)
    (resetCache : Bool) (wish : Option Int) (yes : Bool) : Action Nat := do
  let send ← openSession s
  let app ← resolveApp send place
  let path := Path.ofString folder
  let d ← findDiff s send place.group app path strategy
  if d.isEmpty && !resetCache then
    Action.inform identical
    return 0
  showDiff d
  if !(← isConfirmed d yes) then
    Action.inform "Import cancelled"
    return 0
  let site : Hosting.Site := ⟨place.group, app, Manifest.filesFolder path⟩
  match ← Action.outcome (Hosting.importAssets site d resetCache send (workerCount s wish)) with
  | .ok () =>
    Action.inform "Successfully imported hosting assets"
    return 0
  | .error (.importing count _) =>
    Action.complain (toString count ++ " error(s) occurred while importing hosting assets")
    return 1
  | .error f => throw f

def pullAssets (s : Settings) (place : AppPlace) (folder : String) (wish : Option Int) :
    Action Unit := do
  let send ← openSession s
  let app ← resolveApp send place
  let style : Hosting.ExportStyle := ⟨workerCount s wish, true, true⟩
  let assets ← Hosting.exportAssets send place.group app (Path.ofString folder) style
  Action.inform ("Successfully exported " ++ toString assets.length ++ " hosting asset(s) to " ++
    folder)

/-! ### All commands -/

def well (a : Action Unit) : Action Nat := do
  a
  return 0

def Command.run (s : Settings) : Command → Action Nat
  | .login l => well (logIn s (intended l))
  | .logout => well do
    Profile.clear s.configPath
    Action.inform "Successfully logged out"
  | .whoami => well do
    Action.inform (identity (← Profile.load s.configPath))
  | .listSecrets place => well do showSecrets (← openSession s) place
  | .addSecret place name value => well do
    let send ← openSession s
    (Secret.add place.group (← resolveApp send place) name value).call send
    Action.inform ("Successfully created secret: " ++ name)
  | .updateSecret place sel value => well do
    let send ← openSession s
    let sel := intendedSecret sel
    Secret.update send place.group (← resolveApp send place) sel value
    Action.inform ("Successfully updated secret: " ++ sel.text)
  | .removeSecret place sel => well do
    let send ← openSession s
    let sel := intendedSecret sel
    Secret.remove send place.group (← resolveApp send place) sel
    Action.inform ("Successfully removed secret: " ++ sel.text)
  | .listAssets place => well do
    let send ← openSession s
    let assets ← (Hosting.list place.group (← resolveApp send place)).call send
    assets.forM fun a => Action.inform a.path
  | .diffAssets place folder strategy => well (showChanges s place folder strategy)
  | .importAssets place folder strategy resetCache wish yes =>
    pushAssets s place folder strategy resetCache wish yes
  | .exportAssets place folder wish => well (pullAssets s place folder wish)

def failed : Nat := 1

def misused : Nat := 2

def interrupted : Nat := 130

def Invocation.run (e : Environment) (i : Invocation) : Action Nat := do
  match ← Action.outcome (Settings.load e i.overrides) with
  | .error (.invalid fault) =>
    Action.complain ("invalid configuration: " ++ fault.message)
    return failed
  | .error f => throw f
  | .ok s =>
    Action.configureLog s.logLevel s.jsonLogs
    Action.setCorrelation ""
    let _ ← Action.correlation
    let command : String × Json := ("command", .str i.command.word)
    Action.record .debug "Running command" [command]
    match ← Action.outcome (i.command.run s) with
    | .ok code => return code
    | .error .interrupted =>
      Action.complain "interrupted"
      return interrupted
    | .error f =>
      if f.isExpected then
        Action.record .debug "Command failed" [command, ("error", .str f.message)]
        Action.complain f.message
        return failed
      else throw f

def Stop.run : Stop → Action Nat
  | .help program => do
    Action.inform ("usage: " ++ program ++ " [-h] ...")
    return 0
  | .version => do
    Action.inform (Program.name ++ " " ++ Program.version)
    return 0
  | .problem program p => do
    Action.complain (program ++ ": error: " ++ p.message)
    return misused

def run (e : Environment) (args : List String) : Action Nat :=
  match Invocation.parse args with
  | .ok i => i.run e
  | .error stop => stop.run

end HostingAdmin.CommandLine
