import HostingAdmin.EnvFile
import HostingAdmin.World

/-!
The settings of an invocation. Each comes from the command line, else from the environment, else
from a file that the environment names, else it has its default.
-/

set_option autoImplicit false

namespace HostingAdmin

structure Environment where
  vars : Members String
  accounts : Members String

structure Settings where
  baseUrl : String
  configPath : Path
  workers : Int
  timeout : Float
  logLevel : String
  jsonLogs : Bool

namespace Environment

def home? (e : Environment) (account : String) : Option String :=
  if account = "" then e.vars.lookup "HOME" else e.accounts.lookup account

def expandHome (e : Environment) (p : Path) : Except Failure Path :=
  match p.isAbsolute, p.parts with
  | false, first :: rest =>
    match first.toList with
    | '~' :: account =>
      match e.home? (String.ofList account) with
      | some home =>
        let home := Text.trimRight (· == '/') home.toList
        if home.head? = some '~' then .error .noHome
        else
          let h := Path.ofString (if home.isEmpty then "/" else String.ofList home)
          .ok { h with parts := h.parts ++ rest }
      | none => .error .noHome
    | _ => .ok p
  | _, _ => .ok p

end Environment

namespace Settings

def title : String := "CLISettings"

def variableStart : String := "realm_cli_"

def fileVariable : String := "REALM_CLI_ENV_FILE"

def defaultBaseUrl : String := "https://realm.mongodb.com/api/admin/v3.0"

def defaultConfigPath : Path := ⟨0, ["~", ".config", "realm-cli", "profile.json"]⟩

def defaultWorkers : Int := 8

def hasScheme (s : String) : Bool := Text.hasStart s "http://" || Text.hasStart s "https://"

def normalUrl (s : String) : String :=
  let s := if hasScheme s then s else "https://" ++ s
  String.ofList (Text.trimRight (· == '/') s.toList)

def checkPath : Json → Checked Path
  | .str s => .ok (Path.ofString s)
  | _ => .fail .notPath

def checkWorkers (j : Json) : Checked Int :=
  (Check.integer j).bind fun n => if 1 ≤ n then .ok n else Checked.fail .belowOne

def checkTimeout (j : Json) : Checked Float :=
  (Check.number j).bind fun x => if 0.0 < x then .ok x else Checked.fail .notPositive

def levels : List String := ["DEBUG", "INFO", "WARNING", "ERROR", "CRITICAL"]

def checkLevel (j : Json) : Checked String :=
  (Check.string j).bind fun s => if levels.contains s then .ok s else Checked.fail .notLogLevel

def check (given : Members Json) : Checked Settings :=
  let f := Checked.and (.ok Settings.mk)
    ((Check.optional given ["base_url"] Check.string defaultBaseUrl).map normalUrl)
  let f := Checked.and f (Check.optional given ["config_path"] checkPath defaultConfigPath)
  let f := Checked.and f (Check.optional given ["num_workers"] checkWorkers defaultWorkers)
  let f := Checked.and f (Check.optional given ["timeout"] checkTimeout 30.0)
  let f := Checked.and f (Check.optional given ["log_level"] checkLevel "WARNING")
  Checked.and f (Check.optional given ["json_logs"] Check.boolean false)

def ofValues (e : Environment) (given : Members Json) : Except Failure Settings := do
  let path := (Check.optional given ["config_path"] checkPath defaultConfigPath).toOption
  let expanded ← (path.getD .here |> e.expandHome)
  let s ← ((check given).titled title).mapError .invalid
  return { s with configPath := expanded }

def named {α : Type} (vars : Members α) : Members α :=
  Members.ofPairs <| vars.filterMap fun (name, value) =>
    let name := Text.lowerAll name
    if Text.hasStart name variableStart then
      some (String.ofList (name.toList.drop variableStart.length), value)
    else none

def fileValues (e : Environment) : Action (Members Json) := do
  match e.vars.lookup fileVariable with
  | none => return []
  | some name =>
    let path ← Action.ofExcept id (e.expandHome (Path.ofString name))
    if (← Action.fileExists path) && !(← Action.folderExists path) then
      match Text.ofUtf8? (← Action.load path) with
      | none => throw .undecodable
      | some text =>
        return (named (EnvFile.values e.vars text)).filterMap fun (name, value) =>
          value.map fun v => (name, .str v)
    else return []

def load (e : Environment) (overrides : Members Json) : Action Settings := do
  let file ← fileValues e
  let given := (overrides.filter fun o => !(o.2 matches .null)) ++
    (named e.vars).map (fun v => (v.1, .str v.2)) ++ file
  Action.ofExcept id (ofValues e given)

def cachePath (s : Settings) : Path := s.configPath.parent.append ".asset-cache.json"

end Settings

end HostingAdmin
