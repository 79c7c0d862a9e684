import HostingAdmin.Api.Secrets
import HostingAdmin.CommandLine.Grammar
import HostingAdmin.Credential.Login
import HostingAdmin.Program

/-!
What a user can ask the program for, and the grammar of its command line.
-/

set_option autoImplicit false

namespace HostingAdmin.CommandLine

inductive AppRef where
  | id (text : String)
  | client (text : String)
deriving DecidableEq

structure AppPlace where
  group : String
  app : AppRef
deriving DecidableEq

inductive Strategy where
  | merge
  | replace
deriving DecidableEq

inductive Command where
  | login (l : Login)
  | logout
  | whoami
  | listSecrets (place : AppPlace)
  | addSecret (place : AppPlace) (name value : String)
  | updateSecret (place : AppPlace) (sel : Secret.Selector) (value : String)
  | removeSecret (place : AppPlace) (sel : Secret.Selector)
  | listAssets (place : AppPlace)
  | diffAssets (place : AppPlace) (folder : String) (strategy : Strategy)
  | importAssets (place : AppPlace) (folder : String) (strategy : Strategy) (resetCache : Bool)
    (workers : Option Int) (yes : Bool)
  | exportAssets (place : AppPlace) (folder : String) (workers : Option Int)
deriving DecidableEq

structure Invocation where
  baseUrl : Option String
  configPath : Option String
  logLevel : Option String
  jsonLogs : Bool
  command : Command
deriving DecidableEq

namespace Strategy

def name : Strategy → String
  | .merge => "merge"
  | .replace => "replace"

end Strategy

/-! ### The grammar -/

def textSwitch (name key : String) : Switch := ⟨["--" ++ name], key, .text, false⟩

def requiredSwitch (name key : String) : Switch := ⟨["--" ++ name], key, .text, true⟩

def helpSwitch : Switch := ⟨["-h", "--help"], "help", .help, false⟩

def appSwitches : List Switch := [
  requiredSwitch "group-id" "group_id", textSwitch "app-id" "app_id",
  textSwitch "client-app-id" "client_app_id"]

def appGroup : List String := ["app_id", "client_app_id"]

def secretSwitches : List Switch := [textSwitch "id" "secret_id", textSwitch "name" "name"]

def secretGroup : List String := ["secret_id", "name"]

def folderSwitch : Switch := textSwitch "app-dir" "app_dir"

def workersSwitch : Switch := ⟨["--workers"], "workers", .number, false⟩

def strategySwitch : Switch :=
  ⟨["--strategy"], "strategy", .choice [Strategy.merge.name, Strategy.replace.name], false⟩

def leaf (words : List String) (switches : List Switch) (groups : List (List String)) : Grammar :=
  .mk (String.intercalate " " (Program.name :: words)) (helpSwitch :: switches) groups "" []

def secretsGrammar : Grammar :=
  let below (word : String) (switches : List Switch) (groups : List (List String)) :
      String × Grammar :=
    (word, leaf ["secrets", word] (appSwitches ++ switches) (appGroup :: groups))
  .mk (Program.name ++ " secrets") [helpSwitch] [] "secrets_cmd" [
    below "list" [] [],
    below "add" [requiredSwitch "name" "name", requiredSwitch "value" "value"] [],
    below "update" (secretSwitches ++ [requiredSwitch "value" "value"]) [secretGroup],
    below "remove" secretSwitches [secretGroup]]

def hostingGrammar : Grammar :=
  let below (word : String) (switches : List Switch) : String × Grammar :=
    (word, leaf ["hosting", word] (appSwitches ++ switches) [appGroup])
  .mk (Program.name ++ " hosting") [helpSwitch] [] "hosting_cmd" [
    below "list" [],
    below "diff" [folderSwitch, strategySwitch],
    below "import" [folderSwitch, strategySwitch,
      ⟨["--reset-cache"], "reset_cache", .nothing, false⟩, workersSwitch,
      ⟨["-y", "--yes"], "yes", .nothing, false⟩],
    below "export" [folderSwitch, workersSwitch]]

def grammar : Grammar :=
  .mk Program.name
    [helpSwitch, ⟨["--version"], "version", .version, false⟩, textSwitch "base-url" "base_url",
      textSwitch "config-path" "config_path", textSwitch "log-level" "log_level",
      ⟨["--json-logs"], "json_logs", .nothing, false⟩]
    [] "cmd" [
      ("login", leaf ["login"]
        [requiredSwitch "username" "username", textSwitch "api-key" "api_key",
          textSwitch "password" "password"] [["api_key", "password"]]),
      ("logout", leaf ["logout"] [] []),
      ("whoami", leaf ["whoami"] [] []),
      ("secrets", secretsGrammar),
      ("hosting", hostingGrammar)]

/-! ### From values to commands -/

namespace Parsed

def text? (p : Parsed) (key : String) : Option String :=
  match p.values.lookup key with
  | some (.text s) => some s
  | _ => none

def text (p : Parsed) (key : String) : String := (p.text? key).getD ""

def number? (p : Parsed) (key : String) : Option Int :=
  match p.values.lookup key with
  | some (.number n) => some n
  | _ => none

def isOn (p : Parsed) (key : String) : Bool := p.values.lookup key = some .on

def place (p : Parsed) : AppPlace :=
  ⟨p.text "group_id",
    match p.text? "app_id" with
    | some id => .id id
    | none => .client (p.text "client_app_id")⟩

def login (p : Parsed) : Login :=
  match p.text? "api_key" with
  | some key => .apiKey (p.text "username") key
  | none => .password (p.text "username") (p.text "password")

def selector (p : Parsed) : Secret.Selector :=
  match p.text? "secret_id" with
  | some id => .id id
  | none => .name (p.text "name")

def folder (p : Parsed) : String := (p.text? "app_dir").getD "."

def strategy (p : Parsed) : Strategy :=
  if p.text? "strategy" = some Strategy.merge.name then .merge else .replace

def command? (p : Parsed) : Option Command :=
  match p.words with
  | ["login"] => some (.login p.login)
  | ["logout"] => some .logout
  | ["whoami"] => some .whoami
  | ["secrets", "list"] => some (.listSecrets p.place)
  | ["secrets", "add"] => some (.addSecret p.place (p.text "name") (p.text "value"))
  | ["secrets", "update"] => some (.updateSecret p.place p.selector (p.text "value"))
  | ["secrets", "remove"] => some (.removeSecret p.place p.selector)
  | ["hosting", "list"] => some (.listAssets p.place)
  | ["hosting", "diff"] => some (.diffAssets p.place p.folder p.strategy)
  | ["hosting", "import"] =>
    some (.importAssets p.place p.folder p.strategy (p.isOn "reset_cache") (p.number? "workers")
      (p.isOn "yes"))
  | ["hosting", "export"] => some (.exportAssets p.place p.folder (p.number? "workers"))
  | _ => none

end Parsed

namespace Command

def word : Command → String
  | .login _ => "login"
  | .logout => "logout"
  | .whoami => "whoami"
  | .listSecrets _ | .addSecret _ _ _ | .updateSecret _ _ _ | .removeSecret _ _ => "secrets"
  | .listAssets _ | .diffAssets _ _ _ | .importAssets _ _ _ _ _ _ | .exportAssets _ _ _ =>
    "hosting"

def isAgreed : Command → Bool
  | .importAssets _ _ _ _ _ yes => yes
  | _ => false

end Command

namespace Invocation

def parse (args : List String) : Except Stop Invocation := do
  let p ← grammar.parseAll args
  match p.command? with
  | some command =>
    return ⟨p.text? "base_url", p.text? "config_path", p.text? "log_level", p.isOn "json_logs",
      command⟩
  | none => throw (.problem Program.name (.missing ["cmd"]))

def overrides (i : Invocation) : Members Json :=
  let ofText (s : Option String) : Json := (s.map Json.str).getD .null
  [("base_url", ofText i.baseUrl), ("config_path", ofText i.configPath),
    ("log_level", ofText ((i.logLevel.filter (· != "")).map Text.upperAll)),
    ("json_logs", if i.jsonLogs then .bool true else .null)]

end Invocation

end HostingAdmin.CommandLine
