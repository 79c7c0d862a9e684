import HostingAdmin.CommandLine.Run

/-!
Which files an invocation is about, before it is carried out.
-/

set_option autoImplicit false

namespace HostingAdmin.CommandLine

def Command.folder? : Command → Option String
  | .diffAssets _ folder _ => some folder
  | .importAssets _ folder _ _ _ _ => some folder
  | .exportAssets _ folder _ => some folder
  | _ => none

def settingsFile? (e : Environment) : Option Path :=
  (e.vars.lookup Settings.fileVariable).bind fun name =>
    (e.expandHome (Path.ofString name)).toOption

def Invocation.scope (i : Invocation) (s : Settings) : List Path :=
  [s.configPath, s.cachePath] ++
    (i.command.folder?.map fun folder => (Path.ofString folder).append "hosting").toList

end HostingAdmin.CommandLine
