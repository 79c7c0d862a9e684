import HostingAdmin.World

/-!
The profile on disk.
-/

set_option autoImplicit false

namespace HostingAdmin.Profile

def load (p : Path) : Action Profile := do
  if ← Action.fileExists p then
    let body ← Action.load p
    match Text.ofUtf8? body with
    | none => throw .undecodable
    | some _ => Action.ofExcept .invalid (parse body)
  else return .empty

def save (p : Path) (x : Profile) : Action Unit := do
  Action.makeFolders p.parent
  Action.store p x.fileText
  Action.record .debug "Profile written" [("path", .str p.toString)]

def clear (p : Path) : Action Unit := save p .empty

def requireLogin (x : Profile) : Except Failure Unit :=
  if x.isLoggedIn then .ok () else .error .notLoggedIn

end HostingAdmin.Profile
