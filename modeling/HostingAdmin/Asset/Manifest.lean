import HostingAdmin.Asset.Format
import HostingAdmin.World

/-!
The folder of an app, and the metadata file in it that gives attributes to assets.
-/

set_option autoImplicit false

namespace HostingAdmin.Manifest

def filesFolder (app : Path) : Path := app.append "hosting/files"

def location (app : Path) : Path := app.append "hosting/metadata.json"

def byPath (ds : List Description) : Members Description :=
  Members.ofPairs (ds.map fun d => (d.path, d))

def parse (body : Bytes) : Except Invalid (List Description) :=
  Json.parsed (listTitle Description.title)
    (fun source => Check.list source (Description.check source)) body

def fileText (ds : List Description) : Bytes :=
  Text.utf8 (Json.indented (.arr (ds.map Description.toJson)))

def load (p : Path) : Action (Members Description) := do
  let body ← Action.load p
  return byPath (← Action.ofExcept .invalid (parse body))

def save (p : Path) (ds : List Description) : Action Unit := do
  Action.makeFolders p.parent
  Action.store p (fileText ds)

end HostingAdmin.Manifest
