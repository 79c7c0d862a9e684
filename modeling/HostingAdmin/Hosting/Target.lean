import HostingAdmin.FileTree.Real
import HostingAdmin.World

/-!
Where the contents of an asset are written. An asset path comes from the server; it may not lead
out of the files folder.
-/

set_option autoImplicit false

namespace HostingAdmin.Hosting

def realPath (p : Path) : Action Path := do
  Action.guardPath p
  Action.ofExcept .linkLoop ((← get).files.real p)

def relative (assetPath : String) : Path :=
  Path.ofString (String.ofList (assetPath.toList.dropWhile (· == '/')))

def target (root : Path) (assetPath : String) : Action Path := do
  let p ← realPath (root.join (relative assetPath))
  if p.isWithin root then return p
  else throw (.operation assetPath
    ("asset path '" ++ assetPath ++ "' is outside the files directory"))

end HostingAdmin.Hosting
