import HostingAdmin.Asset.Cache
import HostingAdmin.Asset.Manifest
import HostingAdmin.FileTree.Contents
import HostingAdmin.Md5

/-!
The local assets of an app: one for each file below its files folder.
-/

set_option autoImplicit false

namespace HostingAdmin.Listing

-- A time in nanoseconds as whole seconds. The time is first rounded to a double, which
-- can reach the next second, and what remains of a second is dropped.
def wholeSeconds (ns : Int) : Int :=
  let whole := ns.natAbs / 1000000000
  let missing := 1000000000 - ns.natAbs % 1000000000
  let isNear : Bool := missing * Nat.pow 2 53 ≤ 1000000000 * Nat.pow 2 whole.log2
  let rounded := if whole ≠ 0 ∧ isNear then whole + 1 else whole
  if ns < 0 then -(rounded : Int) else rounded

def truncated (time : Rat) : Int := Int.tdiv time.num time.den

def assetPath (names : List String) : String := "/" ++ String.intercalate "/" names

def attributes (path : String) (d : Option Description) : List Attribute :=
  match d with
  | some d => d.attrs
  | none => Attribute.usual path

def hashFile (t : FileTree) (p : Path) : FileTree.Result String :=
  (t.read p).map Md5.hexDigest

def hashOf (t : FileTree) (app : String) (p : Path) (path : String) (size modified : Int)
    (c : Cache) : FileTree.Result (String × Cache) :=
  match c.get? app path with
  | some e => if e.holds size modified then .ok (e.hash, c) else compute
  | none => compute
where
  compute : FileTree.Result (String × Cache) :=
    (hashFile t p).map fun hash => (hash, c.set app ⟨path, modified, size, hash⟩)

def describe (t : FileTree) (now : Int) (app : String) (p : Path) (path : String)
    (d : Option Description) (c : Cache) : FileTree.Result (Asset × Cache) := do
  let (size, modified) ← t.stat p
  let (hash, c) ← hashOf t app p path size (wholeSeconds modified) c
  return (⟨app, path, hash, size, attributes path d, now, ""⟩, c)

-- The assets of some files below a root. What was learnt about hashes stays, also when
-- a file cannot be read.
def describeAll (t : FileTree) (now : Int) (app : String) (root : Path) (ds : Members Description) :
    List (List String) → Cache → FileTree.Result (List Asset) × Cache
  | [], c => (.ok [], c)
  | names :: rest, c =>
    let path := assetPath names
    match describe t now app (root.join ⟨0, names⟩) path (ds.lookup path) c with
    | .error fault => (.error fault, c)
    | .ok (a, c) =>
      let (as, c) := describeAll t now app root ds rest c
      (as.map (a :: ·), c)

def missing? (ds : Members Description) (assets : List Asset) : Option String :=
  (ds.find? fun d => !assets.any fun a => a.path = d.1).map Prod.fst

def ofFolder (t : FileTree) (now : Int) (app : String) (root : Path) (ds : Members Description)
    (c : Cache) : Except Failure (List Asset) × Cache :=
  let (assets, c) := describeAll t now app root ds (t.filesBelow root) c
  let checked : Except Failure (List Asset) := do
    let assets ← assets.mapError .file
    match missing? ds assets with
    | some path => .error (.hosting (.noFile path))
    | none => .ok assets
  (checked, c)

def run (app : String) (root : Path) (ds : Members Description) (c : Cache) :
    Action (Except Failure (List Asset) × Cache) := do
  if ← Action.folderExists root then
    let w ← get
    let (assets, c) := ofFolder w.files (truncated w.clock) app root ds c
    if let .ok assets := assets then
      Action.record .debug "Listed local assets"
        [("root", .str root.toString), ("count", .int assets.length)]
    return (assets, c)
  else return (.error (.hosting (.noFolder root.toString)), c)

def ofApp (app : String) (folder : Path) (c : Cache) :
    Action (Except Failure (List Asset) × Cache) := do
  let location := Manifest.location folder
  let ds ← if ← Action.fileExists location then Manifest.load location else pure []
  run app (Manifest.filesFolder folder) ds c

end HostingAdmin.Listing
