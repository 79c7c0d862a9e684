import HostingAdmin.Asset.Basic
import HostingAdmin.Json.Basic

/-!
What distinguishes the local assets of an app from the ones that are hosted.
-/

set_option autoImplicit false

namespace HostingAdmin

structure Modification where
  asset : Asset
  bodyChanged : Bool
  attrsChanged : Bool
deriving DecidableEq

structure Diff where
  added : List Asset
  deleted : List Asset
  modified : List Modification
deriving DecidableEq

namespace Modification

def between (here there : Asset) : Modification :=
  ⟨here, here.hash != there.hash, !Attribute.sameAll here.attrs there.attrs⟩

def isChange (m : Modification) : Bool := m.bodyChanged || m.attrsChanged

end Modification

namespace Asset

-- Assets by path: a repeated path keeps its first place and its last asset.
def byPath (assets : List Asset) : Members Asset :=
  Members.ofPairs (assets.map fun a => (a.path, a))

end Asset

namespace Diff

-- The state of a comparison: the paths seen, the hosted assets not met yet, and the
-- changes found so far, newest first.
structure Scan where
  seen : List String
  left : Members Asset
  added : List Asset
  modified : List Modification

def Scan.next (s : Scan) (here : Asset) : Scan :=
  if s.seen.contains here.path then s
  else
    let seen := here.path :: s.seen
    match s.left.lookup here.path with
    | none => { s with seen, added := here :: s.added }
    | some there =>
      let left := s.left.filter fun entry => entry.1 != here.path
      let m := Modification.between here there
      { s with seen, left, modified := if m.isChange then m :: s.modified else s.modified }

-- The changes from `remote` to `here`. When merging, nothing that is hosted only is
-- deleted.
def between (here remote : List Asset) (merge : Bool) : Diff :=
  let s := here.foldl Scan.next ⟨[], Asset.byPath remote, [], []⟩
  ⟨s.added.reverse, if merge then [] else s.left.map Prod.snd, s.modified.reverse⟩

def isEmpty (d : Diff) : Bool := d.added.isEmpty && d.deleted.isEmpty && d.modified.isEmpty

def block (title sign : String) (paths : List String) : List String :=
  if paths.isEmpty then [] else title :: paths.map fun p => "\t" ++ sign ++ " " ++ p

def lines (d : Diff) : List String :=
  block "New Files:" "+" (d.added.map Asset.path) ++
    block "Removed Files:" "-" (d.deleted.map Asset.path) ++
    block "Modified Files:" "*" (d.modified.map fun m => m.asset.path)

end Diff

end HostingAdmin
