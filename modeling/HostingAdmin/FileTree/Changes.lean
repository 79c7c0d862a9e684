import HostingAdmin.FileTree

/-!
What makes one tree into another one that has everything of the first: the folders and files that
are new or have new contents, each folder before what is in it.
-/

set_option autoImplicit false

namespace HostingAdmin

inductive Change where
  | folder (at_ : List String)
  | file (at_ : List String) (body : Bytes)
deriving DecidableEq

mutual

def Node.changes (old : Option Node) (here : List String) : Node → List Change
  | .file body modified =>
    match old with
    | some (.file b m) => if b = body ∧ m = modified then [] else [.file here body]
    | _ => [.file here body]
  | .link _ => []
  | .folder entries =>
    let below := Node.changesBelow old here entries
    if (old.map Node.isFolder).getD false then below else .folder here :: below

def Node.changesBelow (old : Option Node) (here : List String) :
    List (String × Node) → List Change
  | [] => []
  | (name, n) :: rest =>
    n.changes (old.bind fun o => o.child? name) (here ++ [name]) ++ Node.changesBelow old here rest

end

def FileTree.changesSince (t old : FileTree) : List Change := t.root.changes (some old.root) []

end HostingAdmin
