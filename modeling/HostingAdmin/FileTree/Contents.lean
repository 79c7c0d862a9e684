import HostingAdmin.FileTree

/-!
The files below a folder: first the files of the folder itself in the order of their names, then
those of its subfolders in the order of theirs.
-/

set_option autoImplicit false

namespace HostingAdmin

inductive Branch where
  | leaf
  | folder (files : List (List String))
  | skipped

namespace Branch

def byName (bs : List (String × Branch)) : List (String × Branch) :=
  bs.mergeSort fun a b => a.1 ≤ b.1

def leaf? : String × Branch → Option (List String)
  | (name, .leaf) => some [name]
  | _ => none

def below : String × Branch → List (List String)
  | (name, .folder files) => files.map (name :: ·)
  | _ => []

def files (bs : List (String × Branch)) : List (List String) :=
  (byName bs).filterMap leaf? ++ (byName bs).flatMap below

end Branch

mutual

-- What a search finds at a node. A folder that does not open is left out, and a link
-- counts as a file, unless it opens as a folder.
def Node.branch (opens : List String → Bool) (here : List String) : Node → Branch
  | .file _ _ => .leaf
  | .link _ => if opens here then .skipped else .leaf
  | .folder entries =>
    if opens here then .folder (Branch.files (Node.branches opens here entries)) else .skipped

def Node.branches (opens : List String → Bool) (here : List String) :
    List (String × Node) → List (String × Branch)
  | [] => []
  | (name, n) :: rest =>
    (name, n.branch opens (here ++ [name])) :: Node.branches opens here rest

end

-- What is below a folder is looked up by its path from `p` on, which can be too long.
def FileTree.filesBelow (t : FileTree) (p : Path) : List (List String) :=
  let opens (names : List String) : Bool := t.isFolder (p.join ⟨0, names⟩)
  match t.node p with
  | .ok n =>
    match n.branch opens [] with
    | .folder files => files
    | _ => []
  | .error _ => []

end HostingAdmin
