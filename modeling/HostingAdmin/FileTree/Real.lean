import HostingAdmin.FileTree

/-!
Real paths: what a path is called once all links on it are replaced by what they lead to.
-/

set_option autoImplicit false

namespace HostingAdmin

mutual

def Node.linkCount : Node → Nat
  | .file _ _ => 0
  | .link _ => 1
  | .folder entries => Node.linkCounts entries

def Node.linkCounts : List (String × Node) → Nat
  | [] => 0
  | (_, n) :: rest => n.linkCount + Node.linkCounts rest

end

-- Follows `todo` from `here`, on which there is no link. Parts that do not exist stand
-- for themselves. A link that leads back to itself cannot be replaced: then the result
-- is an error, the names up to that link and those after it. The links being replaced
-- are `active`; `depth` more can be, before one of them would have to repeat.
def Node.real (root : Node) (depth : Nat) (active : List (List String)) (here : List String)
    (todo : List String) : Except (List String) (List String) :=
  match todo with
  | [] => .ok here
  | part :: rest =>
    if part = ".." then root.real depth active here.dropLast rest
    else
      let next := here ++ [part]
      match root.get? next with
      | some (.link target) =>
        if active.contains next then .error (next ++ rest)
        else
          match depth with
          | 0 => .error (next ++ rest)
          | depth' + 1 =>
            let t := Path.ofString target
            match root.real depth' (next :: active) (if t.isAbsolute then [] else here) t.parts with
            | .ok found => root.real (depth' + 1) active found rest
            | .error stuck => .error (stuck ++ rest)
      | _ => root.real depth active next rest
termination_by (depth, todo.length)

def FileTree.real (t : FileTree) (p : Path) : Except String Path :=
  match t.root.real t.root.linkCount [] (if p.isAbsolute then [] else t.current) p.parts with
  | .ok parts => .ok ⟨1, parts⟩
  | .error parts =>
    let left : Path := ⟨1, Path.climb parts⟩
    match t.node left with
    | .error ⟨.tooManyLinks, _⟩ => .error left.toString
    | _ => .ok left

end HostingAdmin
