import HostingAdmin.Path
import HostingAdmin.Text.Literal
import HostingAdmin.Text.Utf

/-!
A file system as a value: a tree of folders, files and symbolic links. Paths are resolved part by
part from a current folder; links are followed, forty at most on the way to one file.
-/

set_option autoImplicit false

namespace HostingAdmin

inductive Node where
  | file (body : Bytes) (modified : Int)
  | link (target : String)
  | folder (entries : List (String × Node))
deriving Inhabited

inductive FileProblem where
  | notFound
  | exists
  | notFolder
  | isFolder
  | nameTooLong
  | tooManyLinks
deriving DecidableEq

def FileProblem.number : FileProblem → Nat
  | .notFound => 2
  | .exists => 17
  | .notFolder => 20
  | .isFolder => 21
  | .nameTooLong => 36
  | .tooManyLinks => 40

def FileProblem.text : FileProblem → String
  | .notFound => "No such file or directory"
  | .exists => "File exists"
  | .notFolder => "Not a directory"
  | .isFolder => "Is a directory"
  | .nameTooLong => "File name too long"
  | .tooManyLinks => "Too many levels of symbolic links"

structure FileFault where
  problem : FileProblem
  path : String
deriving DecidableEq

def FileFault.message (f : FileFault) : String :=
  "[Errno " ++ toString f.problem.number ++ "] " ++ f.problem.text ++ ": " ++ Text.literal f.path

namespace Node

def child? (n : Node) (name : String) : Option Node :=
  match n with
  | .folder entries => entries.lookup name
  | _ => none

def isFolder : Node → Bool
  | .folder _ => true
  | _ => false

def get? : Node → List String → Option Node
  | n, [] => some n
  | n, name :: rest => (n.child? name).bind (get? · rest)

def bind (name : String) (n : Node) : List (String × Node) → List (String × Node)
  | [] => [(name, n)]
  | e :: rest => if e.1 = name then (name, n) :: rest else e :: bind name n rest

-- Puts a node at the end of a chain of names; nothing changes when a folder on the way
-- is missing.
def put : Node → List String → Node → Node
  | _, [], x => x
  | .folder entries, name :: rest, x =>
    match rest, entries.lookup name with
    | [], _ => .folder (bind name x entries)
    | _, some child => .folder (bind name (child.put rest x) entries)
    | _, none => .folder entries
  | n, _ :: _, _ => n

def remove : Node → List String → Node
  | n, [] => n
  | .folder entries, [name] => .folder (entries.filter fun e => e.1 != name)
  | .folder entries, name :: rest =>
    match entries.lookup name with
    | some child => .folder (bind name (child.remove rest) entries)
    | none => .folder entries
  | n, _ :: _ => n

end Node

-- Where a path leads: to a node, or to a name that its folder does not have. Both by
-- the chain of names from the root on.
inductive Spot where
  | node (at_ : List String) (n : Node)
  | vacant (at_ : List String)

def maxNameSize : Nat := 255

def maxPathSize : Nat := 4095

def maxLinks : Nat := 40

-- Follows the parts `todo` from the folder `here`. The last part is followed, when it
-- is a link, only on demand.
def Node.walk (root : Node) (follow : Bool) (links : Nat) (here : List String)
    (todo : List String) : Except FileProblem Spot :=
  match todo with
  | [] =>
    match root.get? here with
    | some n => .ok (.node here n)
    | none => .error .notFound
  | part :: rest =>
    match root.get? here with
    | some (.folder entries) =>
      if part = ".." then root.walk follow links here.dropLast rest
      else if maxNameSize < (Text.utf8 part).length then .error .nameTooLong
      else
        match entries.lookup part with
        | none => if rest.isEmpty then .ok (.vacant (here ++ [part])) else .error .notFound
        | some (.link target) =>
          if rest.isEmpty && !follow then .ok (.node (here ++ [part]) (.link target))
          else
            match links with
            | 0 => .error .tooManyLinks
            | links + 1 =>
              let t := Path.ofString target
              root.walk follow links (if t.isAbsolute then [] else here) (t.parts ++ rest)
        | some _ => root.walk follow links (here ++ [part]) rest
    | some _ => .error .notFolder
    | none => .error .notFound
termination_by (links, todo.length)

structure FileTree where
  root : Node
  current : List String

namespace FileTree

abbrev Result (α : Type) := Except FileFault α

def locate (t : FileTree) (follow : Bool) (p : Path) : Result Spot :=
  if maxPathSize < (Text.utf8 p.toString).length then .error ⟨.nameTooLong, p.toString⟩
  else (t.root.walk follow maxLinks (if p.isAbsolute then [] else t.current) p.parts).mapError
    fun problem => ⟨problem, p.toString⟩

def node (t : FileTree) (p : Path) : Result Node := do
  match ← t.locate true p with
  | .node _ n => .ok n
  | .vacant _ => .error ⟨.notFound, p.toString⟩

def contains (t : FileTree) (p : Path) : Bool := (t.node p).toBool

def isFolder (t : FileTree) (p : Path) : Bool :=
  match t.node p with
  | .ok n => n.isFolder
  | .error _ => false

def stat (t : FileTree) (p : Path) : Result (Nat × Int) := do
  match ← t.node p with
  | .file body modified => .ok (body.length, modified)
  | _ => .ok (0, 0)

def read (t : FileTree) (p : Path) : Result Bytes := do
  match ← t.node p with
  | .file body _ => .ok body
  | _ => .error ⟨.isFolder, p.toString⟩

def write (t : FileTree) (p : Path) (body : Bytes) (modified : Int) : Result FileTree := do
  match ← t.locate true p with
  | .node _ (.folder _) => .error ⟨.isFolder, p.toString⟩
  | .node spot _ => .ok { t with root := t.root.put spot (.file body modified) }
  | .vacant spot => .ok { t with root := t.root.put spot (.file body modified) }

def makeFolder (t : FileTree) (p : Path) : Result FileTree := do
  match ← t.locate false p with
  | .node _ _ => .error ⟨.exists, p.toString⟩
  | .vacant spot => .ok { t with root := t.root.put spot (.folder []) }

def makeFolders (t : FileTree) (p : Path) : Result FileTree :=
  let settle (t : FileTree) (fault : FileFault) : Result FileTree :=
    if t.isFolder p then .ok t else .error fault
  match t.makeFolder p with
  | .ok t => .ok t
  | .error fault =>
    if fault.problem = .notFound then
      if p.parts.isEmpty then .error fault
      else
        match t.makeFolders p.parent with
        | .error fault => .error fault
        | .ok t =>
          match t.makeFolder p with
          | .ok t => .ok t
          | .error fault => if fault.problem = .notFound then .error fault else settle t fault
    else settle t fault
termination_by p.parts.length
decreasing_by
  rename_i h
  simp only [Path.parent, List.length_dropLast]
  have : p.parts ≠ [] := by simpa using h
  have := List.length_pos_iff.mpr this
  omega

def place (t : FileTree) (p : Path) (n : Node) : Result FileTree := do
  match ← t.locate false p with
  | .node spot _ => .ok { t with root := t.root.put spot n }
  | .vacant spot => .ok { t with root := t.root.put spot n }

-- Removes what a path leads to, a link itself and not its target.
def remove (t : FileTree) (p : Path) : Result FileTree := do
  match ← t.locate false p with
  | .node _ (.folder _) => .error ⟨.isFolder, p.toString⟩
  | .node spot _ => .ok { t with root := t.root.remove spot }
  | .vacant _ => .error ⟨.notFound, p.toString⟩

end FileTree

end HostingAdmin
