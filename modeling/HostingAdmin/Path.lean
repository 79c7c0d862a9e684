import HostingAdmin.Text.Chars

/-!
Paths as text, without looking at any file system. Repeated slashes and `.` parts are not kept, `..`
parts are; exactly two slashes at the start differ from one.
-/

set_option autoImplicit false

namespace HostingAdmin

structure Path where
  slashes : Nat
  parts : List String
deriving DecidableEq

namespace Path

def split (s : String) : List String :=
  ((s.toList.splitOn '/').map String.ofList).filter fun part => part != "" && part != "."

def ofString (s : String) : Path :=
  let count := (s.toList.takeWhile (· == '/')).length
  ⟨if count = 0 then 0 else if count = 2 then 2 else 1, split s⟩

def here : Path := ⟨0, []⟩

def toString (p : Path) : String :=
  if p.slashes = 0 ∧ p.parts.isEmpty then "."
  else String.ofList (List.replicate p.slashes '/') ++ String.intercalate "/" p.parts

instance : ToString Path := ⟨toString⟩

def isAbsolute (p : Path) : Bool := p.slashes != 0

def join (p q : Path) : Path :=
  if q.isAbsolute then q else { p with parts := p.parts ++ q.parts }

def append (p : Path) (s : String) : Path := p.join (ofString s)

def parent (p : Path) : Path := { p with parts := p.parts.dropLast }

def isWithin (p q : Path) : Bool :=
  p.slashes = q.slashes && q.parts.isPrefixOf p.parts

def climb (parts : List String) : List String :=
  (parts.foldl (fun acc part => if part = ".." then acc.drop 1 else part :: acc) []).reverse

end Path

end HostingAdmin
