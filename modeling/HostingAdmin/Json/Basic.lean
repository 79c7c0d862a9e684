import HostingAdmin.Decimal

/-!
JSON values. An object keeps its members in the order in which their keys first came; each key
occurs once.
-/

set_option autoImplicit false

namespace HostingAdmin

inductive Json where
  | null
  | bool (b : Bool)
  | int (n : Int)
  | float (x : Float)
  | str (s : String)
  | arr (items : List Json)
  | obj (members : List (String × Json))
deriving Inhabited

abbrev Members (α : Type) := List (String × α)

namespace Members

def put {α : Type} (name : String) (value : α) : Members α → Members α
  | [] => [(name, value)]
  | (n, v) :: rest => if n = name then (n, value) :: rest else (n, v) :: put name value rest

def ofPairs {α : Type} (pairs : List (String × α)) : Members α :=
  pairs.foldl (fun ms p => put p.1 p.2 ms) []

end Members

namespace Json

def get? (j : Json) (key : String) : Option Json :=
  match j with
  | .obj members => members.lookup key
  | _ => none

-- Empty values, zero, false and null count as no value.
def holds : Json → Bool
  | .null => false
  | .bool b => b
  | .int n => n != 0
  | .float x => !(x == 0.0)
  | .str s => !s.isEmpty
  | .arr items => !items.isEmpty
  | .obj members => !members.isEmpty

end Json

end HostingAdmin
