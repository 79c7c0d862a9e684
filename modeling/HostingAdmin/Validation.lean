import HostingAdmin.Json.Reader

/-!
Checking JSON values against the types a record asks for. A check gives the value or the full list
of faults, each with its place; the place is a list of field names and positions.
-/

set_option autoImplicit false

namespace HostingAdmin

-- Where a value comes from: it was parsed before, or it is read from JSON text as it
-- is checked. Only the wording for wrong containers differs.
inductive Source where
  | parsed
  | text
deriving DecidableEq

inductive Problem where
  | missing
  | notString
  | notInteger
  | notIntegerText
  | integerSize
  | fractional
  | infinite
  | notNumber
  | notNumberText
  | notBoolean
  | notBooleanText
  | notPath
  | notList (source : Source)
  | notRecord (source : Source) (name : String)
  | notMap (source : Source)
  | belowOne
  | notPositive
  | notLogLevel
  | notJson
deriving DecidableEq

def Problem.code : Problem → String
  | .missing => "missing"
  | .notString => "string_type"
  | .notInteger => "int_type"
  | .notIntegerText => "int_parsing"
  | .integerSize => "int_parsing_size"
  | .fractional => "int_from_float"
  | .infinite => "finite_number"
  | .notNumber => "float_type"
  | .notNumberText => "float_parsing"
  | .notBoolean => "bool_type"
  | .notBooleanText => "bool_parsing"
  | .notPath => "path_type"
  | .notList _ => "list_type"
  | .notRecord _ _ => "model_type"
  | .notMap _ => "dict_type"
  | .belowOne => "greater_than_equal"
  | .notPositive => "greater_than"
  | .notLogLevel => "string_pattern_mismatch"
  | .notJson => "json_invalid"

def Problem.message : Problem → String
  | .missing => "Field required"
  | .notString => "Input should be a valid string"
  | .notInteger => "Input should be a valid integer"
  | .notIntegerText => "Input should be a valid integer, unable to parse string as an integer"
  | .integerSize => "Unable to parse input string as an integer, exceeded maximum size"
  | .fractional => "Input should be a valid integer, got a number with a fractional part"
  | .infinite => "Input should be a finite number"
  | .notNumber => "Input should be a valid number"
  | .notNumberText => "Input should be a valid number, unable to parse string as a number"
  | .notBoolean => "Input should be a valid boolean"
  | .notBooleanText => "Input should be a valid boolean, unable to interpret input"
  | .notPath => "Input is not a valid path for <class 'pathlib.Path'>"
  | .notList .parsed => "Input should be a valid list"
  | .notList .text => "Input should be a valid array"
  | .notRecord .parsed name => "Input should be a valid dictionary or instance of " ++ name
  | .notRecord .text _ => "Input should be an object"
  | .notMap .parsed => "Input should be a valid dictionary"
  | .notMap .text => "Input should be an object"
  | .belowOne => "Input should be greater than or equal to 1"
  | .notPositive => "Input should be greater than 0"
  | .notLogLevel => "String should match pattern '^(DEBUG|INFO|WARNING|ERROR|CRITICAL)$'"
  | .notJson => "Invalid JSON"

structure Fault where
  problem : Problem
  place : List String
deriving DecidableEq

structure Invalid where
  title : String
  faults : List Fault
deriving DecidableEq

def Fault.lines (f : Fault) : List String :=
  (if f.place.isEmpty then [] else [String.intercalate "." f.place]) ++ ["  " ++ f.problem.message]

def Invalid.message (v : Invalid) : String :=
  let plural := if v.faults.length = 1 then " validation error for " else " validation errors for "
  String.intercalate "\n"
    ((toString v.faults.length ++ plural ++ v.title) :: v.faults.flatMap Fault.lines)

abbrev Checked (α : Type) := Except (List Fault) α

namespace Checked

variable {α β : Type}

def fail (p : Problem) : Checked α := .error [⟨p, []⟩]

def and (f : Checked (α → β)) (x : Checked α) : Checked β :=
  match f, x with
  | .ok f, .ok x => .ok (f x)
  | .ok _, .error b => .error b
  | .error a, .ok _ => .error a
  | .error a, .error b => .error (a ++ b)

def under (name : String) (x : Checked α) : Checked α :=
  x.mapError fun faults => faults.map fun f => { f with place := name :: f.place }

def all : List (Checked α) → Checked (List α)
  | [] => .ok []
  | x :: xs => Checked.and (x.map List.cons) (all xs)

end Checked

def Checked.titled {α : Type} (title : String) (x : Checked α) : Except Invalid α :=
  x.mapError (Invalid.mk title)

namespace Check

variable {α : Type}

def string : Json → Checked String
  | .str s => .ok s
  | _ => .fail .notString

def optionalString : Json → Checked (Option String)
  | .null => .ok none
  | .str s => .ok (some s)
  | _ => .fail .notString

def digits? (cs : List Char) : Option (List Nat) :=
  let rec go : List Char → Option (List Nat)
    | [] => some []
    | '_' :: c :: rest => (Text.asciiDigit? c).bind fun d => (go rest).map (d :: ·)
    | c :: rest => (Text.asciiDigit? c).bind fun d => (go rest).map (d :: ·)
  match cs with
  | [] => none
  | '_' :: _ => none
  | _ => go cs

def signed : List Char → Bool × List Char
  | '-' :: rest => (true, rest)
  | '+' :: rest => (false, rest)
  | cs => (false, cs)

-- A whole number in a text: a sign, digits, and after a point nothing but zeros, one
-- at least.
def integerText (s : String) : Checked Int :=
  let (negative, cs) := signed (Text.trim Text.isWhite s.toList)
  let (whole, zeros?) := Text.cut '.' cs
  let zerosFine := match zeros? with
    | some zeros => !zeros.isEmpty && zeros.all (· == '0')
    | none => true
  match digits? whole with
  | some ds =>
    if 4300 < ds.length then .fail .integerSize
    else if zerosFine then
      .ok (if negative then -(Decimal.ofDigits ds : Int) else Decimal.ofDigits ds)
    else .fail .notIntegerText
  | none => .fail .notIntegerText

def wholeFloat (x : Float) : Checked Int :=
  match Decimal.parts x with
  | .finite negative b =>
    let scaled := b.mantissa * Nat.pow 2 b.exponent.toNat
    let unit := Nat.pow 2 (-b.exponent).toNat
    let size := scaled / unit
    if scaled % unit ≠ 0 then .fail .fractional
    else if Nat.pow 2 63 ≤ size then .fail .integerSize
    else .ok (if negative then -(size : Int) else size)
  | _ => .fail .infinite

def integer : Json → Checked Int
  | .int n => .ok n
  | .bool b => .ok (if b then 1 else 0)
  | .float x => wholeFloat x
  | .str s => integerText s
  | _ => .fail .notInteger

def decimal? (negative : Bool) (cs : List Char) : Option Float :=
  let isE (c : Char) : Bool := c = 'e' || c = 'E'
  let body := cs.takeWhile fun c => !isE c
  let (whole, fraction?) := Text.cut '.' body
  let read (part : List Char) : Option (List Nat) := if part.isEmpty then some [] else digits? part
  match read whole, read (fraction?.getD []) with
  | some w, some f =>
    if w.isEmpty && f.isEmpty then none
    else
      let value (e : Int) : Float :=
        Decimal.toFloat negative (Decimal.ofDigits (w ++ f)) (e - f.length)
      match cs.drop body.length with
      | [] => some (value 0)
      | _ :: size =>
        let (down, size) := signed size
        (digits? size).map fun ds =>
          value (if down then -(Decimal.ofDigits ds : Int) else Decimal.ofDigits ds)
  | _, _ => none

def numberText (s : String) : Checked Float :=
  let (negative, cs) := signed (Text.trim Text.isWhite s.toList)
  let word := String.ofList (cs.map Char.toLower)
  if word = "inf" ∨ word = "infinity" then .ok (if negative then -1.0 / 0.0 else 1.0 / 0.0)
  else if word = "nan" then .ok (0.0 / 0.0)
  else
    match decimal? negative cs with
    | some x => .ok x
    | none => .fail .notNumberText

def number : Json → Checked Float
  | .float x => .ok x
  | .int n =>
    let x := Decimal.toFloat (n < 0) n.natAbs 0
    if x.isInf then .fail .notNumber else .ok x
  | .bool b => .ok (if b then 1.0 else 0.0)
  | .str s => numberText s
  | _ => .fail .notNumber

def booleanText (s : String) : Checked Bool :=
  let word := Text.lowerAscii s
  if ["0", "off", "f", "false", "n", "no"].contains word then .ok false
  else if ["1", "on", "t", "true", "y", "yes"].contains word then .ok true
  else .fail .notBooleanText

def isWord (n : Int) : Bool := -(Nat.pow 2 63 : Nat) ≤ n && n < (Nat.pow 2 63 : Nat)

def boolean : Json → Checked Bool
  | .bool b => .ok b
  | .int n =>
    if n = 0 then .ok false
    else if n = 1 then .ok true
    else .fail (if isWord n then .notBooleanText else .notBoolean)
  | .float x =>
    match wholeFloat x with
    | .ok n => if n = 0 then .ok false else if n = 1 then .ok true else .fail .notBooleanText
    | .error _ => .fail .notBoolean
  | .str s => booleanText s
  | _ => .fail .notBoolean

def list (source : Source) (item : Json → Checked α) : Json → Checked (List α)
  | .arr items =>
    Checked.all (items.zipIdx.map fun (x, i) => (item x).under (toString i))
  | _ => .fail (.notList source)

def record (source : Source) (name : String) (read : Members Json → Checked α) :
    Json → Checked α
  | .obj members => read members
  | _ => .fail (.notRecord source name)

def map (source : Source) (value : Json → Checked α) : Json → Checked (Members α)
  | .obj members =>
    Checked.all (members.map fun (k, x) => ((value x).under k).map fun v => (k, v))
  | _ => .fail (.notMap source)

-- A field of a record under the first of its names that is there; faults use the first
-- name.
def field (members : Members Json) (names : List String) (read : Json → Checked α)
    (default? : Option α) : Checked α :=
  let name := names.headD ""
  match names.findSome? fun n => members.lookup n with
  | some x => (read x).under name
  | none =>
    match default? with
    | some d => .ok d
    | none => (Checked.fail .missing).under name

def required (members : Members Json) (names : List String) (read : Json → Checked α) :
    Checked α :=
  field members names read none

def optional (members : Members Json) (names : List String) (read : Json → Checked α)
    (d : α) : Checked α :=
  field members names read (some d)

end Check

def listTitle (item : String) : String := "list[" ++ item ++ "]"

def Json.checked {α : Type} (title : String) (check : Source → Json → Checked α) (j : Json) :
    Except Invalid α :=
  (check .parsed j).titled title

def Json.parsed {α : Type} (title : String) (check : Source → Json → Checked α) (bytes : Bytes) :
    Except Invalid α :=
  match Json.ofBytesStrict? bytes with
  | some j => (check .text j).titled title
  | none => .error ⟨title, [⟨.notJson, []⟩]⟩

end HostingAdmin
