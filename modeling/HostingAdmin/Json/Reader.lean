import HostingAdmin.Json.Basic
import HostingAdmin.Text.Utf

/-!
Reading JSON. Two readers share the grammar: a free one, which takes half surrogate pairs (as the
replacement character) and octets in any Unicode encoding form, and a strict one, which takes UTF-8
only and refuses half pairs and deep nesting. Both take `NaN` and the infinities as numbers.
-/

set_option autoImplicit false

namespace HostingAdmin.Json

inductive Fault where
  | malformed
  | undecodable
  | digits (count : Nat)
deriving DecidableEq

structure Rules where
  halfPairs : Bool
  depth : Option Nat
deriving DecidableEq

def Rules.free : Rules := ⟨true, none⟩

def Rules.strict : Rules := ⟨false, some 200⟩

def maxDigits : Nat := 4300

abbrev Step (α : Type) := Except Fault (α × List Char)

def isSpace (c : Char) : Bool := c = ' ' || c = '\t' || c = '\n' || c = '\r'

def skip (cs : List Char) : List Char := cs.dropWhile isSpace

def escaped? : Char → Option Char
  | '"' => some '"'
  | '\\' => some '\\'
  | '/' => some '/'
  | 'b' => some '\x08'
  | 'f' => some '\x0c'
  | 'n' => some '\n'
  | 'r' => some '\r'
  | 't' => some '\t'
  | _ => none

def hex4? (a b c d : Char) : Option Nat :=
  match Text.hexDigit? a, Text.hexDigit? b, Text.hexDigit? c, Text.hexDigit? d with
  | some a, some b, some c, some d => some (((a * 16 + b) * 16 + c) * 16 + d)
  | _, _, _, _ => none

-- The code points of a string up to its closing quote, half pairs included.
def scan : List Char → List Nat → Step (List Nat)
  | '"' :: rest, acc => .ok (acc.reverse, rest)
  | '\\' :: 'u' :: a :: b :: c :: d :: rest, acc =>
    match hex4? a b c d with
    | some n => scan rest (n :: acc)
    | none => .error .malformed
  | '\\' :: c :: rest, acc =>
    match escaped? c with
    | some e => scan rest (e.toNat :: acc)
    | none => .error .malformed
  | c :: rest, acc =>
    if c.toNat < 0x20 ∨ c = '\\' then .error .malformed else scan rest (c.toNat :: acc)
  | [], _ => .error .malformed

def single (r : Rules) (u : Nat) : Option Char :=
  if 0xD800 ≤ u ∧ u < 0xE000 then (if r.halfPairs then some Text.replacement else none)
  else some (Char.ofNat u)

def joinPairs (r : Rules) : List Nat → Option (List Char)
  | [] => some []
  | [u] => (single r u).map fun c => [c]
  | u :: v :: rest =>
    if 0xD800 ≤ u ∧ u < 0xDC00 ∧ 0xDC00 ≤ v ∧ v < 0xE000 then
      (joinPairs r rest).map (Char.ofNat (0x10000 + (u - 0xD800) * 0x400 + (v - 0xDC00)) :: ·)
    else
      match single r u with
      | some c => (joinPairs r (v :: rest)).map (c :: ·)
      | none => none

def string (r : Rules) (cs : List Char) : Step String :=
  match scan cs [] with
  | .error f => .error f
  | .ok (codes, rest) =>
    match joinPairs r codes with
    | some chars => .ok (String.ofList chars, rest)
    | none => .error .malformed

def digits (cs : List Char) : List Nat × List Char :=
  ((cs.takeWhile Char.isDigit).filterMap Text.asciiDigit?, cs.dropWhile Char.isDigit)

def fraction : List Char → Option (List Nat) × List Char
  | '.' :: rest =>
    let (ds, more) := digits rest
    if ds.isEmpty then (none, '.' :: rest) else (some ds, more)
  | cs => (none, cs)

def exponent (cs : List Char) : Option Int × List Char :=
  let number (negative : Bool) (rest : List Char) : Option Int × List Char :=
    let (ds, more) := digits rest
    if ds.isEmpty then (none, cs)
    else (some (if negative then -(Decimal.ofDigits ds : Int) else Decimal.ofDigits ds), more)
  match cs with
  | c :: '+' :: rest => if c = 'e' ∨ c = 'E' then number false rest else (none, cs)
  | c :: '-' :: rest => if c = 'e' ∨ c = 'E' then number true rest else (none, cs)
  | c :: rest => if c = 'e' ∨ c = 'E' then number false rest else (none, cs)
  | [] => (none, cs)

def magnitude (negative : Bool) (cs : List Char) : Step Json :=
  let (whole, rest) := match cs with
    | '0' :: rest => ([0], rest)
    | _ => digits cs
  if whole.isEmpty then .error .malformed
  else
    let (fraction?, rest) := fraction rest
    let (exponent?, rest) := exponent rest
    match fraction?, exponent? with
    | none, none =>
      if maxDigits < whole.length then .error (.digits whole.length)
      else
        let n : Int := Decimal.ofDigits whole
        .ok (.int (if negative then -n else n), rest)
    | _, _ =>
      let ds := whole ++ fraction?.getD []
      let e := exponent?.getD 0 - (fraction?.getD []).length
      .ok (.float (Decimal.toFloat negative (Decimal.ofDigits ds) e), rest)

def word? (w : String) (cs : List Char) : Option (List Char) :=
  List.isPrefixOf? w.toList cs

def words : List (String × Json) :=
  [("null", .null), ("true", .bool true), ("false", .bool false), ("NaN", .float (0.0 / 0.0)),
   ("Infinity", .float (1.0 / 0.0)), ("-Infinity", .float (-1.0 / 0.0))]

def atom (cs : List Char) : Step Json :=
  match words.findSome? fun w => (word? w.1 cs).map fun rest => (w.2, rest) with
  | some found => .ok found
  | none =>
    match cs with
    | '-' :: rest => magnitude true rest
    | _ => magnitude false cs

def Rules.allows (r : Rules) (depth : Nat) : Bool :=
  match r.depth with
  | some limit => depth < limit
  | none => true

mutual

def value (r : Rules) : Nat → Nat → List Char → Step Json
  | 0, _, _ => .error .malformed
  | fuel + 1, depth, cs =>
    match skip cs with
    | '"' :: rest =>
      match string r rest with
      | .error f => .error f
      | .ok (s, rest) => .ok (.str s, rest)
    | '[' :: rest =>
      if r.allows depth then
        match skip rest with
        | ']' :: rest => .ok (.arr [], rest)
        | rest =>
          match items r fuel (depth + 1) rest [] with
          | .error f => .error f
          | .ok (xs, rest) => .ok (.arr xs, rest)
      else .error .malformed
    | '\x7b' :: rest =>
      if r.allows depth then
        match skip rest with
        | '\x7d' :: rest => .ok (.obj [], rest)
        | rest =>
          match members r fuel (depth + 1) rest [] with
          | .error f => .error f
          | .ok (ms, rest) => .ok (.obj ms, rest)
      else .error .malformed
    | rest => atom rest

def items (r : Rules) : Nat → Nat → List Char → List Json → Step (List Json)
  | 0, _, _, _ => .error .malformed
  | fuel + 1, depth, cs, acc =>
    match value r fuel depth cs with
    | .error f => .error f
    | .ok (x, rest) =>
      match skip rest with
      | ',' :: rest => items r fuel depth rest (x :: acc)
      | ']' :: rest => .ok ((x :: acc).reverse, rest)
      | _ => .error .malformed

def members (r : Rules) : Nat → Nat → List Char → Members Json → Step (Members Json)
  | 0, _, _, _ => .error .malformed
  | fuel + 1, depth, cs, acc =>
    match skip cs with
    | '"' :: rest =>
      match string r rest with
      | .error f => .error f
      | .ok (key, rest) =>
        match skip rest with
        | ':' :: rest =>
          match value r fuel depth rest with
          | .error f => .error f
          | .ok (x, rest) =>
            let acc := Members.put key x acc
            match skip rest with
            | ',' :: rest => members r fuel depth rest acc
            | '\x7d' :: rest => .ok (acc, rest)
            | _ => .error .malformed
        | _ => .error .malformed
    | _ => .error .malformed

end

def readChars (r : Rules) (cs : List Char) : Except Fault Json :=
  match value r (2 * cs.length + 2) 0 cs with
  | .error f => .error f
  | .ok (j, rest) => if (skip rest).isEmpty then .ok j else .error .malformed

def ofText (s : String) : Except Fault Json := readChars .free s.toList

-- The text that octets encode: a byte order mark tells the form, else the zeros among
-- the first octets do, as the first two characters of JSON are ASCII.
def decode? (bytes : Bytes) : Option (List Char) :=
  let utf8 (bs : Bytes) := Text.collect (Text.pieces true bs)
  match bytes with
  | 0 :: 0 :: 0xFE :: 0xFF :: rest => Text.ofUtf32? .big rest
  | 0xFF :: 0xFE :: 0 :: 0 :: rest => Text.ofUtf32? .little rest
  | 0xFE :: 0xFF :: rest => Text.ofUtf16? .big rest
  | 0xFF :: 0xFE :: rest => Text.ofUtf16? .little rest
  | 0xEF :: 0xBB :: 0xBF :: rest => utf8 rest
  | a :: b :: c :: d :: _ =>
    if a = 0 then
      if b = 0 then Text.ofUtf32? .big bytes else Text.ofUtf16? .big bytes
    else if b = 0 then
      if c = 0 ∧ d = 0 then Text.ofUtf32? .little bytes else Text.ofUtf16? .little bytes
    else utf8 bytes
  | [a, b] =>
    if a = 0 then Text.ofUtf16? .big bytes
    else if b = 0 then Text.ofUtf16? .little bytes
    else utf8 bytes
  | _ => utf8 bytes

def ofBytes (bytes : Bytes) : Except Fault Json :=
  match decode? bytes with
  | some cs => readChars .free cs
  | none => .error .undecodable

def ofBytesStrict? (bytes : Bytes) : Option Json :=
  (Text.ofUtf8? bytes).bind fun s => (readChars .strict s.toList).toOption

end HostingAdmin.Json
