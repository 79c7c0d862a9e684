import HostingAdmin.Json.Basic
import HostingAdmin.Text.Literal
import HostingAdmin.Text.Utf

/-!
Writing JSON, in three layouts: on one line with spaces after commas and colons, over lines with an
indent of two, both in ASCII; and without any space, in full Unicode.
-/

set_option autoImplicit false

namespace HostingAdmin.Json

def unitEscape (u : Nat) : List Char := '\\' :: 'u' :: Text.hex 4 u

def shortEscape? : Char → Option (List Char)
  | '"' => some ['\\', '"']
  | '\\' => some ['\\', '\\']
  | '\n' => some ['\\', 'n']
  | '\r' => some ['\\', 'r']
  | '\t' => some ['\\', 't']
  | '\x08' => some ['\\', 'b']
  | '\x0c' => some ['\\', 'f']
  | _ => none

def asciiChar (c : Char) : List Char :=
  match shortEscape? c with
  | some e => e
  | none =>
    let n := c.toNat
    if 0x20 ≤ n ∧ n < 0x7F then [c]
    else if n < 0x10000 then unitEscape n
    else unitEscape (0xD800 + (n - 0x10000) / 0x400) ++ unitEscape (0xDC00 + (n - 0x10000) % 0x400)

def unicodeChar (c : Char) : List Char :=
  match shortEscape? c with
  | some e => e
  | none => if c.toNat < 0x20 then unitEscape c.toNat else [c]

structure Layout where
  char : Char → List Char
  comma : String
  colon : String
  indent : Option Nat

def Layout.spaced : Layout := ⟨asciiChar, ", ", ": ", none⟩

def Layout.compact : Layout := ⟨unicodeChar, ",", ":", none⟩

def Layout.indented : Layout := ⟨asciiChar, ",", ": ", some 2⟩

def Layout.line (l : Layout) (depth : Nat) : String :=
  match l.indent with
  | some width => "\n" ++ String.ofList (List.replicate (width * depth) ' ')
  | none => ""

def Layout.quoted (l : Layout) (s : String) : String :=
  String.ofList ('"' :: s.toList.flatMap l.char ++ ['"'])

def number (x : Float) : String :=
  match Decimal.parts x with
  | .nan => "NaN"
  | .infinite negative => if negative then "-Infinity" else "Infinity"
  | .finite _ _ => Decimal.text x

mutual

def write (l : Layout) (depth : Nat) : Json → String
  | .null => "null"
  | .bool b => if b then "true" else "false"
  | .int n => toString n
  | .float x => number x
  | .str s => l.quoted s
  | .arr [] => "[]"
  | .arr (x :: xs) =>
    "[" ++ l.line (depth + 1) ++ write l (depth + 1) x ++ writeItems l (depth + 1) xs ++
      l.line depth ++ "]"
  | .obj [] => "\x7b\x7d"
  | .obj ((k, x) :: ms) =>
    "\x7b" ++ l.line (depth + 1) ++ l.quoted k ++ l.colon ++ write l (depth + 1) x ++
      writeMembers l (depth + 1) ms ++ l.line depth ++ "\x7d"

def writeItems (l : Layout) (depth : Nat) : List Json → String
  | [] => ""
  | x :: xs => l.comma ++ l.line depth ++ write l depth x ++ writeItems l depth xs

def writeMembers (l : Layout) (depth : Nat) : List (String × Json) → String
  | [] => ""
  | (k, x) :: ms =>
    l.comma ++ l.line depth ++ l.quoted k ++ l.colon ++ write l depth x ++ writeMembers l depth ms

end

def spaced (j : Json) : String := write .spaced 0 j

def compact (j : Json) : String := write .compact 0 j

def indented (j : Json) : String := write .indented 0 j

mutual

def literal : Json → String
  | .null => "None"
  | .bool b => if b then "True" else "False"
  | .int n => toString n
  | .float x => Decimal.text x
  | .str s => Text.literal s
  | .arr [] => "[]"
  | .arr (x :: xs) => "[" ++ literal x ++ literalItems xs ++ "]"
  | .obj [] => "\x7b\x7d"
  | .obj ((k, x) :: ms) =>
    "\x7b" ++ Text.literal k ++ ": " ++ literal x ++ literalMembers ms ++ "\x7d"

def literalItems : List Json → String
  | [] => ""
  | x :: xs => ", " ++ literal x ++ literalItems xs

def literalMembers : List (String × Json) → String
  | [] => ""
  | (k, x) :: ms => ", " ++ Text.literal k ++ ": " ++ literal x ++ literalMembers ms

end

def inSentence : Json → String
  | .str s => s
  | j => literal j

end HostingAdmin.Json
