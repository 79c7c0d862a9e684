import HostingAdmin.Text.Chars

/-!
Masking of secrets in free text. A value that follows one of four introducers is replaced by a
fixed mark; the introducer itself stays.
-/

set_option autoImplicit false

namespace HostingAdmin.Mask

inductive Introducer where
  | token
  | password
  | apiKey
  | bearer
deriving DecidableEq

def Introducer.all : List Introducer := [.token, .password, .apiKey, .bearer]

def mark : List Char := "***MASKED***".toList

def fold (c : Char) : Char :=
  match c.toNat with
  | 0x130 => 'i'
  | 0x131 => 'i'
  | 0x17F => 's'
  | 0x212A => 'k'
  | _ => c.toLower

abbrev Cursor := Nat × List Char

def word? : List Char → Cursor → Option Cursor
  | [], cursor => some cursor
  | w :: ws, (n, c :: cs) => if fold c = w then word? ws (n + 1, cs) else none
  | _ :: _, (_, []) => none

def passOne (p : Char → Bool) : Cursor → Cursor
  | (n, c :: rest) => if p c then (n + 1, rest) else (n, c :: rest)
  | (n, []) => (n, [])

def passBlanks (cursor : Cursor) : Cursor :=
  let size := (cursor.2.takeWhile Text.isBlank).length
  (cursor.1 + size, cursor.2.drop size)

def isQuote (c : Char) : Bool := c = '"' || c = '\''

def isJoint (c : Char) : Bool := c = '_' || c = '-'

def assignment? (cursor : Cursor) : Option Cursor :=
  match passBlanks (passOne isQuote cursor) with
  | (n, c :: rest) =>
    if c = ':' ∨ c = '=' then some (passOne isQuote (passBlanks (n + 1, rest))) else none
  | (_, []) => none

def Introducer.pass? (i : Introducer) (cursor : Cursor) : Option Cursor :=
  match i with
  | .token => (word? "token".toList cursor).bind assignment?
  | .password => (word? "password".toList cursor).bind assignment?
  | .apiKey =>
    ((word? "api".toList cursor).bind fun next => word? "key".toList (passOne isJoint next)).bind
      assignment?
  | .bearer => (word? "bearer".toList cursor).bind fun next =>
      if (next.2.head?.map Text.isBlank).getD false then some (passBlanks next) else none

def Introducer.takes (i : Introducer) (c : Char) : Bool :=
  let other := !isQuote c && !Text.isBlank c
  match i with
  | .bearer => other
  | _ => other && c != ',' && c != '\x7d'

def Introducer.match? (i : Introducer) (cs : List Char) : Option (Nat × Nat) :=
  (i.pass? (0, cs)).bind fun (intro, rest) =>
    let size := (rest.takeWhile i.takes).length
    if size = 0 then none else some (intro, size)

-- Masks the values of one introducer, from left to right; the next `skip` characters
-- belong to a match and are dropped.
def Introducer.maskFrom (i : Introducer) : Nat → List Char → List Char
  | _, [] => []
  | skip + 1, _ :: rest => i.maskFrom skip rest
  | 0, c :: rest =>
    match i.match? (c :: rest) with
    | some (intro, size) =>
      (c :: rest).take intro ++ mark ++ i.maskFrom (intro + size - 1) rest
    | none => c :: i.maskFrom 0 rest

def maskChars (cs : List Char) : List Char :=
  Introducer.all.foldl (fun cs i => i.maskFrom 0 cs) cs

def mask (s : String) : String := String.ofList (maskChars s.toList)

end HostingAdmin.Mask
