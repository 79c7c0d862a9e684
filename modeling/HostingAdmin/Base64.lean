import HostingAdmin.Text.Utf

/-!
Base64 with either of its two last letter pairs. Reading is free: other characters are skipped, and
an equals sign counts only where a group of four can end.
-/

set_option autoImplicit false

namespace HostingAdmin.Base64

def value? (c : Char) : Option Nat :=
  let n := c.toNat
  if 'A' ≤ c ∧ c ≤ 'Z' then some (n - 65)
  else if 'a' ≤ c ∧ c ≤ 'z' then some (n - 71)
  else if '0' ≤ c ∧ c ≤ '9' then some (n + 4)
  else if c = '+' ∨ c = '-' then some 62
  else if c = '/' ∨ c = '_' then some 63
  else none

def letter (v : Nat) : Char :=
  if v < 26 then Char.ofNat (65 + v)
  else if v < 52 then Char.ofNat (71 + v)
  else if v < 62 then Char.ofNat (v - 4)
  else if v = 62 then '-'
  else '_'

def encode : Bytes → List Char
  | [] => []
  | [a] => [letter (a.toNat / 4), letter (a.toNat % 4 * 16)]
  | [a, b] =>
    [letter (a.toNat / 4), letter (a.toNat % 4 * 16 + b.toNat / 16), letter (b.toNat % 16 * 4)]
  | a :: b :: c :: rest =>
    letter (a.toNat / 4) :: letter (a.toNat % 4 * 16 + b.toNat / 16) ::
      letter (b.toNat % 16 * 4 + c.toNat / 64) :: letter (c.toNat % 64) :: encode rest

-- A group that is partly read: how many letters it has, the bits that make no whole
-- octet yet, and how many equals signs came since its last letter.
structure Group where
  letters : Nat
  bits : Nat
  pads : Nat

def Group.add (g : Group) (v : Nat) : Option UInt8 × Group :=
  match g.letters with
  | 0 => (none, ⟨1, v, 0⟩)
  | 1 => (some (UInt8.ofNat (g.bits * 4 + v / 16)), ⟨2, v % 16, 0⟩)
  | 2 => (some (UInt8.ofNat (g.bits * 16 + v / 4)), ⟨3, v % 4, 0⟩)
  | _ => (some (UInt8.ofNat (g.bits * 64 + v)), ⟨0, 0, 0⟩)

-- Reads on from a partly read group; the octets read so far come newest first. Equals
-- signs that fill a group end the text, whatever follows; a group left open is an
-- error.
def decodeFrom (g : Group) (read : Bytes) : List Char → Option Bytes
  | [] => if g.letters = 0 then some read.reverse else none
  | c :: rest =>
    if c = '=' then
      if 2 ≤ g.letters then
        if 4 ≤ g.letters + g.pads + 1 then some read.reverse
        else decodeFrom ⟨g.letters, g.bits, g.pads + 1⟩ read rest
      else decodeFrom g read rest
    else
      match value? c with
      | none => decodeFrom g read rest
      | some v =>
        let (octet, g) := g.add v
        decodeFrom g (octet.toList ++ read) rest

def decode? (cs : List Char) : Option Bytes :=
  if cs.all (·.toNat < 128) then decodeFrom ⟨0, 0, 0⟩ [] cs else none

def pad (cs : List Char) : List Char :=
  cs ++ List.replicate ((4 - cs.length % 4) % 4) '='

end HostingAdmin.Base64
