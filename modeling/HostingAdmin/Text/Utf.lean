/-!
Unicode encoding forms: UTF-8 written and read, UTF-16 and UTF-32 read. Reading cuts octets into
pieces, each a character or an ill-formed run that is as long as a character could still have been.
-/

set_option autoImplicit false

namespace HostingAdmin

abbrev Bytes := List UInt8

namespace Text

def utf8 (s : String) : Bytes := s.toList.flatMap String.utf8EncodeChar

def replacement : Char := '\uFFFD'

def scalar (code : Nat) : Char :=
  if code < 0xD800 ∨ (0xDFFF < code ∧ code < 0x110000) then Char.ofNat code else replacement

structure Begun where
  value : Nat
  owed : Nat
  least : Nat
  greatest : Nat

-- What has been read of an octet sequence: the pieces (newest first, none for an ill-
-- formed run) and the character that is not complete yet.
structure Progress where
  pieces : List (Option Char)
  begun : Option Begun

-- Takes the octet that may start a character. Where surrogates are allowed, the three
-- octets that would encode one are read as the replacement character.
def Progress.lead (surrogates : Bool) (done : List (Option Char)) (octet : UInt8) : Progress :=
  let b := octet.toNat
  if b < 0x80 then ⟨some (Char.ofNat b) :: done, none⟩
  else if b < 0xC2 then ⟨none :: done, none⟩
  else if b < 0xE0 then ⟨done, some ⟨b - 0xC0, 1, 0x80, 0xBF⟩⟩
  else if b < 0xF0 then
    let least := if b = 0xE0 then 0xA0 else 0x80
    let greatest := if b = 0xED ∧ surrogates = false then 0x9F else 0xBF
    ⟨done, some ⟨b - 0xE0, 2, least, greatest⟩⟩
  else if b < 0xF5 then
    let least := if b = 0xF0 then 0x90 else 0x80
    let greatest := if b = 0xF4 then 0x8F else 0xBF
    ⟨done, some ⟨b - 0xF0, 3, least, greatest⟩⟩
  else ⟨none :: done, none⟩

-- Takes one octet. An octet that cannot continue the begun character ends it as ill-
-- formed and is read again as a first octet.
def Progress.next (surrogates : Bool) (p : Progress) (octet : UInt8) : Progress :=
  match p.begun with
  | none => Progress.lead surrogates p.pieces octet
  | some g =>
    let b := octet.toNat
    if g.least ≤ b ∧ b ≤ g.greatest then
      let value := g.value * 64 + (b - 0x80)
      if g.owed ≤ 1 then ⟨some (scalar value) :: p.pieces, none⟩
      else ⟨p.pieces, some ⟨value, g.owed - 1, 0x80, 0xBF⟩⟩
    else Progress.lead surrogates (none :: p.pieces) octet

def pieces (surrogates : Bool) (bytes : Bytes) : List (Option Char) :=
  let p := bytes.foldl (Progress.next surrogates) ⟨[], none⟩
  (if p.begun.isSome then none :: p.pieces else p.pieces).reverse

def collect (ps : List (Option Char)) : Option (List Char) :=
  if ps.all Option.isSome then some (ps.filterMap id) else none

def ofUtf8? (bytes : Bytes) : Option String :=
  (collect (pieces false bytes)).map String.ofList

def ofUtf8Lossy (bytes : Bytes) : String :=
  String.ofList ((pieces false bytes).map (Option.getD · replacement))

def ofLatin1 (bytes : Bytes) : String :=
  String.ofList (bytes.map fun b => Char.ofNat b.toNat)

def ofAsciiLossy (bytes : Bytes) : String :=
  String.ofList (bytes.map fun b => if b < 0x80 then Char.ofNat b.toNat else replacement)

inductive Endian where
  | big
  | little
deriving DecidableEq

def Endian.number (e : Endian) (octets : Bytes) : Nat :=
  let ordered := match e with
    | .big => octets
    | .little => octets.reverse
  ordered.foldl (fun n b => n * 256 + b.toNat) 0

def units16 (e : Endian) : Bytes → Option (List Nat)
  | [] => some []
  | a :: b :: rest => (units16 e rest).map (e.number [a, b] :: ·)
  | [_] => none

def units32 (e : Endian) : Bytes → Option (List Nat)
  | [] => some []
  | a :: b :: c :: d :: rest => (units32 e rest).map (e.number [a, b, c, d] :: ·)
  | _ => none

def ofUnits16 : List Nat → List Char
  | [] => []
  | u :: v :: rest =>
    if 0xD800 ≤ u ∧ u < 0xDC00 ∧ 0xDC00 ≤ v ∧ v < 0xE000 then
      Char.ofNat (0x10000 + (u - 0xD800) * 0x400 + (v - 0xDC00)) :: ofUnits16 rest
    else scalar u :: ofUnits16 (v :: rest)
  | [u] => [scalar u]

def ofUtf16? (e : Endian) (bytes : Bytes) : Option (List Char) :=
  (units16 e bytes).map ofUnits16

def ofUtf32? (e : Endian) (bytes : Bytes) : Option (List Char) :=
  (units32 e bytes).bind fun us =>
    if us.all (· < 0x110000) then some (us.map scalar) else none

end Text

end HostingAdmin
