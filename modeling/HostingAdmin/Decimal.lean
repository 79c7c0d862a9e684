import HostingAdmin.Text.Chars

/-!
Doubles in decimal: the fewest digits that read back, and reading of decimal numerals.
A finite double is `m · 2 ^ q`; everything is decided in exact arithmetic on `m` and `q`.
-/

set_option autoImplicit false

namespace HostingAdmin.Decimal

structure Binary where
  mantissa : Nat
  exponent : Int
deriving DecidableEq

inductive Parts where
  | nan
  | infinite (negative : Bool)
  | finite (negative : Bool) (value : Binary)
deriving DecidableEq

def hidden : Nat := Nat.pow 2 52

def parts (x : Float) : Parts :=
  let bits := x.toBits.toNat
  let negative := bits / Nat.pow 2 63 == 1
  let e : Nat := bits / hidden % 2048
  let f : Nat := bits % hidden
  if e = 2047 then (if f = 0 then .infinite negative else .nan)
  else if e = 0 then .finite negative ⟨f, -1074⟩
  else .finite negative ⟨f + hidden, (e : Int) - 1075⟩

def toRat (x : Float) : Rat :=
  match parts x with
  | .finite negative b =>
    let v : Rat := (b.mantissa : Rat) * (2 : Rat) ^ b.exponent
    if negative then -v else v
  | _ => 0

-- The double's value, or its candidate `c · 10 ^ e`, over one common denominator, in
-- quarters of the spacing of doubles.
def scaled (b : Binary) (e : Int) : Nat × Nat × (Nat → Nat) :=
  let two := Nat.pow 2 b.exponent.natAbs
  let ten := Nat.pow 10 e.natAbs
  let up := if 0 ≤ b.exponent then two else 1
  let down := if 0 ≤ b.exponent then 1 else two
  let tenUp := if 0 ≤ e then ten else 1
  let tenDown := if 0 ≤ e then 1 else ten
  (4 * b.mantissa * up * tenDown, up * tenDown, fun c => 4 * c * tenUp * down)

-- Does `c · 10 ^ e` round to this double? Ends of the interval count when the mantissa
-- is even; below a power of two the spacing halves.
def readsBack (b : Binary) (c : Nat) (e : Int) : Bool :=
  let (value, quarter, candidate) := scaled b e
  let gap := if b.mantissa = hidden ∧ -1074 < b.exponent then 1 else 2
  let low := value - gap * quarter
  let high := value + 2 * quarter
  let x := candidate c
  if b.mantissa % 2 = 0 then low ≤ x && x ≤ high else low < x && x < high

-- The decimal `c · 10 ^ e` with `n` digits that is nearest to the double among those
-- that read back; of two at the same distance the one with an even last digit.
def withDigits (b : Binary) (point : Int) (n : Nat) : Option (Nat × Int) :=
  let e := point - n
  let (value, _, candidate) := scaled b e
  let c := value / candidate 1
  let below := readsBack b c e
  let above := readsBack b (c + 1) e
  if below && above then
    let left := value - candidate c
    let right := candidate (c + 1) - value
    if left < right ∨ left = right ∧ c % 2 = 0 then some (c, e) else some (c + 1, e)
  else if below then some (c, e)
  else if above then some (c + 1, e)
  else none

def pointOf (b : Binary) : Int :=
  let n := b.mantissa * Nat.pow 10 400
  let two := Nat.pow 2 b.exponent.natAbs
  let n := if 0 ≤ b.exponent then n * two else n / two
  ((toString n).length : Int) - 400

def shortest (b : Binary) : Nat × Int :=
  let point := pointOf b
  ((List.range 17).findSome? fun i => withDigits b point (i + 1)).getD (b.mantissa, b.exponent)

-- How a double is written: positionally from `10 ^ -4` up to below `10 ^ 16`, with at
-- least one decimal, else with an exponent of at least two digits and a sign.
def binaryText (b : Binary) : String :=
  if b.mantissa = 0 then "0.0"
  else
    let (c, e) := shortest b
    let written := (toString c).toList
    let digits := Text.trimRight (· == '0') written
    let point : Int := written.length + e
    let join (cs : List (List Char)) : String := String.ofList cs.flatten
    if -4 < point ∧ point ≤ 0 then
      join [['0', '.'], List.replicate point.natAbs '0', digits]
    else if 0 < point ∧ point ≤ 16 then
      let k := point.toNat
      let whole := digits.take k
      let fraction := digits.drop k
      join [whole, List.replicate (k - whole.length) '0', ['.'],
        if fraction.isEmpty then ['0'] else fraction]
    else
      let x := point - 1
      let size := (toString x.natAbs).toList
      let size := if size.length < 2 then '0' :: size else size
      let fraction := digits.drop 1
      join [digits.take 1, if fraction.isEmpty then [] else '.' :: fraction,
        ['e', if x < 0 then '-' else '+'], size]

def text (x : Float) : String :=
  match parts x with
  | .nan => "nan"
  | .infinite negative => if negative then "-inf" else "inf"
  | .finite negative b => (if negative then "-" else "") ++ binaryText b

def ofDigits (ds : List Nat) : Nat := ds.foldl (fun n d => n * 10 + d) 0

-- The double nearest to `± c · 10 ^ e`. Beyond the range of doubles it is infinite or
-- zero, which the number of digits tells without computing the power.
def toFloat (negative : Bool) (c : Nat) (e : Int) : Float :=
  let digits : Int := (toString c).length
  let x : Float :=
    if c = 0 then 0.0
    else if 310 < digits + e then 1.0 / 0.0
    else if digits + e < -330 then 0.0
    else if 0 ≤ e then Float.ofScientific c false e.toNat
    else Float.ofScientific c true e.natAbs
  if negative then -x else x

end HostingAdmin.Decimal
