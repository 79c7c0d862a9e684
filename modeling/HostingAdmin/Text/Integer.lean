import HostingAdmin.Decimal

/-!
Whole numbers as people write them: white space around, a sign, and digits of any script, between
which single underscores may stand.
-/

set_option autoImplicit false

namespace HostingAdmin.Text

-- Digits between which single underscores may stand; `open_` tells that a digit has to
-- follow.
def digitRun? (open_ : Bool) : List Char → Option (List Nat)
  | [] => if open_ then none else some []
  | c :: rest =>
    match digit? c with
    | some d => (digitRun? false rest).map (d :: ·)
    | none => if c = '_' ∧ open_ = false then digitRun? true rest else none

def integer? (s : String) : Option Int :=
  let cs := trim isWhite s.toList
  let (negative, cs) := match cs with
    | '-' :: rest => (true, rest)
    | '+' :: rest => (false, rest)
    | _ => (false, cs)
  (digitRun? true cs).bind fun ds =>
    if 4300 < ds.length then none
    else
      let n : Int := Decimal.ofDigits ds
      some (if negative then -n else n)

end HostingAdmin.Text
