import HostingAdmin.Proofs.JsonRoundTrip

/-!
The texts of JSON and what they denote. A text can be written in many ways: with white space, with escapes that
are not needed, with numerals in any notation and with keys that come more than once. The free reader takes every
text for what it denotes, as long as no whole number has too many digits.
-/

set_option autoImplicit false

namespace HostingAdmin.Json

/-! ### Strings -/

def escapes : List (Char × Char) := [
  ('"', '"'), ('\\', '\\'), ('/', '/'), ('b', '\x08'), ('f', '\x0c'), ('n', '\n'), ('r', '\r'), ('t', '\t')]

-- How a code unit can be written in a string. A character beyond the first plane can stand
-- for itself, or it is written as two units.
inductive Letter : List Char → Nat → Prop where
  | plain (c : Char) (quote : c ≠ '"') (slash : c ≠ '\\') (visible : 0x20 ≤ c.toNat) : Letter [c] c.toNat
  | short (c code : Char) (known : (c, code) ∈ escapes) : Letter ['\\', c] code.toNat
  | unit (a b c d : Char) (w x y z : Nat) (first : Text.hexDigit? a = some w) (second : Text.hexDigit? b = some x)
      (third : Text.hexDigit? c = some y) (fourth : Text.hexDigit? d = some z) :
      Letter ['\\', 'u', a, b, c, d] (((w * 16 + x) * 16 + y) * 16 + z)

inductive Letters : List Char → List Nat → Prop where
  | nil : Letters [] []
  | cons (cs more : List Char) (code : Nat) (codes : List Nat) (first : Letter cs code) (rest : Letters more codes) :
      Letters (cs ++ more) (code :: codes)

inductive Quoted : List Char → String → Prop where
  | letters (cs : List Char) (codes : List Nat) (letters : Letters cs codes) :
      Quoted ('"' :: (cs ++ ['"'])) (String.ofList (Text.ofUnits16 codes))

theorem escape_known (c code : Char) (known : (c, code) ∈ escapes) : escaped? c = some code ∧ c ≠ 'u' := by
  have pairs : ∀ e ∈ escapes, escaped? e.1 = some e.2 ∧ e.1 ≠ 'u' := by decide
  exact pairs (c, code) known

theorem hex_small (c : Char) (n : Nat) (digit : Text.hexDigit? c = some n) : n < 16 := by
  rw [Text.hexDigit?] at digit
  split at digit
  · rename_i range
    have last : c.toNat ≤ 57 := range.2
    cases digit
    omega
  split at digit
  · rename_i range
    have last : c.toNat ≤ 102 := range.2
    cases digit
    omega
  split at digit
  · rename_i range
    have last : c.toNat ≤ 70 := range.2
    cases digit
    omega
  · cases digit

theorem letter_scanned (cs : List Char) (code : Nat) (letter : Letter cs code) (rest : List Char) (acc : List Nat) :
    scan (cs ++ rest) acc = scan rest (code :: acc) := by
  cases letter with
  | plain c quote slash visible => exact scan_plain c rest acc quote slash visible
  | short c code known =>
      obtain ⟨read, other⟩ := escape_known c code known
      rw [List.cons_append, List.cons_append, List.nil_append, scan, read]
      intro u v w x more same
      exact (other same).elim
  | unit a b c d w x y z first second third fourth =>
      have read : hex4? a b c d = some (((w * 16 + x) * 16 + y) * 16 + z) := by
        simp only [hex4?, first, second, third, fourth]
      simp only [List.cons_append, List.nil_append, scan, read]

theorem letters_scanned (cs : List Char) (codes : List Nat) (letters : Letters cs codes) (rest : List Char)
    (acc : List Nat) : scan (cs ++ '"' :: rest) acc = .ok (acc.reverse ++ codes, rest) := by
  induction letters generalizing acc with
  | nil => simp [scan]
  | cons cs more code codes first others ih =>
      rw [List.append_assoc, letter_scanned cs code first, ih]
      simp

theorem letter_bound (cs : List Char) (code : Nat) (letter : Letter cs code) : code < 0x110000 := by
  cases letter with
  | plain c quote slash visible =>
      have bound := char_bound c
      omega
  | short c code known =>
      have bound := char_bound code
      omega
  | unit a b c d w x y z first second third fourth =>
      have w := hex_small a w first
      have x := hex_small b x second
      have y := hex_small c y third
      have z := hex_small d z fourth
      omega

theorem letters_bound (cs : List Char) (codes : List Nat) (letters : Letters cs codes) :
    ∀ code ∈ codes, code < 0x110000 := by
  induction letters with
  | nil => simp
  | cons cs more code codes first others ih =>
      intro other member
      rcases List.mem_cons.mp member with rfl | later
      · exact letter_bound cs other first
      · exact ih other later

theorem single_scalar (u : Nat) (bound : u < 0x110000) : single .free u = some (Text.scalar u) := by
  rw [single, Text.scalar]
  by_cases half : 0xD800 ≤ u ∧ u < 0xE000
  · have other : ¬ (u < 0xD800 ∨ 0xDFFF < u ∧ u < 0x110000) := by omega
    rw [if_pos half, if_neg other]
    rfl
  · rw [if_neg half, if_pos (by omega)]

theorem units_joined (codes : List Nat) (bound : ∀ code ∈ codes, code < 0x110000) :
    joinPairs .free codes = some (Text.ofUnits16 codes) := by
  fun_induction Text.ofUnits16 codes with
  | case1 => rfl
  | case2 u v rest pair ih =>
      rw [joinPairs, if_pos pair, ih fun code member => bound code (by simp [member])]
      rfl
  | case3 u v rest apart ih =>
      rw [joinPairs, if_neg apart, single_scalar u (bound u List.mem_cons_self),
        ih fun code member => bound code (List.mem_cons_of_mem _ member)]
      rfl
  | case4 u => rw [joinPairs, single_scalar u (bound u List.mem_cons_self), Option.map_some]

theorem quoted_taken (cs : List Char) (s : String) (quoted : Quoted cs s) :
    ∃ inside, cs = '"' :: inside ∧ ∀ rest, string .free (inside ++ rest) = .ok (s, rest) := by
  obtain ⟨inside, codes, letters⟩ := quoted
  refine ⟨inside ++ ['"'], rfl, fun rest => ?_⟩
  rw [List.append_assoc, List.singleton_append]
  simp only [string, letters_scanned inside codes letters, List.reverse_nil, List.nil_append,
    units_joined codes (letters_bound inside codes letters)]

theorem plain_quoted (s : String) (plain : ∀ c ∈ s.toList, c ≠ '"' ∧ c ≠ '\\' ∧ 0x20 ≤ c.toNat) :
    Quoted ('"' :: (s.toList ++ ['"'])) s := by
  have letters : ∀ cs : List Char, (∀ c ∈ cs, c ≠ '"' ∧ c ≠ '\\' ∧ 0x20 ≤ c.toNat) →
      Letters cs (cs.flatMap fun c => [c.toNat]) := by
    intro cs all
    induction cs with
    | nil => exact .nil
    | cons c rest ih =>
        obtain ⟨quote, slash, visible⟩ := all c List.mem_cons_self
        exact .cons [c] rest c.toNat _ (.plain c quote slash visible)
          (ih fun other member => all other (List.mem_cons_of_mem _ member))
  have own := letters s.toList plain
  have same := units_joined _ (letters_bound s.toList _ own)
  rw [join_string unicodeChar _ unicode_spells, Option.some.injEq] at same
  have quoted := Quoted.letters s.toList _ own
  rwa [← same, String.ofList_toList] at quoted

/-! ### Numbers -/

def Digits (ds : List Char) : Prop := ds ≠ [] ∧ ∀ c ∈ ds, c.isDigit = true

def amount (ds : List Char) : Nat := ds.foldl (fun n c => n * 10 + (c.toNat - 48)) 0

-- The digits of a whole number: a zero in front of others has no place in it.
def Whole (ds : List Char) : Prop := ds = ['0'] ∨ Digits ds ∧ ds.head? ≠ some '0'

inductive Fraction : List Char → Option (List Char) → Prop where
  | none : Fraction [] none
  | point (ds : List Char) (digits : Digits ds) : Fraction ('.' :: ds) (some ds)

inductive Exponent : List Char → Option Int → Prop where
  | none : Exponent [] none
  | plain (mark : Char) (ds : List Char) (marked : mark = 'e' ∨ mark = 'E') (digits : Digits ds) :
      Exponent (mark :: ds) (some (amount ds))
  | plus (mark : Char) (ds : List Char) (marked : mark = 'e' ∨ mark = 'E') (digits : Digits ds) :
      Exponent (mark :: '+' :: ds) (some (amount ds))
  | minus (mark : Char) (ds : List Char) (marked : mark = 'e' ∨ mark = 'E') (digits : Digits ds) :
      Exponent (mark :: '-' :: ds) (some (-(amount ds : Int)))

def sign (negative : Bool) : List Char := if negative then ['-'] else []

-- A numeral with neither a fraction nor an exponent is a whole number; any other one is
-- a double, also when its value is whole.
def numeral (negative : Bool) (ds : List Char) : Option (List Char) → Option Int → Json
  | none, none => .int (if negative then -(amount ds : Int) else amount ds)
  | fs, e => .float (Decimal.toFloat negative (amount (ds ++ fs.getD [])) (e.getD 0 - (fs.getD []).length))

theorem digit_known (c : Char) (digit : c.isDigit = true) : Text.asciiDigit? c = some (c.toNat - 48) := by
  simp only [Char.isDigit, Bool.and_eq_true, decide_eq_true_eq] at digit
  exact if_pos digit

theorem digits_known (ds : List Char) (all : ∀ c ∈ ds, c.isDigit = true) :
    ds.filterMap Text.asciiDigit? = ds.map fun c => c.toNat - 48 := by
  induction ds with
  | nil => rfl
  | cons c rest ih =>
      rw [List.filterMap_cons_some (digit_known c (all c List.mem_cons_self)), List.map_cons,
        ih fun other member => all other (List.mem_cons_of_mem _ member)]

theorem amount_known (ds : List Char) (all : ∀ c ∈ ds, c.isDigit = true) :
    Decimal.ofDigits (ds.filterMap Text.asciiDigit?) = amount ds := by
  rw [digits_known ds all, Decimal.ofDigits, List.foldl_map]
  rfl

theorem whole_digits (ds : List Char) (whole : Whole ds) : Digits ds := by
  rcases whole with rfl | ⟨digits, _⟩
  · exact ⟨List.cons_ne_nil _ _, List.forall_mem_singleton.mpr rfl⟩
  · exact digits

theorem digits_some (ds : List Char) (digits : Digits ds) :
    (ds.filterMap Text.asciiDigit?).isEmpty = false := by
  rw [digits_known ds digits.2]
  simpa using digits.1

theorem fraction_taken (fs : List Char) (f : Option (List Char)) (fraction_ : Fraction fs f) (rest : List Char)
    (ends : ∀ c more, rest = c :: more → c.isDigit = false ∧ c ≠ '.') :
    fraction (fs ++ rest) = (f.map (List.filterMap Text.asciiDigit?), rest) := by
  cases fraction_ with
  | none => exact fraction_none rest fun more same => (ends '.' more same).2 rfl
  | point ds digits =>
      rw [List.cons_append, fraction, digits_append ds rest digits.2 fun c more same => (ends c more same).1]
      simp only [digits_some ds digits, Bool.false_eq_true, if_false, Option.map_some]

theorem exponent_taken (es : List Char) (e : Option Int) (exponent_ : Exponent es e) (rest : List Char)
    (stops : Stops rest) : exponent (es ++ rest) = (e, rest) := by
  have ends : ∀ c more, rest = c :: more → c.isDigit = false := fun c more same => (stops c more same).1
  cases exponent_ with
  | none => exact exponent_none rest stops
  | plain mark ds marked digits =>
      obtain ⟨d, more, rfl⟩ := List.exists_cons_of_ne_nil digits.1
      have other : ∀ b : Char, b.isDigit = false → d ≠ b := by
        rintro b letter rfl
        rw [digits.2 d List.mem_cons_self] at letter
        cases letter
      rw [List.cons_append, exponent]
      · simp only [if_pos marked, digits_append (d :: more) rest digits.2 ends, digits_some (d :: more) digits,
          Bool.false_eq_true, if_false, amount_known (d :: more) digits.2]
      · intro after same
        exact other '+' rfl (List.cons.inj same).1
      · intro after same
        exact other '-' rfl (List.cons.inj same).1
  | plus mark ds marked digits =>
      simp only [List.cons_append, exponent, if_pos marked, digits_append ds rest digits.2 ends,
        digits_some ds digits, Bool.false_eq_true, if_false, amount_known ds digits.2]
  | minus mark ds marked digits =>
      simp only [List.cons_append, exponent, if_pos marked, digits_append ds rest digits.2 ends,
        digits_some ds digits, Bool.false_eq_true, if_false, amount_known ds digits.2]
      rfl

theorem exponent_ends (es : List Char) (e : Option Int) (exponent_ : Exponent es e) (rest : List Char)
    (stops : Stops rest) : ∀ c more, es ++ rest = c :: more → c.isDigit = false ∧ c ≠ '.' := by
  have marks : ∀ mark : Char, mark = 'e' ∨ mark = 'E' → mark.isDigit = false ∧ mark ≠ '.' := by
    rintro mark (rfl | rfl) <;> decide
  intro c more same
  cases exponent_ with
  | none =>
      obtain ⟨digit, point, _⟩ := stops c more same
      exact ⟨digit, point⟩
  | plain mark ds marked digits => exact (List.cons.inj same).1 ▸ marks mark marked
  | plus mark ds marked digits => exact (List.cons.inj same).1 ▸ marks mark marked
  | minus mark ds marked digits => exact (List.cons.inj same).1 ▸ marks mark marked

theorem fraction_ends (fs : List Char) (f : Option (List Char)) (fraction_ : Fraction fs f) (rest : List Char)
    (ends : ∀ c more, rest = c :: more → c.isDigit = false ∧ c ≠ '.') :
    ∀ c more, fs ++ rest = c :: more → c.isDigit = false := by
  intro c more same
  cases fraction_ with
  | none => exact (ends c more same).1
  | point ds digits =>
      rw [← (List.cons.inj same).1]
      decide

-- A whole number with too many digits.
def Excess (ds : List Char) (f : Option (List Char)) (e : Option Int) : Prop :=
  f = none ∧ e = none ∧ maxDigits < ds.length

instance (ds : List Char) (f : Option (List Char)) (e : Option Int) : Decidable (Excess ds f e) :=
  inferInstanceAs (Decidable (_ ∧ _))

theorem magnitude_taken (negative : Bool) (ds fs es : List Char) (f : Option (List Char)) (e : Option Int)
    (whole : Whole ds) (fraction_ : Fraction fs f) (exponent_ : Exponent es e) (rest : List Char)
    (stops : Stops rest) : magnitude negative (ds ++ (fs ++ (es ++ rest))) =
      if Excess ds f e then .error (.digits ds.length) else .ok (numeral negative ds f e, rest) := by
  have digits := whole_digits ds whole
  have after := exponent_ends es e exponent_ rest stops
  have read := digits_append ds _ digits.2 (fraction_ends fs f fraction_ _ after)
  unfold magnitude
  split
  rename_i values left valuesEq
  have parts : (values, left) = (ds.filterMap Text.asciiDigit?, fs ++ (es ++ rest)) := by
    rw [← valuesEq, ← read]
    split
    · rename_i zeroFirst
      rcases whole with rfl | ⟨_, nonzero⟩
      · have same : fs ++ (es ++ rest) = _ := (List.cons.inj zeroFirst).2
        rw [read, same]
        rfl
      · obtain ⟨d, more, rfl⟩ := List.exists_cons_of_ne_nil digits.1
        rw [(List.cons.inj zeroFirst).1] at nonzero
        exact (nonzero rfl).elim
    · rfl
  cases parts
  have long : (ds.filterMap Text.asciiDigit?).length = ds.length := by rw [digits_known ds digits.2, List.length_map]
  simp only [digits_some ds digits, Bool.false_eq_true, if_false, fraction_taken fs f fraction_ _ after,
    exponent_taken es e exponent_ rest stops]
  cases fraction_ with
  | none =>
      cases e with
      | none => simp only [Option.map_none, long, amount_known ds digits.2, numeral, Excess, true_and]
      | some e => simp [numeral, amount_known ds digits.2, Excess]
  | point more inside =>
      have all : ∀ c ∈ ds ++ more, c.isDigit = true := by
        intro c member
        rcases List.mem_append.mp member with first | second
        · exact digits.2 c first
        · exact inside.2 c second
      have whole := amount_known (ds ++ more) all
      rw [List.filterMap_append] at whole
      have size : (more.filterMap Text.asciiDigit?).length = more.length := by
        rw [digits_known more inside.2, List.length_map]
      simp [whole, size, numeral, Excess]

theorem number_taken (negative : Bool) (ds fs es : List Char) (f : Option (List Char)) (e : Option Int)
    (whole : Whole ds) (fraction_ : Fraction fs f) (exponent_ : Exponent es e) (rest : List Char)
    (stops : Stops rest) : atom (sign negative ++ (ds ++ (fs ++ es)) ++ rest) =
      if Excess ds f e then .error (.digits ds.length) else .ok (numeral negative ds f e, rest) := by
  have read := magnitude_taken negative ds fs es f e whole fraction_ exponent_ rest stops
  have digits := whole_digits ds whole
  obtain ⟨d, more, rfl⟩ := List.exists_cons_of_ne_nil digits.1
  obtain ⟨plain, signed⟩ := atom_digits d (more ++ (fs ++ (es ++ rest))) (digits.2 d List.mem_cons_self)
  simp only [List.append_assoc, List.cons_append] at read ⊢
  cases negative with
  | true =>
      simp only [sign, if_true, List.singleton_append, atom, signed]
      exact read
  | false =>
      simp only [sign, Bool.false_eq_true, if_false, List.nil_append, atom, plain]
      split
      · rename_i same
        have minus := digits.2 d List.mem_cons_self
        rw [(List.cons.inj same).1] at minus
        exact absurd minus (by decide)
      · exact read

/-! ### Values -/

mutual

-- What a text denotes whose whole numbers have no more digits than `size`. White space can
-- stand around items and around keys and values.
inductive Denotes (size : Nat) : List Char → Json → Prop where
  | null : Denotes size ['n', 'u', 'l', 'l'] .null
  | true : Denotes size ['t', 'r', 'u', 'e'] (.bool true)
  | false : Denotes size ['f', 'a', 'l', 's', 'e'] (.bool false)
  | number (negative : Bool) (ds fs es : List Char) (f : Option (List Char)) (e : Option Int) (whole : Whole ds)
      (fraction : Fraction fs f) (exponent : Exponent es e) (few : f = none → e = none → ds.length ≤ size) :
      Denotes size (sign negative ++ (ds ++ (fs ++ es))) (numeral negative ds f e)
  | str (cs : List Char) (s : String) (quoted : Quoted cs s) : Denotes size cs (.str s)
  | noItems (blanks : List Char) (blank : Blank blanks) : Denotes size ('[' :: (blanks ++ [']'])) (.arr [])
  | arr (cs : List Char) (xs : List Json) (inside : DenotesItems size cs xs) :
      Denotes size ('[' :: (cs ++ [']'])) (.arr xs)
  | noMembers (blanks : List Char) (blank : Blank blanks) :
      Denotes size ('\x7b' :: (blanks ++ ['\x7d'])) (.obj [])
  | obj (cs : List Char) (pairs : List (String × Json)) (inside : DenotesMembers size cs pairs) :
      Denotes size ('\x7b' :: (cs ++ ['\x7d'])) (.obj (Members.ofPairs pairs))

inductive DenotesItems (size : Nat) : List Char → List Json → Prop where
  | last (before cs after : List Char) (x : Json) (spaced : Blank before) (also : Blank after)
      (value : Denotes size cs x) : DenotesItems size (before ++ (cs ++ after)) [x]
  | more (before cs after others : List Char) (x : Json) (xs : List Json) (spaced : Blank before)
      (also : Blank after) (value : Denotes size cs x) (rest : DenotesItems size others xs) :
      DenotesItems size (before ++ (cs ++ (after ++ ',' :: others))) (x :: xs)

-- Members are pairs, in the order of the text and with keys that come again.
inductive DenotesMembers (size : Nat) : List Char → List (String × Json) → Prop where
  | last (before quote middle gap cs after : List Char) (key : String) (x : Json) (spaced : Blank before)
      (named : Quoted quote key) (between : Blank middle) (gapped : Blank gap) (value : Denotes size cs x)
      (also : Blank after) :
      DenotesMembers size (before ++ (quote ++ (middle ++ ':' :: (gap ++ (cs ++ after))))) [(key, x)]
  | more (before quote middle gap cs after others : List Char) (key : String) (x : Json)
      (pairs : List (String × Json)) (spaced : Blank before) (named : Quoted quote key) (between : Blank middle)
      (gapped : Blank gap) (value : Denotes size cs x) (also : Blank after)
      (rest : DenotesMembers size others pairs) :
      DenotesMembers size (before ++ (quote ++ (middle ++ ':' :: (gap ++ (cs ++ (after ++ ',' :: others))))))
        ((key, x) :: pairs)

end

theorem whole_denotes (ds : List Char) (whole : Whole ds) (size : Nat) (few : ds.length ≤ size) :
    Denotes size ds (.int (amount ds)) := by
  have denotes := Denotes.number false ds [] [] none none whole .none .none fun _ _ => few
  rwa [List.append_nil, List.append_nil] at denotes

theorem number_front (negative : Bool) (ds rest : List Char) (whole : Whole ds) :
    ∃ c more, sign negative ++ (ds ++ rest) = c :: more ∧ c ≠ '"' ∧ c ≠ '[' ∧ c ≠ '\x7b' := by
  have digits := whole_digits ds whole
  obtain ⟨d, more, rfl⟩ := List.exists_cons_of_ne_nil digits.1
  have other : ∀ b : Char, b.isDigit = false → d ≠ b := by
    rintro b letter rfl
    rw [digits.2 d List.mem_cons_self] at letter
    cases letter
  cases negative with
  | true => exact ⟨'-', _, rfl, by decide⟩
  | false => exact ⟨d, _, rfl, other _ rfl, other _ rfl, other _ rfl⟩

theorem denotes_front (size : Nat) (cs : List Char) (x : Json) (denotes : Denotes size cs x) :
    ∃ c more, cs = c :: more ∧ isSpace c = false ∧ c ≠ ']' := by
  cases denotes with
  | null => exact ⟨_, _, rfl, rfl, by decide⟩
  | true => exact ⟨_, _, rfl, rfl, by decide⟩
  | false => exact ⟨_, _, rfl, rfl, by decide⟩
  | number negative ds fs es f e whole fraction exponent few =>
      have digits := whole_digits ds whole
      obtain ⟨d, more, rfl⟩ := List.exists_cons_of_ne_nil digits.1
      cases negative with
      | true => exact ⟨'-', _, rfl, rfl, by decide⟩
      | false =>
          obtain ⟨visible, other⟩ := digit_visible d (digits.2 d List.mem_cons_self)
          exact ⟨d, _, rfl, visible, other⟩
  | str cs s quoted =>
      obtain ⟨inside, rfl, _⟩ := quoted_taken cs s quoted
      exact ⟨'"', _, rfl, rfl, by decide⟩
  | noItems blanks blank => exact ⟨_, _, rfl, rfl, by decide⟩
  | arr cs xs inside => exact ⟨_, _, rfl, rfl, by decide⟩
  | noMembers blanks blank => exact ⟨_, _, rfl, rfl, by decide⟩
  | obj cs pairs inside => exact ⟨_, _, rfl, rfl, by decide⟩

theorem denotes_visible (size : Nat) (cs : List Char) (x : Json) (denotes : Denotes size cs x) (rest : List Char) :
    skip (cs ++ rest) = cs ++ rest := by
  obtain ⟨c, more, rfl, visible, _⟩ := denotes_front size cs x denotes
  exact skip_visible c (more ++ rest) visible

-- Within brackets there is something that does not close them.
structure Opens (closing : Char) (cs : List Char) : Prop where
  found : ∃ blanks c more, cs = blanks ++ c :: more ∧ Blank blanks ∧ isSpace c = false ∧ c ≠ closing

theorem items_open (size : Nat) (cs : List Char) (xs : List Json) (denotes : DenotesItems size cs xs) :
    Opens ']' cs := by
  have start : ∀ before text after x, Blank before → Denotes size text x → Opens ']' (before ++ (text ++ after)) := by
    intro before text after x spaced value
    obtain ⟨c, more, rfl, visible, other⟩ := denotes_front size text x value
    exact ⟨before, c, more ++ after, rfl, spaced, visible, other⟩
  cases denotes with
  | last before text after x spaced also value => exact start before text after x spaced value
  | more before text after others x xs spaced also value rest => exact start before text _ x spaced value

theorem members_open (size : Nat) (cs : List Char) (pairs : List (String × Json))
    (denotes : DenotesMembers size cs pairs) : Opens '\x7d' cs := by
  have start : ∀ before quote after key, Blank before → Quoted quote key →
      Opens '\x7d' (before ++ (quote ++ after)) := by
    intro before quote after key spaced named
    obtain ⟨inside, rfl, _⟩ := quoted_taken quote key named
    exact ⟨before, '"', inside ++ after, rfl, spaced, rfl, by decide⟩
  cases denotes with
  | last before quote middle gap text after key x spaced named between gapped value also =>
      exact start before quote _ key spaced named
  | more before quote middle gap text after others key x pairs spaced named between gapped value also rest =>
      exact start before quote _ key spaced named

theorem opens_skip (closing : Char) (cs rest : List Char) (opens : Opens closing cs) :
    ∃ c more, skip (cs ++ rest) = c :: more ∧ c ≠ closing ∧ skip (c :: more) = skip (cs ++ rest) := by
  obtain ⟨blanks, c, more, rfl, blank, visible, other⟩ := opens.found
  have front : skip (blanks ++ c :: more ++ rest) = c :: (more ++ rest) := by
    rw [List.append_assoc, skip_blank blanks _ blank, List.cons_append, skip_visible c _ visible]
  exact ⟨c, more ++ rest, front, other, by rw [front, skip_visible c _ visible]⟩

section

variable (size : Nat)

-- What each of the three readers takes, with some fuel.
def TakesValue (fuel : Nat) : Prop :=
  ∀ text x d cs rest, Denotes size text x → Stops rest → skip cs = text ++ rest → 2 * text.length ≤ fuel →
    value .free fuel d cs = .ok (x, rest)

def TakesItems (fuel : Nat) : Prop :=
  ∀ text xs d cs rest acc, DenotesItems size text xs → skip cs = skip (text ++ ']' :: rest) →
    2 * text.length + 1 ≤ fuel → items .free fuel d cs acc = .ok (acc.reverse ++ xs, rest)

def TakesMembers (fuel : Nat) : Prop :=
  ∀ text pairs d cs rest acc, DenotesMembers size text pairs → skip cs = skip (text ++ '\x7d' :: rest) →
    2 * text.length + 1 ≤ fuel →
    members .free fuel d cs acc = .ok (pairs.foldl (fun ms p => Members.put p.1 p.2 ms) acc, rest)

theorem array_taken (fuel : Nat) (inside : List Char) (xs : List Json) (d : Nat) (cs rest : List Char)
    (takes : TakesItems size fuel) (denotes : DenotesItems size inside xs)
    (front : skip cs = '[' :: (inside ++ ']' :: rest)) (enough : 2 * inside.length + 1 ≤ fuel) :
    value .free (fuel + 1) d cs = .ok (.arr xs, rest) := by
  obtain ⟨c, more, start, other, again⟩ := opens_skip ']' inside (']' :: rest) (items_open size inside xs denotes)
  have allowed : Rules.free.allows d = true := rfl
  rw [value, front]
  simp only [allowed, if_true, start]
  split
  · rename_i closed
    exact (other (List.cons.inj closed).1).elim
  · rw [takes inside xs (d + 1) (c :: more) rest [] denotes again enough]
    rfl

theorem object_taken (fuel : Nat) (inside : List Char) (pairs : List (String × Json)) (d : Nat) (cs rest : List Char)
    (takes : TakesMembers size fuel) (denotes : DenotesMembers size inside pairs)
    (front : skip cs = '\x7b' :: (inside ++ '\x7d' :: rest)) (enough : 2 * inside.length + 1 ≤ fuel) :
    value .free (fuel + 1) d cs = .ok (.obj (Members.ofPairs pairs), rest) := by
  obtain ⟨c, more, start, other, again⟩ :=
    opens_skip '\x7d' inside ('\x7d' :: rest) (members_open size inside pairs denotes)
  have allowed : Rules.free.allows d = true := rfl
  rw [value, front]
  simp only [allowed, if_true, start]
  split
  · rename_i closed
    exact (other (List.cons.inj closed).1).elim
  · rw [takes inside pairs (d + 1) (c :: more) rest [] denotes again enough]
    rfl

theorem atom_taken (fuel d : Nat) (cs : List Char) (c : Char) (text rest : List Char) (x : Json)
    (front : skip cs = c :: text ++ rest) (other : c ≠ '"' ∧ c ≠ '[' ∧ c ≠ '\x7b')
    (read : atom (c :: text ++ rest) = .ok (x, rest)) : value .free (fuel + 1) d cs = .ok (x, rest) :=
  (value_atom .free fuel d cs c _ front other.1 other.2.1 other.2.2).trans read

theorem items_taken (fuel : Nat) (inValue : TakesValue size fuel) (inItems : TakesItems size fuel) :
    TakesItems size (fuel + 1) := by
  intro text xs d cs rest acc denotes front enough
  cases denotes with
  | last before text after x spaced also value =>
      simp only [List.append_assoc, List.length_append] at front enough
      rw [skip_blank before _ spaced, denotes_visible size text x value] at front
      have stops : Stops (after ++ ']' :: rest) := blank_stops after _ also (closing_stops ']' rest (by decide))
      rw [items, inValue text x d cs _ value stops front (by omega)]
      simp only [skip_blank after _ also, skip_visible ']' rest rfl, List.reverse_cons]
  | more before text after others x xs spaced also value later =>
      simp only [List.append_assoc, List.cons_append, List.length_append, List.length_cons] at front enough
      rw [skip_blank before _ spaced, denotes_visible size text x value] at front
      have stops : Stops (after ++ ',' :: (others ++ ']' :: rest)) :=
        blank_stops after _ also (closing_stops ',' _ (by decide))
      rw [items, inValue text x d cs _ value stops front (by omega)]
      simp only [skip_blank after _ also, skip_visible ',' _ rfl]
      rw [inItems others xs d _ rest (x :: acc) later rfl (by omega)]
      simp

theorem members_taken (fuel : Nat) (inValue : TakesValue size fuel) (inMembers : TakesMembers size fuel) :
    TakesMembers size (fuel + 1) := by
  intro text pairs d cs rest acc denotes front enough
  cases denotes with
  | last before quote middle gap text after key x spaced named between gapped value also =>
      obtain ⟨inside, rfl, read⟩ := quoted_taken quote key named
      simp only [List.append_assoc, List.cons_append, List.length_append, List.length_cons] at front enough
      rw [skip_blank before _ spaced, skip_visible '"' _ rfl] at front
      have stops : Stops (after ++ '\x7d' :: rest) := blank_stops after _ also (closing_stops '\x7d' rest (by decide))
      have valued : skip (gap ++ (text ++ (after ++ '\x7d' :: rest))) = text ++ (after ++ '\x7d' :: rest) := by
        rw [skip_blank gap _ gapped, denotes_visible size text x value]
      rw [members, front]
      simp only [read, skip_blank middle _ between, skip_visible ':' _ rfl]
      rw [inValue text x d _ _ value stops valued (by omega)]
      simp only [skip_blank after _ also, skip_visible '\x7d' rest rfl, List.foldl_cons, List.foldl_nil]
  | more before quote middle gap text after others key x pairs spaced named between gapped value also later =>
      obtain ⟨inside, rfl, read⟩ := quoted_taken quote key named
      simp only [List.append_assoc, List.cons_append, List.length_append, List.length_cons] at front enough
      rw [skip_blank before _ spaced, skip_visible '"' _ rfl] at front
      have stops : Stops (after ++ ',' :: (others ++ '\x7d' :: rest)) :=
        blank_stops after _ also (closing_stops ',' _ (by decide))
      have valued : skip (gap ++ (text ++ (after ++ ',' :: (others ++ '\x7d' :: rest)))) =
          text ++ (after ++ ',' :: (others ++ '\x7d' :: rest)) := by
        rw [skip_blank gap _ gapped, denotes_visible size text x value]
      rw [members, front]
      simp only [read, skip_blank middle _ between, skip_visible ':' _ rfl]
      rw [inValue text x d _ _ value stops valued (by omega)]
      simp only [skip_blank after _ also, skip_visible ',' _ rfl]
      exact inMembers others pairs d _ rest (Members.put key x acc) later rfl (by omega)

variable (few : size ≤ maxDigits)

include few

theorem value_taken (fuel : Nat) (inItems : TakesItems size fuel) (inMembers : TakesMembers size fuel) :
    TakesValue size (fuel + 1) := by
  intro text x d cs rest denotes stops front enough
  cases denotes with
  | null => exact atom_taken fuel d cs 'n' _ rest .null front (by decide) (null_reads rest)
  | true => exact atom_taken fuel d cs 't' _ rest (.bool true) front (by decide) (true_reads rest)
  | false => exact atom_taken fuel d cs 'f' _ rest (.bool false) front (by decide) (false_reads rest)
  | number negative ds fs es f e whole fraction exponent short =>
      have read := number_taken negative ds fs es f e whole fraction exponent rest stops
      have fits : ¬ Excess ds f e := by
        rintro ⟨plain, also, long⟩
        have less := short plain also
        omega
      rw [if_neg fits] at read
      obtain ⟨c, more, same, other⟩ := number_front negative ds (fs ++ es) whole
      rw [same] at front read
      exact atom_taken fuel d cs c more rest _ front other read
  | str text s quoted =>
      obtain ⟨inside, rfl, read⟩ := quoted_taken text s quoted
      rw [value, front]
      simp only [List.cons_append, read]
  | noItems blanks blank =>
      have closed : skip (blanks ++ ']' :: rest) = ']' :: rest := by
        rw [skip_blank blanks _ blank, skip_visible ']' rest rfl]
      have allowed : Rules.free.allows d = true := rfl
      simp only [List.cons_append, List.append_assoc, List.nil_append] at front
      rw [value, front]
      simp only [allowed, if_true, closed]
  | arr inside xs denotes =>
      simp only [List.cons_append, List.append_assoc, List.nil_append, List.length_cons, List.length_append,
        List.length_nil] at front enough
      exact array_taken size fuel inside xs d cs rest inItems denotes front (by omega)
  | noMembers blanks blank =>
      have closed : skip (blanks ++ '\x7d' :: rest) = '\x7d' :: rest := by
        rw [skip_blank blanks _ blank, skip_visible '\x7d' rest rfl]
      have allowed : Rules.free.allows d = true := rfl
      simp only [List.cons_append, List.append_assoc, List.nil_append] at front
      rw [value, front]
      simp only [allowed, if_true, closed]
  | obj inside pairs denotes =>
      simp only [List.cons_append, List.append_assoc, List.nil_append, List.length_cons, List.length_append,
        List.length_nil] at front enough
      exact object_taken size fuel inside pairs d cs rest inMembers denotes front (by omega)

theorem all_taken (fuel : Nat) : TakesValue size fuel ∧ TakesItems size fuel ∧ TakesMembers size fuel := by
  induction fuel with
  | zero =>
      refine ⟨?_, ?_, ?_⟩
      · intro text x d cs rest denotes stops front enough
        obtain ⟨c, more, rfl, _⟩ := denotes_front size text x denotes
        rw [List.length_cons] at enough
        omega
      · intro text xs d cs rest acc denotes front enough
        omega
      · intro text pairs d cs rest acc denotes front enough
        omega
  | succ fuel ih =>
      exact ⟨value_taken size few fuel ih.2.1 ih.2.2, items_taken size fuel ih.1 ih.2.1,
        members_taken size fuel ih.1 ih.2.2⟩

-- Every text is read as what it denotes, with white space before and after it.
theorem text_read (text : List Char) (x : Json) (denotes : Denotes size text x) (before after : List Char)
    (spaced : Blank before) (also : Blank after) : readChars .free (before ++ (text ++ after)) = .ok x := by
  have front : skip (before ++ (text ++ after)) = text ++ after := by
    rw [skip_blank before _ spaced, denotes_visible size text x denotes]
  have ends : Stops after := by
    have stops := blank_stops after [] also fun c more same => by cases same
    rwa [List.append_nil] at stops
  have closed : skip after = [] := by
    have none := skip_blank after [] also
    rwa [List.append_nil] at none
  have read := (all_taken size few _).1 text x 0 _ after denotes ends front
    (show 2 * text.length ≤ 2 * (before ++ (text ++ after)).length + 2 by simp only [List.length_append]; omega)
  rw [readChars, read]
  simp only [closed, List.isEmpty_nil, if_true]

end

/-! ### Octets -/

def objectText (before inside after : List Char) : List Char :=
  before ++ ('\x7b' :: (inside ++ ['\x7d']) ++ after)

theorem blank_ascii (blanks : List Char) (c : Char) (rest : List Char) (blank : Blank blanks) (ascii : Ascii c) :
    ∃ d more, blanks ++ c :: rest = d :: more ∧ Ascii d := by
  cases blanks with
  | nil => exact ⟨c, rest, rfl, ascii⟩
  | cons d more => exact ⟨d, more ++ c :: rest, rfl, leading_ascii d (.inl (blank d List.mem_cons_self))⟩

theorem members_ascii (size : Nat) (cs : List Char) (pairs : List (String × Json))
    (denotes : DenotesMembers size cs pairs) (rest : List Char) : ∃ d more, cs ++ rest = d :: more ∧ Ascii d := by
  have quote : Ascii '"' := ⟨by decide, by decide⟩
  cases denotes with
  | last before text middle gap value after key x spaced named between gapped value' also =>
      obtain ⟨inside, rfl, _⟩ := quoted_taken text key named
      simp only [List.append_assoc, List.cons_append]
      exact blank_ascii before '"' _ spaced quote
  | more before text middle gap value after others key x pairs spaced named between gapped value' also later =>
      obtain ⟨inside, rfl, _⟩ := quoted_taken text key named
      simp only [List.append_assoc, List.cons_append]
      exact blank_ascii before '"' _ spaced quote

theorem object_decoded (size : Nat) (inside : List Char) (pairs : List (String × Json))
    (denotes : DenotesMembers size inside pairs) (before after : List Char) (spaced : Blank before) :
    decode? (Text.utf8 (String.ofList (objectText before inside after))) = some (objectText before inside after) := by
  have bracket : Leading '\x7b' := .inr (.inr rfl)
  have front : ∃ c d rest, objectText before inside after = c :: d :: rest ∧ Leading c ∧ Ascii d := by
    cases before with
    | nil =>
        obtain ⟨d, more, start, ascii⟩ := members_ascii size inside pairs denotes ('\x7d' :: after)
        refine ⟨'\x7b', d, more, ?_, bracket, ascii⟩
        rw [← start]
        simp [objectText]
    | cons c blanks =>
        obtain ⟨d, more, start, ascii⟩ := blank_ascii blanks '\x7b' (inside ++ ['\x7d'] ++ after)
          (fun b member => spaced b (List.mem_cons_of_mem _ member)) (leading_ascii _ bracket)
        refine ⟨c, d, more, ?_, .inl (spaced c List.mem_cons_self), ascii⟩
        rw [← start]
        rfl
  obtain ⟨c, d, rest, chars, leading, second⟩ := front
  have decoded := text_decoded (String.ofList (objectText before inside after)) c d rest
    (by rw [String.toList_ofList, chars]) leading second
  rwa [String.toList_ofList] at decoded

-- An object in octets is read as its members, of which the last one under a name counts.
theorem object_read (size : Nat) (few : size ≤ maxDigits) (inside : List Char) (pairs : List (String × Json))
    (denotes : DenotesMembers size inside pairs) (before after : List Char) (spaced : Blank before)
    (also : Blank after) :
    ofBytes (Text.utf8 (String.ofList (objectText before inside after))) = .ok (.obj (Members.ofPairs pairs)) := by
  rw [ofBytes, object_decoded size inside pairs denotes before after spaced]
  exact text_read size few _ _ (.obj inside pairs denotes) before after spaced also

end HostingAdmin.Json
