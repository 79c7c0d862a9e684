import HostingAdmin.Json.Reader
import HostingAdmin.Json.Writer

set_option autoImplicit false

namespace HostingAdmin.Json

theorem scan_plain (c : Char) (rest : List Char) (acc : List Nat) (quote : c ≠ '"') (slash : c ≠ '\\')
    (visible : 0x20 ≤ c.toNat) : scan (c :: rest) acc = scan rest (c.toNat :: acc) := by
  have allowed : ¬ (c.toNat < 0x20 ∨ c = '\\') := by
    rintro (low | same)
    · omega
    · exact slash same
  rw [scan.eq_4, if_neg allowed]
  · exact quote
  · intro a b x y more same
    exact (slash same).elim
  · intro d more same
    exact (slash same).elim

theorem hex_digit_read : ∀ n < 16, Text.hexDigit? (Text.hexDigit n) = some n := by
  decide

theorem scan_unit (u : Nat) (rest : List Char) (acc : List Nat) (small : u < 0x10000) :
    scan (unitEscape u ++ rest) acc = scan rest (u :: acc) := by
  have digits : Text.hex 4 u = [Text.hexDigit (u / 16 / 16 / 16 % 16), Text.hexDigit (u / 16 / 16 % 16),
      Text.hexDigit (u / 16 % 16), Text.hexDigit (u % 16)] := rfl
  have read : hex4? (Text.hexDigit (u / 16 / 16 / 16 % 16)) (Text.hexDigit (u / 16 / 16 % 16))
      (Text.hexDigit (u / 16 % 16)) (Text.hexDigit (u % 16)) = some u := by
    rw [hex4?]
    rw [hex_digit_read _ (by omega), hex_digit_read _ (by omega), hex_digit_read _ (by omega),
      hex_digit_read _ (by omega)]
    simp only [Option.some.injEq]
    omega
  rw [unitEscape, digits]
  simp only [List.cons_append, List.nil_append]
  rw [scan, read]

theorem scan_short (c : Char) (e : List Char) (rest : List Char) (acc : List Nat) (short : shortEscape? c = some e) :
    scan (e ++ rest) acc = scan rest (c.toNat :: acc) := by
  unfold shortEscape? at short
  split at short
  all_goals first
    | cases short
      rw [List.cons_append, List.cons_append, List.nil_append, scan]
      · rfl
      · intro a b x y more same
        cases same
    | cases short

theorem short_low (c : Char) (e : List Char) (short : shortEscape? c = some e) : c.toNat < 0x10000 := by
  unfold shortEscape? at short
  split at short
  all_goals first
    | decide
    | cases short

theorem short_none (c : Char) (plain : shortEscape? c = none) : c ≠ '"' ∧ c ≠ '\\' := by
  constructor
  · rintro rfl
    cases plain
  · rintro rfl
    cases plain

-- The code points that a character is written with: a half pair each beyond
-- the first plane.
def units (c : Char) : List Nat :=
  if c.toNat < 0x10000 then [c.toNat]
  else [0xD800 + (c.toNat - 0x10000) / 0x400, 0xDC00 + (c.toNat - 0x10000) % 0x400]

-- Characters written by `char` are read as the code points of `codes`, and
-- those join to the same characters again.
structure Spells (char : Char → List Char) (codes : Char → List Nat) : Prop where
  scanned : ∀ c rest acc, scan (char c ++ rest) acc = scan rest ((codes c).reverse ++ acc)
  joined : ∀ r c rest, joinPairs r (codes c ++ rest) = (joinPairs r rest).map (c :: ·)

theorem char_bound (c : Char) : c.toNat < 0xD800 ∨ 0xDFFF < c.toNat ∧ c.toNat < 0x110000 := c.valid

theorem single_char (r : Rules) (c : Char) : single r c.toNat = some c := by
  have bound := char_bound c
  have whole : ¬ (0xD800 ≤ c.toNat ∧ c.toNat < 0xE000) := by omega
  rw [single, if_neg whole, Char.ofNat_toNat]

theorem join_single (r : Rules) (c : Char) (rest : List Nat) :
    joinPairs r (c.toNat :: rest) = (joinPairs r rest).map (c :: ·) := by
  have bound := char_bound c
  cases rest with
  | nil => simp [joinPairs, single_char]
  | cons v more =>
      have whole : ¬ (0xD800 ≤ c.toNat ∧ c.toNat < 0xDC00 ∧ 0xDC00 ≤ v ∧ v < 0xE000) := by omega
      rw [joinPairs, if_neg whole, single_char]

theorem join_pair (r : Rules) (c : Char) (rest : List Nat) (beyond : 0x10000 ≤ c.toNat) :
    joinPairs r ((0xD800 + (c.toNat - 0x10000) / 0x400) :: (0xDC00 + (c.toNat - 0x10000) % 0x400) :: rest) =
      (joinPairs r rest).map (c :: ·) := by
  have bound := char_bound c
  have pair : 0xD800 ≤ 0xD800 + (c.toNat - 0x10000) / 0x400 ∧ 0xD800 + (c.toNat - 0x10000) / 0x400 < 0xDC00 ∧
      0xDC00 ≤ 0xDC00 + (c.toNat - 0x10000) % 0x400 ∧ 0xDC00 + (c.toNat - 0x10000) % 0x400 < 0xE000 := by
    omega
  have code : 0x10000 + (0xD800 + (c.toNat - 0x10000) / 0x400 - 0xD800) * 0x400 +
      (0xDC00 + (c.toNat - 0x10000) % 0x400 - 0xDC00) = c.toNat := by
    omega
  rw [joinPairs, if_pos pair, code, Char.ofNat_toNat]

theorem ascii_scanned (c : Char) (rest : List Char) (acc : List Nat) :
    scan (asciiChar c ++ rest) acc = scan rest ((units c).reverse ++ acc) := by
  have bound := char_bound c
  unfold asciiChar units
  cases shortEq : shortEscape? c with
  | some e =>
      rw [if_pos (short_low c e shortEq)]
      exact scan_short c e rest acc shortEq
  | none =>
      obtain ⟨quote, slash⟩ := short_none c shortEq
      dsimp only
      by_cases printable : 0x20 ≤ c.toNat ∧ c.toNat < 0x7F
      · rw [if_pos printable, if_pos (by omega)]
        exact scan_plain c rest acc quote slash printable.1
      · rw [if_neg printable]
        by_cases low : c.toNat < 0x10000
        · rw [if_pos low, if_pos low]
          exact scan_unit c.toNat rest acc low
        · rw [if_neg low, if_neg low, List.append_assoc, scan_unit _ _ _ (by omega), scan_unit _ _ _ (by omega)]
          rfl

theorem ascii_spells : Spells asciiChar units where
  scanned := ascii_scanned
  joined := by
    intro r c rest
    rw [units]
    by_cases low : c.toNat < 0x10000
    · rw [if_pos low]
      exact join_single r c rest
    · rw [if_neg low]
      exact join_pair r c rest (by omega)

theorem unicode_spells : Spells unicodeChar fun c => [c.toNat] where
  scanned := by
    intro c rest acc
    rw [unicodeChar]
    cases shortEq : shortEscape? c with
    | some e => exact scan_short c e rest acc shortEq
    | none =>
        obtain ⟨quote, slash⟩ := short_none c shortEq
        dsimp only
        by_cases control : c.toNat < 0x20
        · rw [if_pos control]
          exact scan_unit c.toNat rest acc (by omega)
        · rw [if_neg control]
          exact scan_plain c rest acc quote slash (by omega)
  joined := join_single

theorem scan_string (char : Char → List Char) (codes : Char → List Nat) (spells : Spells char codes)
    (chars rest : List Char) (acc : List Nat) :
    scan (chars.flatMap char ++ '"' :: rest) acc = .ok (acc.reverse ++ chars.flatMap codes, rest) := by
  induction chars generalizing acc with
  | nil => simp [scan]
  | cons c more ih =>
      rw [List.flatMap_cons, List.append_assoc, spells.scanned, ih]
      simp

theorem join_string (char : Char → List Char) (codes : Char → List Nat) (spells : Spells char codes) (r : Rules)
    (chars : List Char) : joinPairs r (chars.flatMap codes) = some chars := by
  induction chars with
  | nil => rfl
  | cons c more ih => rw [List.flatMap_cons, spells.joined, ih, Option.map_some]

theorem string_reads (char : Char → List Char) (codes : Char → List Nat) (spells : Spells char codes) (r : Rules)
    (s : String) (rest : List Char) : string r (s.toList.flatMap char ++ '"' :: rest) = .ok (s, rest) := by
  have joined := join_string char codes spells r s.toList
  simp only [string, scan_string char codes spells, List.reverse_nil, List.nil_append, joined, String.ofList_toList]

end HostingAdmin.Json
