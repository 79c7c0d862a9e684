import HostingAdmin.Json.Reader
import HostingAdmin.Json.Writer

set_option autoImplicit false

namespace HostingAdmin.Json

theorem digit_char_read : ∀ d < 10, Text.asciiDigit? (Nat.digitChar d) = some d := by
  decide

theorem digits_value (n : Nat) : Decimal.ofDigits ((Nat.toDigits 10 n).filterMap Text.asciiDigit?) = n := by
  induction n using Nat.strongRecOn with
  | ind n ih =>
      rw [Nat.toDigits_eq_if (by decide)]
      by_cases small : n < 10
      · rw [if_pos small]
        simp [digit_char_read n small, Decimal.ofDigits]
      · have before := ih (n / 10) (by omega)
        have last := digit_char_read (n % 10) (by omega)
        rw [if_neg small, List.filterMap_append, List.filterMap_cons_some last, List.filterMap_nil]
        unfold Decimal.ofDigits at before ⊢
        rw [List.foldl_append, before, List.foldl_cons, List.foldl_nil]
        omega

theorem digits_all (n : Nat) : ∀ c ∈ Nat.toDigits 10 n, c.isDigit = true := by
  intro c member
  exact Nat.isDigit_of_mem_toDigits (by decide) (by decide) member

theorem digits_length (n : Nat) :
    ((Nat.toDigits 10 n).filterMap Text.asciiDigit?).length = (Nat.toDigits 10 n).length := by
  induction n using Nat.strongRecOn with
  | ind n ih =>
      rw [Nat.toDigits_eq_if (by decide)]
      by_cases small : n < 10
      · rw [if_pos small]
        simp [digit_char_read n small]
      · have last := digit_char_read (n % 10) (by omega)
        rw [if_neg small, List.filterMap_append, List.filterMap_cons_some last, List.length_append,
          List.length_append, ih (n / 10) (by omega)]
        rfl

theorem nonzero_digit : ∀ d < 10, 0 < d → (Nat.digitChar d).isDigit = true ∧ Nat.digitChar d ≠ '0' := by
  decide

theorem leading_digit (n : Nat) (positive : 0 < n) :
    ∃ d more, Nat.toDigits 10 n = d :: more ∧ d.isDigit = true ∧ d ≠ '0' := by
  induction n using Nat.strongRecOn with
  | ind n ih =>
      rw [Nat.toDigits_eq_if (by decide)]
      by_cases small : n < 10
      · rw [if_pos small]
        exact ⟨_, _, rfl, (nonzero_digit n small positive).1, (nonzero_digit n small positive).2⟩
      · obtain ⟨d, more, split, digit, nonzero⟩ := ih (n / 10) (by omega) (by omega)
        rw [if_neg small, split]
        exact ⟨d, _, rfl, digit, nonzero⟩

-- What may follow a whole number without becoming part of it.
def Stops (rest : List Char) : Prop :=
  ∀ c more, rest = c :: more → c.isDigit = false ∧ c ≠ '.' ∧ c ≠ 'e' ∧ c ≠ 'E'

theorem digits_append (ds rest : List Char) (all : ∀ c ∈ ds, c.isDigit = true)
    (ends : ∀ c more, rest = c :: more → c.isDigit = false) :
    digits (ds ++ rest) = (ds.filterMap Text.asciiDigit?, rest) := by
  have none_more : rest.takeWhile Char.isDigit = [] ∧ rest.dropWhile Char.isDigit = rest := by
    cases rest with
    | nil => exact ⟨rfl, rfl⟩
    | cons c more =>
        have other := ends c more rfl
        simp [other]
  rw [digits, List.takeWhile_append_of_pos all, List.dropWhile_append_of_pos all, none_more.1, none_more.2,
    List.append_nil]

theorem digits_read (n : Nat) (rest : List Char) (stops : Stops rest) :
    digits (Nat.toDigits 10 n ++ rest) = ((Nat.toDigits 10 n).filterMap Text.asciiDigit?, rest) :=
  digits_append _ rest (digits_all n) fun c more same => (stops c more same).1

theorem fraction_none (rest : List Char) (apart : ∀ more, rest ≠ '.' :: more) : fraction rest = (none, rest) := by
  unfold fraction
  split
  · rename_i more
    exact (apart more rfl).elim
  · rfl

theorem stops_apart (rest : List Char) (stops : Stops rest) : ∀ more, rest ≠ '.' :: more :=
  fun more same => (stops '.' more same).2.1 rfl

theorem exponent_none (rest : List Char) (stops : Stops rest) : exponent rest = (none, rest) := by
  cases rest with
  | nil => rfl
  | cons c more =>
      obtain ⟨_, _, small, large⟩ := stops c more rfl
      have other : ¬ (c = 'e' ∨ c = 'E') := not_or.mpr ⟨small, large⟩
      unfold exponent
      split
      all_goals
        rename_i same
        cases same
      all_goals rw [if_neg other]

theorem magnitude_reads (negative : Bool) (n : Nat) (rest : List Char) (stops : Stops rest)
    (short : (Nat.toDigits 10 n).length ≤ maxDigits) :
    magnitude negative (Nat.toDigits 10 n ++ rest) = .ok (.int (if negative then -(n : Int) else n), rest) := by
  have some_digit : ((Nat.toDigits 10 n).filterMap Text.asciiDigit?).isEmpty = false := by
    rw [← Bool.not_eq_true, List.isEmpty_iff_length_eq_zero, digits_length]
    have positive := Nat.length_toDigits_pos (b := 10) (n := n)
    omega
  have few : ¬ maxDigits < ((Nat.toDigits 10 n).filterMap Text.asciiDigit?).length := by
    rw [digits_length]
    omega
  by_cases zero : n = 0
  · subst zero
    simp only [magnitude, Nat.toDigits_zero, List.cons_append, List.nil_append, fraction_none rest (stops_apart rest stops),
      exponent_none rest stops]
    rfl
  · obtain ⟨d, more, front, _, nonzero⟩ := leading_digit n (by omega)
    have read := digits_read n rest stops
    unfold magnitude
    split
    rename_i whole after wholeEq
    have parts : (whole, after) = ((Nat.toDigits 10 n).filterMap Text.asciiDigit?, rest) := by
      rw [← wholeEq, ← read]
      split
      · rename_i zeroFirst
        rw [front, List.cons_append] at zeroFirst
        exact (nonzero (List.cons.inj zeroFirst).1).elim
      · rfl
    cases parts
    simp only [some_digit, Bool.false_eq_true, if_false, fraction_none rest (stops_apart rest stops), exponent_none rest stops,
      if_neg few, digits_value]

theorem word_other (c d : Char) (word more : List Char) (other : c ≠ d) :
    List.isPrefixOf? (c :: word) (d :: more) = none :=
  if_neg (by simpa using other)

theorem word_same (c : Char) (word more : List Char) :
    List.isPrefixOf? (c :: word) (c :: more) = List.isPrefixOf? word more :=
  if_pos (by simp)

theorem atom_digits (d : Char) (more : List Char) (digit : d.isDigit = true) :
    (words.findSome? fun w => (word? w.1 (d :: more)).map fun rest => (w.2, rest)) = none ∧
    (words.findSome? fun w => (word? w.1 ('-' :: d :: more)).map fun rest => (w.2, rest)) = none := by
  have other : ∀ c : Char, c.isDigit = false → c ≠ d := by
    rintro c letter rfl
    rw [digit] at letter
    cases letter
  have n := other 'n' rfl
  have t := other 't' rfl
  have f := other 'f' rfl
  have nan := other 'N' rfl
  have i := other 'I' rfl
  have minus := other '-' rfl
  constructor <;> simp [words, word?, word_other, word_same, n, t, f, nan, i, minus]

theorem int_chars (n : Int) :
    (toString n).toList = (if n < 0 then ['-'] else []) ++ Nat.toDigits 10 n.natAbs := by
  rw [Int.toString_eq_repr, Int.repr_eq_if]
  by_cases positive : 0 ≤ n
  · rw [if_pos positive, if_neg (by omega), Nat.toList_repr, List.nil_append]
    congr 1
    omega
  · rw [if_neg positive, if_pos (by omega), String.toList_append, Nat.toList_repr]
    have same : (-n).toNat = n.natAbs := by omega
    rw [same]
    rfl

theorem atom_reads (n : Int) (rest : List Char) (stops : Stops rest)
    (short : (Nat.toDigits 10 n.natAbs).length ≤ maxDigits) :
    atom ((toString n).toList ++ rest) = .ok (.int n, rest) := by
  obtain ⟨d, more, front, digit⟩ : ∃ d more, Nat.toDigits 10 n.natAbs = d :: more ∧ d.isDigit = true := by
    cases digitsEq : Nat.toDigits 10 n.natAbs with
    | nil =>
        have positive := Nat.length_toDigits_pos (b := 10) (n := n.natAbs)
        simp [digitsEq] at positive
    | cons d more => exact ⟨d, more, rfl, digits_all n.natAbs d (by simp [digitsEq])⟩
  obtain ⟨plain, signed⟩ := atom_digits d (more ++ rest) digit
  rw [int_chars]
  by_cases negative : n < 0
  · have read := magnitude_reads true n.natAbs rest stops short
    rw [if_pos negative]
    rw [front] at read ⊢
    simp only [List.cons_append, List.nil_append] at read ⊢
    simp only [atom, signed, read, if_true]
    have value : -(n.natAbs : Int) = n := by omega
    rw [value]
  · have read := magnitude_reads false n.natAbs rest stops short
    rw [if_neg negative]
    rw [front] at read ⊢
    simp only [List.cons_append, List.nil_append] at read ⊢
    have minus : d ≠ '-' := by
      rintro rfl
      cases digit
    have value : (n.natAbs : Int) = n := by omega
    simp only [atom, plain]
    split
    · rename_i same
      exact (minus (List.cons.inj same).1).elim
    · rw [read, value]
      rfl

end HostingAdmin.Json
