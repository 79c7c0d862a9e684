import HostingAdmin.Base64

set_option autoImplicit false

namespace HostingAdmin.Base64

theorem letter_value : ∀ v < 64, value? (letter v) = some v := by
  decide

theorem letter_plain : ∀ v < 64, letter v ≠ '=' ∧ letter v ≠ '.' ∧ (letter v).toNat < 128 := by
  decide

theorem value_step (g : Group) (read : Bytes) (c : Char) (v : Nat) (rest : List Char) (other : c ≠ '=')
    (known : value? c = some v) :
    decodeFrom g read (c :: rest) = decodeFrom (g.add v).2 ((g.add v).1.toList ++ read) rest := by
  rw [decodeFrom, if_neg other, known]

theorem letter_step (g : Group) (read : Bytes) (v : Nat) (rest : List Char) (small : v < 64) :
    decodeFrom g read (letter v :: rest) = decodeFrom (g.add v).2 ((g.add v).1.toList ++ read) rest :=
  value_step g read _ v rest (letter_plain v small).1 (letter_value v small)

theorem octet_whole (a : UInt8) (n : Nat) (same : n = a.toNat) : UInt8.ofNat n = a := by
  rw [same, UInt8.ofNat_toNat]

theorem three_read (a b c : UInt8) (read : Bytes) (rest : List Char) :
    decodeFrom ⟨0, 0, 0⟩ read (letter (a.toNat / 4) :: letter (a.toNat % 4 * 16 + b.toNat / 16) ::
      letter (b.toNat % 16 * 4 + c.toNat / 64) :: letter (c.toNat % 64) :: rest) =
      decodeFrom ⟨0, 0, 0⟩ (c :: b :: a :: read) rest := by
  have first := a.toNat_lt
  have second := b.toNat_lt
  have third := c.toNat_lt
  have atA : UInt8.ofNat (a.toNat / 4 * 4 + (a.toNat % 4 * 16 + b.toNat / 16) / 16) = a :=
    octet_whole a _ (by omega)
  have atB : UInt8.ofNat ((a.toNat % 4 * 16 + b.toNat / 16) % 16 * 16 + (b.toNat % 16 * 4 + c.toNat / 64) / 4) = b :=
    octet_whole b _ (by omega)
  have atC : UInt8.ofNat ((b.toNat % 16 * 4 + c.toNat / 64) % 4 * 64 + c.toNat % 64) = c :=
    octet_whole c _ (by omega)
  rw [letter_step _ _ _ _ (by omega), letter_step _ _ _ _ (by omega), letter_step _ _ _ _ (by omega),
    letter_step _ _ _ _ (by omega)]
  simp only [Group.add, atA, atB, atC, Option.toList_some, Option.toList_none, List.singleton_append, List.nil_append]

theorem pad_four (w x y z : Char) (cs : List Char) : pad (w :: x :: y :: z :: cs) = w :: x :: y :: z :: pad cs := by
  have size : (cs.length + 1 + 1 + 1 + 1) % 4 = cs.length % 4 := by omega
  simp only [pad, List.length_cons, size, List.cons_append]

theorem padded_read (bs read : Bytes) : decodeFrom ⟨0, 0, 0⟩ read (pad (encode bs)) = some (read.reverse ++ bs) := by
  fun_induction encode bs generalizing read with
  | case1 => simp [pad, decodeFrom]
  | case2 a =>
      have bound := a.toNat_lt
      have atA : UInt8.ofNat (a.toNat / 4 * 4 + a.toNat % 4 * 16 / 16) = a := octet_whole a _ (by omega)
      show decodeFrom _ read (letter _ :: letter _ :: ['=', '=']) = _
      rw [letter_step _ _ _ _ (by omega), letter_step _ _ _ _ (by omega)]
      simp only [Group.add, atA]
      simp [decodeFrom]
  | case3 a b =>
      have first := a.toNat_lt
      have second := b.toNat_lt
      have atA : UInt8.ofNat (a.toNat / 4 * 4 + (a.toNat % 4 * 16 + b.toNat / 16) / 16) = a :=
        octet_whole a _ (by omega)
      have atB : UInt8.ofNat ((a.toNat % 4 * 16 + b.toNat / 16) % 16 * 16 + b.toNat % 16 * 4 / 4) = b :=
        octet_whole b _ (by omega)
      show decodeFrom _ read (letter _ :: letter _ :: letter _ :: ['=']) = _
      rw [letter_step _ _ _ _ (by omega), letter_step _ _ _ _ (by omega), letter_step _ _ _ _ (by omega)]
      simp only [Group.add, atA, atB]
      simp [decodeFrom]
  | case4 a b c rest ih =>
      rw [pad_four, three_read, ih]
      simp

theorem encode_plain (bs : Bytes) : ∀ c ∈ encode bs, c ≠ '.' ∧ c.toNat < 128 := by
  have plain : ∀ v < 64, letter v ≠ '.' ∧ (letter v).toNat < 128 := fun v small => (letter_plain v small).2
  fun_induction encode bs with
  | case1 => simp
  | case2 a =>
      have bound := a.toNat_lt
      simp only [List.mem_cons, List.not_mem_nil, or_false]
      rintro c (rfl | rfl)
      all_goals exact plain _ (by omega)
  | case3 a b =>
      have first := a.toNat_lt
      have second := b.toNat_lt
      simp only [List.mem_cons, List.not_mem_nil, or_false]
      rintro c (rfl | rfl | rfl)
      all_goals exact plain _ (by omega)
  | case4 a b c rest ih =>
      have first := a.toNat_lt
      have second := b.toNat_lt
      have third := c.toNat_lt
      simp only [List.mem_cons]
      rintro x (rfl | rfl | rfl | rfl | later)
      · exact plain _ (by omega)
      · exact plain _ (by omega)
      · exact plain _ (by omega)
      · exact plain _ (by omega)
      · exact ih x later

theorem pad_pad (cs : List Char) : pad (pad cs) = pad cs := by
  have size : (pad cs).length % 4 = 0 := by
    rw [pad, List.length_append, List.length_replicate]
    omega
  rw [pad, size]
  exact List.append_nil _

theorem pad_plain (cs : List Char) (plain : ∀ c ∈ cs, c ≠ '.' ∧ c.toNat < 128) :
    ∀ c ∈ pad cs, c ≠ '.' ∧ c.toNat < 128 := by
  intro c member
  rcases List.mem_append.mp member with own | sign
  · exact plain c own
  · rw [List.eq_of_mem_replicate sign]
    decide

theorem decode_encode (bs : Bytes) : decode? (pad (encode bs)) = some bs := by
  have ascii : (pad (encode bs)).all (·.toNat < 128) = true := by
    rw [List.all_eq_true]
    intro c member
    exact decide_eq_true (pad_plain _ (encode_plain bs) c member).2
  rw [decode?, if_pos ascii, padded_read]
  rfl

-- A letter of either alphabet.
def Alphabetic (c : Char) : Prop :=
  'A' ≤ c ∧ c ≤ 'Z' ∨ 'a' ≤ c ∧ c ≤ 'z' ∨ '0' ≤ c ∧ c ≤ '9' ∨ c ∈ ['-', '_', '+', '/']

instance (c : Char) : Decidable (Alphabetic c) := inferInstanceAs (Decidable (_ ∨ _))

theorem alphabetic_plain (c : Char) (letter : Alphabetic c) : c ≠ '=' ∧ c ≠ '.' ∧ c.toNat < 128 := by
  refine ⟨?_, ?_, ?_⟩
  · rintro rfl
    exact absurd letter (by decide)
  · rintro rfl
    exact absurd letter (by decide)
  · rcases letter with ⟨_, last⟩ | ⟨_, last⟩ | ⟨_, last⟩ | other
    · exact Nat.lt_of_le_of_lt last (by decide)
    · exact Nat.lt_of_le_of_lt last (by decide)
    · exact Nat.lt_of_le_of_lt last (by decide)
    · simp only [List.mem_cons, List.not_mem_nil, or_false] at other
      rcases other with rfl | rfl | rfl | rfl <;> decide

theorem alphabetic_value (c : Char) (letter : Alphabetic c) : ∃ v, value? c = some v := by
  rw [value?]
  by_cases upper : 'A' ≤ c ∧ c ≤ 'Z'
  · exact ⟨_, if_pos upper⟩
  by_cases lower : 'a' ≤ c ∧ c ≤ 'z'
  · exact ⟨_, by rw [if_neg upper, if_pos lower]⟩
  by_cases digit : '0' ≤ c ∧ c ≤ '9'
  · exact ⟨_, by rw [if_neg upper, if_neg lower, if_pos digit]⟩
  have other : c ∈ ['-', '_', '+', '/'] := ((letter.resolve_left upper).resolve_left lower).resolve_left digit
  simp only [List.mem_cons, List.not_mem_nil, or_false] at other
  rcases other with rfl | rfl | rfl | rfl <;> exact ⟨_, rfl⟩

theorem added_letters (g : Group) (v : Nat) (counted : g.letters < 4) :
    (g.add v).2.letters = (g.letters + 1) % 4 := by
  obtain ⟨n, bits, pads⟩ := g
  match n, counted with
  | 0, _ | 1, _ | 2, _ => rfl
  | 3, _ => simp [Group.add]

theorem single_unread (letters : List Char) (alphabetic : ∀ c ∈ letters, Alphabetic c) (k : Nat) (g : Group)
    (read : Bytes) (counted : g.letters < 4) (single : (g.letters + letters.length) % 4 = 1) :
    decodeFrom g read (letters ++ List.replicate k '=') = none := by
  induction letters generalizing g read with
  | nil =>
      have one : g.letters = 1 := by
        rw [List.length_nil] at single
        omega
      rw [List.nil_append]
      induction k with
      | zero => rw [List.replicate_zero, decodeFrom, one, if_neg (by decide)]
      | succ k ih =>
          rw [List.replicate_succ, decodeFrom, if_pos rfl, one, if_neg (by decide)]
          exact ih
  | cons c rest ih =>
      obtain ⟨plain, _⟩ := alphabetic_plain c (alphabetic c List.mem_cons_self)
      obtain ⟨v, known⟩ := alphabetic_value c (alphabetic c List.mem_cons_self)
      rw [List.length_cons] at single
      have next := added_letters g v counted
      rw [List.cons_append, value_step g read c v _ plain known]
      exact ih (fun other member => alphabetic other (List.mem_cons_of_mem _ member)) _ _ (by omega) (by omega)

theorem unfinished_unread (letters : List Char) (alphabetic : ∀ c ∈ letters, Alphabetic c) (k : Nat)
    (single : letters.length % 4 = 1) : decode? (pad (letters ++ List.replicate k '=')) = none := by
  have signs : ∃ more, pad (letters ++ List.replicate k '=') = letters ++ List.replicate more '=' :=
    ⟨_, by rw [pad, List.append_assoc, List.replicate_append_replicate]⟩
  obtain ⟨more, signs⟩ := signs
  rw [decode?, signs]
  split
  · exact single_unread letters alphabetic more ⟨0, 0, 0⟩ [] (by decide) (by rwa [Nat.zero_add])
  · rfl

end HostingAdmin.Base64
