import HostingAdmin.Text.Utf

set_option autoImplicit false

namespace HostingAdmin.Text

theorem octet (n : Nat) (small : n < 256) : (UInt8.ofNat n).toNat = n := by
  rw [UInt8.toNat_ofNat']
  exact Nat.mod_eq_of_lt small

theorem scalar_char (c : Char) : scalar c.toNat = c := by
  have valid : c.toNat < 0xD800 ∨ 0xDFFF < c.toNat ∧ c.toNat < 0x110000 := c.valid
  rw [scalar, if_pos valid, Char.ofNat_toNat]

section

variable (surrogates : Bool) (done : List (Option Char))

theorem next_last (value least greatest n : Nat) (small : n < 256) (low : least ≤ n) (high : n ≤ greatest) :
    Progress.next surrogates ⟨done, some ⟨value, 1, least, greatest⟩⟩ (UInt8.ofNat n) =
      ⟨some (scalar (value * 64 + (n - 0x80))) :: done, none⟩ := by
  simp [Progress.next, octet n small, low, high]

theorem next_more (value owed least greatest n : Nat) (small : n < 256) (low : least ≤ n) (high : n ≤ greatest) :
    Progress.next surrogates ⟨done, some ⟨value, owed + 2, least, greatest⟩⟩ (UInt8.ofNat n) =
      ⟨done, some ⟨value * 64 + (n - 0x80), owed + 1, 0x80, 0xBF⟩⟩ := by
  simp [Progress.next, octet n small, low, high]

theorem lead_one (n : Nat) (high : n < 0x80) :
    Progress.next surrogates ⟨done, none⟩ (UInt8.ofNat n) = ⟨some (Char.ofNat n) :: done, none⟩ := by
  simp [Progress.next, Progress.lead, octet n (by omega), high]

theorem lead_two (n : Nat) (low : 0xC2 ≤ n) (high : n < 0xE0) :
    Progress.next surrogates ⟨done, none⟩ (UInt8.ofNat n) = ⟨done, some ⟨n - 0xC0, 1, 0x80, 0xBF⟩⟩ := by
  simp only [Progress.next, Progress.lead, octet n (by omega)]
  rw [if_neg (by omega), if_neg (by omega), if_pos high]

theorem lead_three (n : Nat) (low : 0xE0 ≤ n) (high : n < 0xF0) :
    Progress.next surrogates ⟨done, none⟩ (UInt8.ofNat n) = ⟨done, some ⟨n - 0xE0, 2,
      if n = 0xE0 then 0xA0 else 0x80, if n = 0xED ∧ surrogates = false then 0x9F else 0xBF⟩⟩ := by
  simp only [Progress.next, Progress.lead, octet n (by omega)]
  rw [if_neg (by omega), if_neg (by omega), if_neg (by omega), if_pos high]

theorem lead_four (n : Nat) (low : 0xF0 ≤ n) (high : n < 0xF5) :
    Progress.next surrogates ⟨done, none⟩ (UInt8.ofNat n) = ⟨done, some ⟨n - 0xF0, 3,
      if n = 0xF0 then 0x90 else 0x80, if n = 0xF4 then 0x8F else 0xBF⟩⟩ := by
  simp only [Progress.next, Progress.lead, octet n (by omega)]
  rw [if_neg (by omega), if_neg (by omega), if_neg (by omega), if_neg (by omega), if_pos high]

theorem char_read (c : Char) :
    (String.utf8EncodeChar c).foldl (Progress.next surrogates) ⟨done, none⟩ = ⟨some c :: done, none⟩ := by
  have valid : c.toNat < 0xD800 ∨ 0xDFFF < c.toNat ∧ c.toNat < 0x110000 := c.valid
  have whole := scalar_char c
  rw [String.utf8EncodeChar, show c.val.toNat = c.toNat from rfl]
  generalize codeEq : c.toNat = v at valid whole
  by_cases one : v ≤ 0x7f
  · rw [if_pos one, List.foldl_cons, lead_one _ _ _ (by omega), List.foldl_nil, ← codeEq, Char.ofNat_toNat]
  · rw [if_neg one]
    by_cases two : v ≤ 0x7ff
    · rw [if_pos two, List.foldl_cons, lead_two _ _ _ (by omega) (by omega), List.foldl_cons,
        next_last _ _ _ _ _ _ (by omega) (by omega) (by omega), List.foldl_nil]
      have code : (v / 64 % 0x20 + 0xc0 - 0xC0) * 64 + (v % 0x40 + 0x80 - 0x80) = v := by omega
      rw [code, whole]
    · rw [if_neg two]
      by_cases three : v ≤ 0xffff
      · rw [if_pos three, List.foldl_cons, lead_three _ _ _ (by omega) (by omega), List.foldl_cons,
          next_more _ _ _ 0 _ _ _ (by omega) (by split <;> omega) (by split <;> omega), List.foldl_cons,
          next_last _ _ _ _ _ _ (by omega) (by omega) (by omega), List.foldl_nil]
        have code : ((v / 4096 % 0x10 + 0xe0 - 0xE0) * 64 + (v / 64 % 0x40 + 0x80 - 0x80)) * 64 +
            (v % 0x40 + 0x80 - 0x80) = v := by omega
        rw [code, whole]
      · rw [if_neg three, List.foldl_cons, lead_four _ _ _ (by omega) (by omega), List.foldl_cons,
          next_more _ _ _ 1 _ _ _ (by omega) (by split <;> omega) (by split <;> omega), List.foldl_cons,
          next_more _ _ _ 0 _ _ _ (by omega) (by omega) (by omega), List.foldl_cons,
          next_last _ _ _ _ _ _ (by omega) (by omega) (by omega), List.foldl_nil]
        have code : (((v / 262144 % 0x08 + 0xf0 - 0xF0) * 64 + (v / 4096 % 0x40 + 0x80 - 0x80)) * 64 +
            (v / 64 % 0x40 + 0x80 - 0x80)) * 64 + (v % 0x40 + 0x80 - 0x80) = v := by omega
        rw [code, whole]

theorem chars_read (chars : List Char) :
    (chars.flatMap String.utf8EncodeChar).foldl (Progress.next surrogates) ⟨done, none⟩ =
      ⟨(chars.map some).reverse ++ done, none⟩ := by
  induction chars generalizing done with
  | nil => rfl
  | cons c rest ih =>
      rw [List.flatMap_cons, List.foldl_append, char_read, ih]
      simp

end

theorem pieces_utf8 (surrogates : Bool) (s : String) : pieces surrogates (utf8 s) = s.toList.map some := by
  simp [pieces, utf8, chars_read]

theorem utf8_read (s : String) : ofUtf8? (utf8 s) = some s := by
  simp [ofUtf8?, pieces_utf8, collect]

end HostingAdmin.Text
