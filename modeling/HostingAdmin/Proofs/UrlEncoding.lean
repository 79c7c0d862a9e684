import HostingAdmin.Http.Url
import HostingAdmin.Proofs.Utf8RoundTrip

set_option autoImplicit false

namespace HostingAdmin.Url

theorem hex_upper (d : Nat) (small : d < 16) : pathSafe (Text.hexDigit d).toUpper = true ∧
    (Text.hexDigit d).toUpper ≠ '/' ∧ Text.hexDigit? (Text.hexDigit d).toUpper = some d := by
  have each : ∀ d < 16, pathSafe (Text.hexDigit d).toUpper = true ∧ (Text.hexDigit d).toUpper ≠ '/' ∧
      Text.hexDigit? (Text.hexDigit d).toUpper = some d := by decide
  exact each d small

theorem percent_octets (c : Char) : percent c = (String.utf8EncodeChar c).flatMap fun b =>
    ['%', (Text.hexDigit (b.toNat / 16 % 16)).toUpper, (Text.hexDigit (b.toNat % 16)).toUpper] := by
  rw [percent]
  rfl

theorem percent_chars (c d : Char) (member : d ∈ percent c) : pathSafe d = true ∧ d ≠ '/' := by
  rw [percent_octets] at member
  obtain ⟨b, _, inside⟩ := List.mem_flatMap.mp member
  have upper := hex_upper (b.toNat / 16 % 16) (by omega)
  have lower := hex_upper (b.toNat % 16) (by omega)
  simp only [List.mem_cons, List.not_mem_nil, or_false] at inside
  rcases inside with rfl | rfl | rfl
  · decide
  · exact ⟨upper.1, upper.2.1⟩
  · exact ⟨lower.1, lower.2.1⟩

theorem encode_safe (cs : List Char) : ∀ c ∈ encode pathSafe cs, pathSafe c = true := by
  intro c member
  obtain ⟨d, _, inside⟩ := List.mem_flatMap.mp member
  split at inside
  · rename_i safe
    rw [List.mem_singleton.mp inside]
    exact safe
  · exact (percent_chars d c inside).1

theorem encode_slash (cs : List Char) (slash : '/' ∈ encode pathSafe cs) : '/' ∈ cs := by
  obtain ⟨d, member, inside⟩ := List.mem_flatMap.mp slash
  split at inside
  · rw [List.mem_singleton.mp inside]
    exact member
  · exact ((percent_chars d '/' inside).2 rfl).elim

theorem encode_same (cs : List Char) (safe : ∀ c ∈ cs, pathSafe c = true) : encode pathSafe cs = cs := by
  induction cs with
  | nil => rfl
  | cons c rest ih =>
      rw [encode, List.flatMap_cons, if_pos (safe c List.mem_cons_self)]
      exact congrArg (c :: ·) (ih fun d member => safe d (List.mem_cons_of_mem c member))

theorem encode_append (cs ds : List Char) : encode pathSafe (cs ++ ds) = encode pathSafe cs ++ encode pathSafe ds :=
  List.flatMap_append

theorem slash_kept : encode pathSafe ['/'] = ['/'] := rfl

theorem encode_join (parts : List (List Char)) :
    encode pathSafe (joinSlash parts) = joinSlash (parts.map (encode pathSafe)) := by
  induction parts with
  | nil => rfl
  | cons part rest ih =>
      cases rest with
      | nil => simp [joinSlash]
      | cons next rest =>
          rw [joinSlash, List.intercalate_cons_cons, encode_append, encode_append, ← joinSlash, ih,
            slash_kept]
          simp only [joinSlash, List.map_cons, List.intercalate_cons_cons]

theorem pieces_char (cs : List Char) (c : Char) (other : c ≠ '/') : (∃ piece ∈ cs.splitOn '/', c ∈ piece) ↔ c ∈ cs := by
  induction cs with
  | nil => simp
  | cons d rest ih =>
      obtain ⟨first, more, split⟩ := List.exists_cons_of_ne_nil (List.splitOn_ne_nil '/' rest)
      rw [split] at ih
      rw [List.splitOn_cons_eq_if_modifyHead, split, List.mem_cons, ← ih]
      by_cases slash : d = '/'
      · subst slash
        simp [other]
      · simp [slash, or_assoc]

theorem parts_slashless (cs : List Char) : ∀ part ∈ cs.splitOn '/', '/' ∉ part := by
  induction cs with
  | nil => simp
  | cons c rest ih =>
      rw [List.splitOn_cons_eq_if_modifyHead]
      split
      · exact List.forall_mem_cons.mpr ⟨by simp, ih⟩
      · rename_i other
        cases partsEq : rest.splitOn '/' with
        | nil => simp
        | cons first others =>
            rw [partsEq] at ih
            obtain ⟨front, back⟩ := List.forall_mem_cons.mp ih
            have apart : c ≠ '/' := by simpa using other
            exact List.forall_mem_cons.mpr ⟨by simp [apart.symm, front], back⟩

theorem encode_split (cs : List Char) :
    (encode pathSafe cs).splitOn '/' = (cs.splitOn '/').map (encode pathSafe) := by
  have slashless : ∀ part ∈ (cs.splitOn '/').map (encode pathSafe), '/' ∉ part := by
    intro part member
    obtain ⟨original, inside, rfl⟩ := List.mem_map.mp member
    exact fun slash => parts_slashless cs original inside (encode_slash original slash)
  have whole : joinSlash (cs.splitOn '/') = cs := List.intercalate_splitOn '/'
  calc (encode pathSafe cs).splitOn '/'
      = (joinSlash ((cs.splitOn '/').map (encode pathSafe))).splitOn '/' := by rw [← encode_join, whole]
    _ = (cs.splitOn '/').map (encode pathSafe) := List.splitOn_intercalate '/' slashless (by simp)

-- The octet that a percent sign and two digits stand for.
def octet? (c a b : Char) : Option UInt8 :=
  if c = '%' then
    match Text.hexDigit? a, Text.hexDigit? b with
    | some x, some y => some (UInt8.ofNat (x * 16 + y))
    | _, _ => none
  else none

-- The octets that a part of a path stands for. A percent sign without two digits stands
-- for itself.
def unescape : List Char → Bytes
  | c :: a :: b :: rest =>
    match octet? c a b with
    | some x => x :: unescape rest
    | none => String.utf8EncodeChar c ++ unescape (a :: b :: rest)
  | cs => cs.flatMap String.utf8EncodeChar

def decoded (part : List Char) : Option String := Text.ofUtf8? (unescape part)

def hasEscape : List Char → Bool
  | c :: a :: b :: rest => (octet? c a b).isSome || hasEscape (a :: b :: rest)
  | _ => false

theorem octet_plain (c a b : Char) (plain : Text.hexDigit? a = none ∨ Text.hexDigit? b = none) :
    octet? c a b = none := by
  rw [octet?]
  split
  · rcases plain with first | second
    · rw [first]
    · rw [second]
      cases Text.hexDigit? a <;> rfl
  · rfl

theorem octet_written (x : UInt8) : octet? '%' (Text.hexDigit (x.toNat / 16 % 16)).toUpper
    (Text.hexDigit (x.toNat % 16)).toUpper = some x := by
  have upper := (hex_upper (x.toNat / 16 % 16) (by omega)).2.2
  have lower := (hex_upper (x.toNat % 16) (by omega)).2.2
  have small := x.toNat_lt
  have whole : x.toNat / 16 % 16 * 16 + x.toNat % 16 = x.toNat := by omega
  simp only [octet?, if_pos, upper, lower, whole, UInt8.ofNat_toNat]

theorem unescape_plain (c : Char) (rest : List Char)
    (plain : ∀ a b more, rest = a :: b :: more → octet? c a b = none) :
    unescape (c :: rest) = String.utf8EncodeChar c ++ unescape rest := by
  match rest with
  | [] => simp [unescape]
  | [d] => simp [unescape]
  | a :: b :: more => rw [unescape, plain a b more rfl]

theorem unescape_percent (c : Char) (rest : List Char) :
    unescape (percent c ++ rest) = String.utf8EncodeChar c ++ unescape rest := by
  rw [percent_octets]
  induction String.utf8EncodeChar c with
  | nil => rfl
  | cons x others ih =>
      rw [List.flatMap_cons]
      simp only [List.cons_append, List.nil_append]
      rw [unescape, octet_written]
      exact congrArg (x :: ·) ih

theorem escape_later (c : Char) (rest : List Char) (none : hasEscape (c :: rest) = false) :
    hasEscape rest = false := by
  match rest with
  | [] => rfl
  | [d] => rfl
  | a :: b :: more =>
      rw [hasEscape, Bool.or_eq_false_iff] at none
      exact none.2

theorem encode_front (cs more : List Char) (a : Char) (front : encode pathSafe cs = a :: more) :
    a = '%' ∨ ∃ rest, cs = a :: rest ∧ encode pathSafe rest = more := by
  cases cs with
  | nil => cases front
  | cons c rest =>
      rw [encode, List.flatMap_cons] at front
      split at front
      · obtain ⟨rfl, same⟩ := List.cons.inj front
        exact .inr ⟨rest, rfl, same⟩
      · left
        rw [percent_octets] at front
        cases octets : String.utf8EncodeChar c with
        | nil => exact (String.utf8EncodeChar_ne_nil octets).elim
        | cons x others =>
            rw [octets, List.flatMap_cons] at front
            exact (List.cons.inj front).1.symm

theorem unescape_encode (cs : List Char) (none : hasEscape cs = false) :
    unescape (encode pathSafe cs) = cs.flatMap String.utf8EncodeChar := by
  induction cs with
  | nil => rfl
  | cons c rest ih =>
      have further := ih (escape_later c rest none)
      rw [encode, List.flatMap_cons, List.flatMap_cons]
      split
      · refine (unescape_plain c _ ?_).trans (congrArg (String.utf8EncodeChar c ++ ·) further)
        intro a b more front
        rcases encode_front rest (b :: more) a front with rfl | ⟨inner, rfl, next⟩
        · exact octet_plain c '%' b (.inl (by decide))
        · rcases encode_front inner more b next with rfl | ⟨last, rfl, _⟩
          · exact octet_plain c a '%' (.inr (by decide))
          · rw [hasEscape, Bool.or_eq_false_iff] at none
            simpa using none.1
      · exact (unescape_percent c _).trans (congrArg (String.utf8EncodeChar c ++ ·) further)

theorem decoded_encode (s : String) (none : hasEscape s.toList = false) :
    decoded (encode pathSafe s.toList) = some s := by
  rw [decoded, unescape_encode s.toList none]
  exact Text.utf8_read s

end HostingAdmin.Url
