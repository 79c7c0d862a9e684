import HostingAdmin.Credential.Token
import HostingAdmin.Proofs.Base64RoundTrip
import HostingAdmin.Proofs.JsonTexts

set_option autoImplicit false

namespace HostingAdmin.Token

open Json

-- What may stand after the second segment.
def Ends (tail : String) : Prop := tail = "" ∨ ∃ rest, tail = "." ++ rest

-- The octets of a text in letters, with their equals signs or without.
inductive Carries (text : List Char) : List Char → Prop where
  | bare : Carries text (Base64.encode (Text.utf8 (String.ofList text)))
  | padded : Carries text (Base64.pad (Base64.encode (Text.utf8 (String.ofList text))))

theorem segments_split (header tail : String) (segment : List Char) (plain : '.' ∉ header.toList)
    (whole : '.' ∉ segment) (ends : Ends tail) : ∃ more,
      segments (header ++ "." ++ String.ofList segment ++ tail) = header.toList :: segment :: more := by
  have dot : ("." : String).toList = ['.'] := by decide
  have chars : (header ++ "." ++ String.ofList segment ++ tail).toList =
      header.toList ++ '.' :: (segment ++ tail.toList) := by
    simp [dot]
  rw [segments, chars, List.splitOn_append_cons_self_of_not_mem plain]
  rcases ends with rfl | ⟨rest, rfl⟩
  · refine ⟨[], ?_⟩
    rw [String.toList_empty, List.append_nil, List.splitOn_eq_singleton whole]
  · refine ⟨rest.toList.splitOn '.', ?_⟩
    rw [String.toList_append, dot, List.singleton_append, List.splitOn_append_cons_self_of_not_mem whole]

theorem claims_segment (header tail : String) (segment : List Char) (plain : '.' ∉ header.toList)
    (whole : '.' ∉ segment) (ends : Ends tail) :
    claims? (header ++ "." ++ String.ofList segment ++ tail) =
      (Base64.decode? (Base64.pad segment)).bind fun bytes => (ofBytes bytes).toOption := by
  obtain ⟨more, parts⟩ := segments_split header tail segment plain whole ends
  rw [claims?, parts]

theorem carries_whole (text segment : List Char) (carries : Carries text segment) : '.' ∉ segment := by
  have own := Base64.encode_plain (Text.utf8 (String.ofList text))
  cases carries with
  | bare => exact fun dot => (own _ dot).1 rfl
  | padded => exact fun dot => (Base64.pad_plain _ own _ dot).1 rfl

theorem carries_decoded (text segment : List Char) (carries : Carries text segment) :
    Base64.decode? (Base64.pad segment) = some (Text.utf8 (String.ofList text)) := by
  cases carries with
  | bare => exact Base64.decode_encode _
  | padded => rw [Base64.pad_pad, Base64.decode_encode]

theorem claims_carried (header tail : String) (text segment : List Char) (plain : '.' ∉ header.toList)
    (carries : Carries text segment) (ends : Ends tail) :
    claims? (header ++ "." ++ String.ofList segment ++ tail) =
      (ofBytes (Text.utf8 (String.ofList text))).toOption := by
  rw [claims_segment header tail segment plain (carries_whole text segment carries) ends,
    carries_decoded text segment carries, Option.bind_some]

theorem claimed_int (token : String) (pairs : List (String × Json)) (n : Int)
    (claims : claims? token = some (.obj (Members.ofPairs pairs)))
    (last : pairs.reverse.lookup "exp" = some (.int n)) : expiry? token = some n := by
  have found : (Json.obj (Members.ofPairs pairs)).get? "exp" = some (.int n) := by
    rw [Json.get?, Members.pairs_last, last]
  simp only [expiry?, expiryClaim?, claims, Option.bind_some, found]

theorem expired_after (token : String) (n : Int) (now : Rat) (expires : expiry? token = some n) :
    isExpired token now = true ↔ (n : Rat) < now := by
  simp only [isExpired, expires, decide_eq_true_eq]

-- A token is read as it was made, for each of the texts of its claims in which no whole
-- number has too many digits. Letters that end in the middle of an octet are no token.
theorem expiry_exact (header tail : String) (plain : '.' ∉ header.toList) (ends : Ends tail) :
    (∀ inside pairs before after segment (n : Int), DenotesMembers maxDigits inside pairs → Blank before →
      Blank after → pairs.reverse.lookup "exp" = some (.int n) →
      Carries (objectText before inside after) segment →
        expiry? (header ++ "." ++ String.ofList segment ++ tail) = some n ∧ ∀ now : Rat,
          isExpired (header ++ "." ++ String.ofList segment ++ tail) now = true ↔ (n : Rat) < now) ∧
    ∀ letters k, (∀ c ∈ letters, Base64.Alphabetic c) → letters.length % 4 = 1 →
      expiry? (header ++ "." ++ String.ofList (letters ++ List.replicate k '=') ++ tail) = none := by
  constructor
  · intro inside pairs before after segment n denotes spaced also last carries
    have claims := claims_carried header tail _ segment plain carries ends
    rw [object_read maxDigits (Nat.le_refl _) inside pairs denotes before after spaced also] at claims
    have expires := claimed_int _ pairs n claims last
    exact ⟨expires, fun now => expired_after _ n now expires⟩
  · intro letters k alphabetic single
    have whole : '.' ∉ letters ++ List.replicate k '=' := by
      intro dot
      rcases List.mem_append.mp dot with letter | sign
      · exact (Base64.alphabetic_plain '.' (alphabetic '.' letter)).2.1 rfl
      · exact absurd (List.eq_of_mem_replicate sign) (by decide)
    have claims := claims_segment header tail _ plain whole ends
    rw [Base64.unfinished_unread letters alphabetic k single, Option.bind_none] at claims
    simp only [expiry?, expiryClaim?, claims, Option.bind_none]

section

variable (size : Nat)

-- Members without white space.

theorem member_denotes (key : String) (plain : ∀ c ∈ key.toList, c ≠ '"' ∧ c ≠ '\\' ∧ 0x20 ≤ c.toNat)
    (cs : List Char) (x : Json) (value : Denotes size cs x) :
    DenotesMembers size ('"' :: (key.toList ++ '"' :: ':' :: cs)) [(key, x)] := by
  have blank : Blank [] := no_blank
  have members := DenotesMembers.last [] _ [] [] cs [] key x blank (plain_quoted key plain) blank blank value blank
  simpa using members

theorem members_denote (key : String) (plain : ∀ c ∈ key.toList, c ≠ '"' ∧ c ≠ '\\' ∧ 0x20 ≤ c.toNat)
    (cs : List Char) (x : Json) (value : Denotes size cs x) (others : List Char) (pairs : List (String × Json))
    (rest : DenotesMembers size others pairs) :
    DenotesMembers size ('"' :: (key.toList ++ '"' :: ':' :: (cs ++ ',' :: others))) ((key, x) :: pairs) := by
  have blank : Blank [] := no_blank
  have members := DenotesMembers.more [] _ [] [] cs [] others key x pairs blank (plain_quoted key plain) blank blank
    value blank rest
  simpa using members

end

-- The second expiry counts; and one letter is no segment.
theorem expiry_exact_twice : expiry? "h.eyJleHAiOjEsImV4cCI6N30.s" = some 7 ∧
    isExpired "h.eyJleHAiOjEsImV4cCI6N30.s" 8 = true ∧ expiry? "h.a==.s" = none := by
  have single : ∀ d : Char, d.isDigit = true → d ≠ '0' → Whole [d] := fun d digit nonzero =>
    .inr ⟨⟨by simp, by simpa using digit⟩, by simpa using nonzero⟩
  have one := whole_denotes ['1'] (single '1' rfl (by decide)) maxDigits (by decide)
  have seven := whole_denotes ['7'] (single '7' rfl (by decide)) maxDigits (by decide)
  have key : ∀ c ∈ ("exp" : String).toList, c ≠ '"' ∧ c ≠ '\\' ∧ 0x20 ≤ c.toNat := by simp
  have members := members_denote maxDigits "exp" key ['1'] _ one _ _ (member_denotes maxDigits "exp" key ['7'] _ seven)
  obtain ⟨read, unread⟩ := expiry_exact "h" ".s" (by decide) (.inr ⟨"s", by decide⟩)
  obtain ⟨expires, late⟩ := read _ _ [] [] _ 7 members no_blank no_blank rfl .bare
  have token : "h" ++ "." ++ String.ofList (Base64.encode (Text.utf8 (String.ofList (objectText []
      ('"' :: ("exp".toList ++ '"' :: ':' :: (['1'] ++ ',' :: '"' :: ("exp".toList ++ ['"', ':', '7'])))) [])))) ++
      ".s" = "h.eyJleHAiOjEsImV4cCI6N30.s" := by decide
  rw [token] at expires late
  have letter : "h" ++ "." ++ String.ofList (['a'] ++ List.replicate 2 '=') ++ ".s" = "h.a==.s" := by decide
  have short := unread ['a'] 2 (List.forall_mem_singleton.mpr (.inr (.inl (by decide)))) rfl
  rw [letter] at short
  exact ⟨expires, (late 8).mpr (by decide), short⟩

-- A number `a` in front of an expiry.
def burdened (ds : List Char) : List Char :=
  '"' :: (("a" : String).toList ++ '"' :: ':' :: (ds ++ ',' :: '"' :: (("exp" : String).toList ++ ['"', ':', '1'])))

theorem burdened_denotes (ds : List Char) (whole : Whole ds) :
    DenotesMembers ds.length (burdened ds) [("a", .int (amount ds)), ("exp", .int 1)] := by
  have one : Whole ['1'] := .inr ⟨⟨by simp, by simp⟩, by simp⟩
  have some_digit : ['1'].length ≤ ds.length := List.length_pos_iff.mpr (whole_digits ds whole).1
  have exp := member_denotes ds.length "exp" (by simp) ['1'] _ (whole_denotes ['1'] one ds.length some_digit)
  exact members_denote ds.length "a" (by simp) ds _ (whole_denotes ds whole ds.length (Nat.le_refl _)) _ _ exp

theorem value_refused (ds rest : List Char) (whole : Whole ds) (long : maxDigits < ds.length) (stops : Stops rest)
    (fuel d : Nat) : value .free (fuel + 1) d (ds ++ rest) = .error (.digits ds.length) := by
  have read := number_taken false ds [] [] none none whole .none .none rest stops
  have denotes := whole_denotes ds whole ds.length (Nat.le_refl _)
  have front := denotes_visible ds.length ds _ denotes rest
  obtain ⟨c, more, same, other⟩ := number_front false ds [] whole
  rw [if_pos ⟨rfl, rfl, long⟩] at read
  simp only [sign, Bool.false_eq_true, if_false, List.nil_append, List.append_nil] at read same
  rw [same] at front read ⊢
  rw [value_atom .free fuel d _ c _ front other.1 other.2.1 other.2.2]
  exact read

theorem member_refused (ds rest : List Char) (whole : Whole ds) (long : maxDigits < ds.length) (stops : Stops rest)
    (fuel d : Nat) : members .free (fuel + 2) d ('"' :: 'a' :: '"' :: ':' :: (ds ++ rest)) [] =
      .error (.digits ds.length) := by
  have name : string .free ('a' :: '"' :: ':' :: (ds ++ rest)) = .ok ("a", ':' :: (ds ++ rest)) := rfl
  rw [members, skip_visible '"' _ rfl]
  simp only [name, skip_visible ':' _ rfl, value_refused ds rest whole long stops fuel d]

theorem object_refused (ds rest : List Char) (whole : Whole ds) (long : maxDigits < ds.length) (stops : Stops rest)
    (fuel : Nat) : value .free (fuel + 3) 0 ('\x7b' :: '"' :: 'a' :: '"' :: ':' :: (ds ++ rest)) =
      .error (.digits ds.length) := by
  have allowed : Rules.free.allows 0 = true := rfl
  rw [value, skip_visible '\x7b' _ rfl]
  simp only [allowed, if_true, skip_visible '"' _ rfl]
  split
  · rename_i closed
    exact absurd (List.cons.inj closed).1 (by decide)
  · rw [member_refused ds rest whole long stops fuel (0 + 1)]

theorem burdened_refused (ds : List Char) (whole : Whole ds) (long : maxDigits < ds.length) :
    ofBytes (Text.utf8 (String.ofList (objectText [] (burdened ds) []))) = .error (.digits ds.length) := by
  have chars : objectText [] (burdened ds) [] =
      '\x7b' :: '"' :: 'a' :: '"' :: ':' :: (ds ++ ",\"exp\":1\x7d".toList) := by
    simp [objectText, burdened]
  obtain ⟨fuel, enough⟩ : ∃ fuel, 2 * (objectText [] (burdened ds) []).length + 2 = fuel + 3 :=
    ⟨2 * (objectText [] (burdened ds) []).length - 1, by rw [chars, List.length_cons]; omega⟩
  rw [ofBytes, object_decoded ds.length (burdened ds) _ (burdened_denotes ds whole) [] [] no_blank]
  have stops : Stops ",\"exp\":1\x7d".toList := closing_stops ',' _ (by decide)
  simp only [readChars, enough]
  rw [chars, object_refused ds _ whole long stops fuel]

theorem burdened_unread (ds : List Char) (whole : Whole ds) (long : maxDigits < ds.length) (segment : List Char)
    (carries : Carries (objectText [] (burdened ds) []) segment) :
    expiry? ("h" ++ "." ++ String.ofList segment ++ "") = none := by
  have claims := claims_carried "h" "" _ segment (by decide) carries (.inl rfl)
  rw [burdened_refused ds whole long] at claims
  simp only [expiry?, expiryClaim?, claims, Except.toOption, Option.bind_none]

theorem ones_whole (k : Nat) : Whole (List.replicate (k + 1) '1') := by
  refine .inr ⟨⟨by simp, ?_⟩, by simp [List.replicate_succ]⟩
  intro c member
  rw [List.eq_of_mem_replicate member]
  rfl

-- The expiry is a number with one digit, and it is not read for the number beside it.
theorem expiry_inexact : ∃ pairs,
    DenotesMembers (maxDigits + 1) (burdened (List.replicate (maxDigits + 1) '1')) pairs ∧
      pairs.reverse.lookup "exp" = some (.int 1) ∧
      ∀ segment, Carries (objectText [] (burdened (List.replicate (maxDigits + 1) '1')) []) segment →
        expiry? ("h" ++ "." ++ String.ofList segment ++ "") = none := by
  have whole := ones_whole maxDigits
  have size : (List.replicate (maxDigits + 1) '1').length = maxDigits + 1 := List.length_replicate
  generalize List.replicate (maxDigits + 1) '1' = ds at whole size ⊢
  exact ⟨_, size ▸ burdened_denotes ds whole, rfl, burdened_unread ds whole (by omega)⟩

end HostingAdmin.Token
