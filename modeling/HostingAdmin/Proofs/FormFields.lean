import HostingAdmin.Proofs.UrlEncoding

set_option autoImplicit false

namespace HostingAdmin.Url

-- The text that a part of a form stands for, in which a plus sign is a blank.
def formText? (cs : List Char) : Option String := decoded (cs.map fun c => if c = '+' then ' ' else c)

-- The value of a field: the parts of a form stand between ampersands.
def formField? (name : String) (form : String) : Option String :=
  (form.toList.splitOn '&').findSome? fun part =>
    match Text.cut '=' part with
    | (key, some value) => if formText? key = some name then formText? value else none
    | (_, none) => none

-- A character that a form holds as it is.
def isBare (c : Char) : Bool := c.isAlphanum || c = '_' || c = '.' || c = '-' || c = '~'

theorem form_chars (s : String) : (formEncode s).toList =
    s.toList.flatMap fun c => if c = ' ' then ['+'] else if isBare c then [c] else percent c := by
  rw [formEncode, String.toList_ofList]
  rfl

theorem bare_other (c : Char) (bare : isBare c = true) : c ≠ '+' ∧ c ≠ '%' ∧ c ≠ '&' ∧ c ≠ '=' ∧ c ≠ ' ' := by
  refine ⟨?_, ?_, ?_, ?_, ?_⟩
  all_goals
    rintro rfl
    revert bare
    decide

theorem hex_bare : ∀ d < 16, isBare (Text.hexDigit d).toUpper = true := by
  decide

theorem percent_bare (c d : Char) (member : d ∈ percent c) : d = '%' ∨ isBare d = true := by
  rw [percent_octets] at member
  obtain ⟨b, _, inside⟩ := List.mem_flatMap.mp member
  simp only [List.mem_cons, List.not_mem_nil, or_false] at inside
  rcases inside with rfl | rfl | rfl
  · exact .inl rfl
  · exact .inr (hex_bare _ (Nat.mod_lt _ (by decide)))
  · exact .inr (hex_bare _ (Nat.mod_lt _ (by decide)))

theorem form_unmarked (s : String) (c : Char) (member : c ∈ (formEncode s).toList) : c ≠ '&' ∧ c ≠ '=' := by
  rw [form_chars] at member
  obtain ⟨d, _, inside⟩ := List.mem_flatMap.mp member
  split at inside
  · rw [List.mem_singleton.mp inside]
    decide
  · split at inside
    · rename_i bare
      obtain ⟨_, _, parts⟩ := bare_other d bare
      rw [List.mem_singleton.mp inside]
      exact ⟨parts.1, parts.2.1⟩
    · rcases percent_bare d c inside with rfl | bare
      · decide
      · obtain ⟨_, _, parts⟩ := bare_other c bare
        exact ⟨parts.1, parts.2.1⟩

theorem percent_blanks (c : Char) : (percent c).map (fun d => if d = '+' then ' ' else d) = percent c := by
  refine (List.map_congr_left fun d member => ?_).trans (List.map_id _)
  rcases percent_bare c d member with rfl | bare
  · rfl
  · exact if_neg (bare_other d bare).1

theorem unescape_kept (c : Char) (other : c ≠ '%') (rest : List Char) :
    unescape (c :: rest) = String.utf8EncodeChar c ++ unescape rest :=
  unescape_plain c rest fun _ _ _ _ => if_neg other

theorem form_read (s : String) : formText? (formEncode s).toList = some s := by
  have octets : ∀ cs : List Char, unescape ((cs.flatMap fun c =>
      if c = ' ' then ['+'] else if isBare c then [c] else percent c).map fun c => if c = '+' then ' ' else c) =
        cs.flatMap String.utf8EncodeChar := by
    intro cs
    induction cs with
    | nil => rfl
    | cons c rest ih =>
        rw [List.flatMap_cons, List.flatMap_cons, List.map_append, ← ih]
        split
        · rename_i blank
          subst blank
          exact unescape_kept ' ' (by decide) _
        · split
          · rename_i bare
            rw [List.map_singleton, if_neg (bare_other c bare).1]
            exact unescape_kept c (bare_other c bare).2.1 _
          · rw [percent_blanks]
            exact unescape_percent c _
  rw [formText?, decoded, form_chars, octets]
  exact Text.utf8_read s

theorem cut_found (sep : Char) (before after : List Char) (clear : sep ∉ before) :
    Text.cut sep (before ++ sep :: after) = (before, some after) := by
  induction before with
  | nil => simp [Text.cut]
  | cons c rest ih =>
      rw [List.mem_cons, not_or] at clear
      rw [List.cons_append, Text.cut, if_neg (Ne.symm clear.1), ih clear.2]

theorem form_field (name value : String) : formField? name (form [(name, value)]) = some value := by
  have chars : (form [(name, value)]).toList = (formEncode name).toList ++ '=' :: (formEncode value).toList := by
    simp [form]
  have clear : '&' ∉ (formEncode name).toList ++ '=' :: (formEncode value).toList := by
    simp only [List.mem_append, List.mem_cons, not_or]
    exact ⟨fun member => (form_unmarked name '&' member).1 rfl, by decide,
      fun member => (form_unmarked value '&' member).1 rfl⟩
  have marked : '=' ∉ (formEncode name).toList := fun member => (form_unmarked name '=' member).2 rfl
  have whole : (formEncode name).toList ++ '=' :: (formEncode value).toList =
      List.intercalate ['&'] [(formEncode name).toList ++ '=' :: (formEncode value).toList] := by simp
  rw [formField?, chars, whole, List.splitOn_intercalate '&' (by simpa using clear) (by simp)]
  simp only [List.findSome?_cons, cut_found '=' _ _ marked, form_read, if_true]

end HostingAdmin.Url
