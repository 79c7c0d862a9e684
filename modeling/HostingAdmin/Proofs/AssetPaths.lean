import HostingAdmin.Asset.Listing
import HostingAdmin.Hosting.Target

set_option autoImplicit false

namespace HostingAdmin

-- A name that stands for itself between two slashes.
structure Proper (name : String) : Prop where
  given : name ≠ ""
  here : name ≠ "."
  down : name ≠ ".."
  whole : '/' ∉ name.toList

structure Named (names : List String) : Prop where
  some_name : names ≠ []
  proper : ∀ name ∈ names, Proper name

theorem named_split (names : List String) (named : Named names) :
    Path.split (String.intercalate "/" names) = names := by
  have parts : ((String.intercalate "/" names).toList.splitOn '/').map String.ofList = names := by
    rw [String.toList_intercalate]
    have apart : (names.map String.toList).map String.ofList = names := by simp
    have whole : ∀ part ∈ names.map String.toList, '/' ∉ part := by
      intro part member
      obtain ⟨name, listed, rfl⟩ := List.mem_map.mp member
      exact (named.proper name listed).whole
    have some_part : names.map String.toList ≠ [] := by simpa using named.some_name
    have split := List.splitOn_intercalate '/' whole some_part
    exact (congrArg (List.map String.ofList) split).trans apart
  rw [Path.split, parts, List.filter_eq_self]
  intro name listed
  have proper := named.proper name listed
  simp [proper.given, proper.here]

theorem named_front (names : List String) (named : Named names) :
    ∃ c rest, (String.intercalate "/" names).toList = c :: rest ∧ c ≠ '/' := by
  obtain ⟨first, others, rfl⟩ := List.exists_cons_of_ne_nil named.some_name
  have proper := named.proper first List.mem_cons_self
  have some_char : first.toList ≠ [] := by simpa using proper.given
  obtain ⟨c, rest, chars⟩ := List.exists_cons_of_ne_nil some_char
  have other : c ≠ '/' := by
    rintro rfl
    exact proper.whole (by rw [chars]; exact List.mem_cons_self)
  cases others with
  | nil => exact ⟨c, rest, by rw [String.intercalate_singleton, chars], other⟩
  | cons second more =>
      refine ⟨c, rest ++ ("/" ++ String.intercalate "/" (second :: more)).toList, ?_, other⟩
      rw [String.intercalate_cons_cons, String.append_assoc, String.toList_append, chars, List.cons_append]

theorem relative_names (names : List String) (named : Named names) :
    Hosting.relative (Listing.assetPath names) = ⟨0, names⟩ := by
  obtain ⟨c, rest, chars, other⟩ := named_front names named
  have text : String.ofList ((Listing.assetPath names).toList.dropWhile (· == '/')) =
      String.intercalate "/" names := by
    rw [Listing.assetPath, String.toList_append]
    have slash : ("/" : String).toList = ['/'] := by decide
    rw [slash, chars, List.singleton_append, List.dropWhile_cons_of_pos (by decide),
      List.dropWhile_cons_of_neg (by simpa using other), ← chars, String.ofList_toList]
  rw [Hosting.relative, text, Path.ofString, named_split names named, chars,
    List.takeWhile_cons_of_neg (by simpa using other)]
  rfl

-- Different files have different asset paths.
theorem names_same (names others : List String) (named : Named names) (also : Named others)
    (same : Listing.assetPath names = Listing.assetPath others) : names = others := by
  have parts := relative_names names named
  rw [same, relative_names others also] at parts
  cases parts
  rfl

end HostingAdmin
