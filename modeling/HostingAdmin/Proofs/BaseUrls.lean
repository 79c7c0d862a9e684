import Mathlib.Data.List.DropRight
import HostingAdmin.Settings
import HostingAdmin.Proofs.Routes
import HostingAdmin.Proofs.UrlPaths
import HostingAdmin.Proofs.WireTraffic

set_option autoImplicit false

namespace HostingAdmin

namespace Text

-- What is left when a character is trimmed is the one text that does not end with it,
-- and makes up the whole with as many of it as there were.
theorem trim_iff (c : Char) (whole left : List Char) : trimRight (· == c) whole = left ↔
    left.getLast? ≠ some c ∧ ∃ n, whole = left ++ List.replicate n c := by
  rw [show trimRight (· == c) whole = whole.rdropWhile (· == c) from rfl]
  constructor
  · rintro rfl
    constructor
    · intro last
      have filled : whole.rdropWhile (· == c) ≠ [] := by
        intro empty
        rw [empty] at last
        cases last
      rw [List.getLast?_eq_some_getLast filled, Option.some.injEq] at last
      exact List.rdropWhile_last_not (· == c) whole filled (by simp [last])
    · refine ⟨(whole.rtakeWhile (· == c)).length, ?_⟩
      have trimmed : whole.rtakeWhile (· == c) = List.replicate (whole.rtakeWhile (· == c)).length c :=
        List.eq_replicate_iff.mpr ⟨rfl, fun d member => by simpa using List.mem_rtakeWhile_imp member⟩
      rw [← trimmed]
      exact (List.rdropWhile_append_rtakeWhile).symm
  · rintro ⟨last, n, rfl⟩
    induction n with
    | zero =>
        rw [List.replicate_zero, List.append_nil, List.rdropWhile_eq_self_iff]
        intro filled ended
        rw [List.getLast?_eq_some_getLast filled] at last
        exact last (congrArg some (by simpa using ended))
    | succ n ih =>
        rw [List.replicate_succ', ← List.append_assoc, List.rdropWhile_concat_pos _ _ _ (by simp)]
        exact ih

theorem end_iff (s : String) (c : Char) : hasEnd s (String.singleton c) = true ↔ s.toList.getLast? = some c := by
  rw [hasEnd, List.isSuffixOf_iff_suffix, String.toList_singleton, List.getLast?_eq_some_iff]
  exact exists_congr fun _ => eq_comm

theorem start_iff (s start : String) : hasStart s start = true ↔ ∃ rest, s = start ++ rest := by
  rw [hasStart, List.isPrefixOf_iff_prefix]
  constructor
  · rintro ⟨rest, same⟩
    refine ⟨String.ofList rest, ?_⟩
    rw [← String.toList_inj, String.toList_append, String.toList_ofList, same]
  · rintro ⟨rest, rfl⟩
    exact ⟨rest.toList, String.toList_append.symm⟩

theorem front_kept (c : Char) (front tail left : List Char) (n : Nat) (last : front.getLast? ≠ some c)
    (whole : front ++ tail = left ++ List.replicate n c) :
    ∃ rest, left = front ++ rest ∧ tail = rest ++ List.replicate n c := by
  rcases List.append_eq_append_iff.mp whole with ⟨rest, same, split⟩ | ⟨rest, same, split⟩
  · exact ⟨rest, same, split⟩
  · rcases List.eq_nil_or_concat' rest with rfl | ⟨more, d, rfl⟩
    · exact ⟨[], by rw [same]; simp, split.symm⟩
    · have trimmed : d ∈ List.replicate n c := by simp [split]
      rw [List.eq_of_mem_replicate trimmed, ← List.append_assoc] at same
      rw [same] at last
      exact (last List.getLast?_concat).elim

end Text

namespace Settings

def slashes (n : Nat) : String := String.ofList (List.replicate n '/')

@[simp] theorem slashes_chars (n : Nat) : (slashes n).toList = List.replicate n '/' := String.toList_ofList

-- A text with a scheme in front.
def withScheme (s : String) : String := if hasScheme s then s else "https://" ++ s

-- The scheme in front: the one that was given, or else the secure one.
def scheme (v : String) : String := if Text.hasStart v "http://" then "http" else "https"

-- A text that names nothing: slashes alone, with a scheme in front of them or without.
def Nameless (s : String) : Prop := ∃ start ∈ ["", "http://", "https://"], ∃ n, s = start ++ slashes n

theorem scheme_either (p : String → Prop) (plain : p "http") (secure : p "https") (v : String) : p (scheme v) := by
  rw [scheme]
  split
  · exact plain
  · exact secure

theorem with_scheme_cases (v : String) : hasScheme v = true ∧ withScheme v = v ∨
    hasScheme v = false ∧ withScheme v = "https://" ++ v ∧ scheme v = "https" := by
  rw [withScheme]
  cases schemes : hasScheme v with
  | true => exact .inl ⟨rfl, rfl⟩
  | false =>
      rw [hasScheme, Bool.or_eq_false_iff] at schemes
      exact .inr ⟨rfl, rfl, by rw [scheme, schemes.1]; rfl⟩

theorem with_scheme_front (v : String) : ∃ rest, withScheme v = scheme v ++ "://" ++ rest := by
  rcases with_scheme_cases v with ⟨schemes, same⟩ | ⟨_, same, secure⟩
  · rw [same, scheme]
    by_cases plain : Text.hasStart v "http://" = true
    · rw [if_pos plain]
      exact (Text.start_iff v "http://").mp plain
    · rw [hasScheme, Bool.or_eq_true] at schemes
      rw [if_neg plain]
      exact (Text.start_iff v "https://").mp (schemes.resolve_left plain)
  · rw [same, secure]
    exact ⟨v, rfl⟩

theorem normal_iff (v s : String) : normalUrl v = s ↔
    Text.hasEnd s "/" = false ∧ ∃ n, withScheme v = s ++ slashes n := by
  have whole : normalUrl v = String.ofList (Text.trimRight (· == '/') (withScheme v).toList) := rfl
  have ended : Text.hasEnd s "/" = false ↔ s.toList.getLast? ≠ some '/' := by
    rw [← Bool.not_eq_true]
    exact not_congr (Text.end_iff s '/')
  have joined (n : Nat) : withScheme v = s ++ slashes n ↔ (withScheme v).toList = s.toList ++ List.replicate n '/' := by
    rw [← String.toList_inj, String.toList_append, slashes_chars]
  rw [whole, ended, ← String.toList_inj, String.toList_ofList, Text.trim_iff]
  simp only [joined]

-- The scheme stays in front, but the slashes behind it only if something else follows.
theorem normal_front (v : String) :
    normalUrl v = scheme v ++ ":" ∨ ∃ rest, normalUrl v = scheme v ++ "://" ++ rest := by
  obtain ⟨ended, n, whole⟩ := (normal_iff v _).mp rfl
  obtain ⟨rest, front⟩ := with_scheme_front v
  have last : (scheme v ++ ":").toList.getLast? = some ':' := by
    rw [String.toList_append]
    exact List.getLast?_concat
  have parts : (scheme v ++ ":").toList ++ '/' :: '/' :: rest.toList =
      (normalUrl v).toList ++ List.replicate n '/' := by
    have chars := congrArg String.toList (front.symm.trans whole)
    simpa [String.toList_append] using chars
  obtain ⟨tail, kept, split⟩ := Text.front_kept '/' _ _ _ n (by rw [last]; decide) parts
  rw [← Bool.not_eq_true, show "/" = String.singleton '/' from rfl, Text.end_iff, kept] at ended
  match tail with
  | [] =>
      left
      rwa [List.append_nil, String.toList_inj] at kept
  | [c] =>
      obtain ⟨rfl, _⟩ := List.cons.inj split
      exact (ended (by simp)).elim
  | c :: d :: others =>
      right
      simp only [List.cons_append, List.cons.injEq] at split
      obtain ⟨rfl, rfl, _⟩ := split
      refine ⟨String.ofList others, ?_⟩
      rw [← String.toList_inj, kept]
      simp [String.toList_append]

theorem scheme_filled (v rest : String) : hasScheme (scheme v ++ "://" ++ rest) = true := by
  rw [hasScheme, Bool.or_eq_true, Text.start_iff, Text.start_iff]
  exact scheme_either (fun word => (∃ tail, word ++ "://" ++ rest = "http://" ++ tail) ∨
    ∃ tail, word ++ "://" ++ rest = "https://" ++ tail) (.inl ⟨rest, rfl⟩) (.inr ⟨rest, rfl⟩) v

theorem slashes_schemeless (n : Nat) : hasScheme (slashes n) = false := by
  have other (start : String) (letter : 'h' ∈ start.toList) : Text.hasStart (slashes n) start = false := by
    rw [← Bool.not_eq_true, Text.start_iff]
    rintro ⟨rest, same⟩
    have member : 'h' ∈ (slashes n).toList := by
      rw [same, String.toList_append]
      exact List.mem_append_left _ letter
    rw [slashes_chars] at member
    exact absurd (List.eq_of_mem_replicate member) (by decide)
  rw [hasScheme, other _ (by decide), other _ (by decide)]
  rfl

theorem bare_normal (v word : String) (n : Nat) (ended : Text.hasEnd (word ++ ":") "/" = false)
    (whole : withScheme v = word ++ "://" ++ slashes n) : normalUrl v = word ++ ":" := by
  rw [normal_iff, whole]
  refine ⟨ended, n + 2, ?_⟩
  rw [← String.toList_inj]
  simp [String.toList_append, List.replicate_succ]

theorem slashes_tail (front rest : String) (n : Nat) (same : front ++ "://" ++ rest = front ++ ":" ++ slashes n) :
    ∃ m, rest = slashes m := by
  rw [← String.toList_inj] at same
  have chars : '/' :: '/' :: rest.toList = List.replicate n '/' := by simpa [String.toList_append] using same
  refine ⟨rest.toList.length, ?_⟩
  rw [← String.toList_inj, slashes_chars]
  refine List.eq_replicate_iff.mpr ⟨rfl, fun c member => ?_⟩
  exact List.eq_of_mem_replicate (chars ▸ List.mem_cons_of_mem _ (List.mem_cons_of_mem _ member))

theorem nameless_iff (v : String) : Nameless v ↔ hasScheme (normalUrl v) = false := by
  constructor
  · rintro ⟨start, listed, n, rfl⟩
    simp only [List.mem_cons, List.not_mem_nil, or_false] at listed
    rcases listed with rfl | rfl | rfl
    · rw [bare_normal _ "https" n rfl (by rw [String.empty_append, withScheme, slashes_schemeless]; rfl)]
      rfl
    · have given := (Text.start_iff _ "http://").mpr ⟨slashes n, rfl⟩
      rw [bare_normal _ "http" n rfl (by rw [withScheme, hasScheme, given]; rfl)]
      rfl
    · have given := (Text.start_iff _ "https://").mpr ⟨slashes n, rfl⟩
      rw [bare_normal _ "https" n rfl (by rw [withScheme, hasScheme, given, Bool.or_true]; rfl)]
      rfl
  · intro schemeless
    rcases normal_front v with bare | ⟨rest, filled⟩
    · obtain ⟨_, n, whole⟩ := (normal_iff v _).mp bare
      obtain ⟨rest, front⟩ := with_scheme_front v
      obtain ⟨m, rfl⟩ := slashes_tail _ rest n (front.symm.trans whole)
      rcases with_scheme_cases v with ⟨_, same⟩ | ⟨_, same, secure⟩
      · rw [same] at front
        have listed := scheme_either (fun word => word ++ "://" ∈ ["", "http://", "https://"]) (by simp) (by simp) v
        exact ⟨scheme v ++ "://", listed, m, front⟩
      · rw [same, secure] at front
        exact ⟨"", by simp, m, by rw [String.empty_append]; exact (String.append_right_inj _).mp front⟩
    · rw [filled, scheme_filled] at schemeless
      cases schemeless

theorem nameless_bare (v : String) (nameless : Nameless v) : normalUrl v = scheme v ++ ":" := by
  rcases normal_front v with bare | ⟨rest, filled⟩
  · exact bare
  · have schemeless := (nameless_iff v).mp nameless
    rw [filled, scheme_filled] at schemeless
    cases schemeless

theorem fixed_iff (v : String) : normalUrl (normalUrl v) = normalUrl v ↔ hasScheme (normalUrl v) = true := by
  have ended := ((normal_iff v _).mp rfl).1
  constructor
  · intro fixed
    rcases normal_front v with bare | ⟨rest, filled⟩
    · rw [bare] at fixed
      have moved := scheme_either (fun word => normalUrl (word ++ ":") ≠ word ++ ":") (by decide) (by decide) v
      exact (moved fixed).elim
    · rw [filled]
      exact scheme_filled v rest
  · intro schemes
    rw [normal_iff]
    refine ⟨ended, 0, ?_⟩
    rw [withScheme, if_pos schemes]
    exact String.append_empty.symm

-- What normalising comes to. No slash is left at the end, and nothing else is taken away.
-- Unless the text names nothing, there is a scheme in front, and it is final.
structure Normal (v : String) : Prop where
  trimmed : Text.hasEnd (normalUrl v) "/" = false
  whole : ∃ n, withScheme v = normalUrl v ++ slashes n
  schemed : hasScheme (normalUrl v) = true ↔ ¬ Nameless v
  final : normalUrl (normalUrl v) = normalUrl v ↔ ¬ Nameless v
  bare : Nameless v → normalUrl v = scheme v ++ ":"

theorem normal_text (v : String) : Normal v := by
  obtain ⟨trimmed, whole⟩ := (normal_iff v _).mp rfl
  have named : hasScheme (normalUrl v) = true ↔ ¬ Nameless v := by
    rw [nameless_iff, Bool.not_eq_false]
  exact ⟨trimmed, whole, named, (fixed_iff v).trans named, nameless_bare v⟩

end Settings

namespace Url

theorem parse_scheme (text : String) (u : Url) (parsed : parse text = .ok u) :
    u.scheme = Text.lowerAscii (String.ofList (splitScheme text.toList).1) := by
  rw [parse] at parsed
  split at parsed
  · cases parsed
  · split at parsed
    · cases parsed
    · exact (build_parts _ _ _ _ _ u parsed).sameScheme

theorem raw_scheme (u v : Url) (raw : String) (made : u.withRawPath raw = .ok v) :
    v.scheme = Text.lowerAscii u.scheme := by
  have same := (build_parts _ _ _ _ _ v made).sameScheme
  rwa [String.ofList_toList] at same

theorem base_scheme (u base : Url) (lower : Text.lowerAscii u.scheme = u.scheme) (made : u.asBase = .ok base) :
    base.scheme = u.scheme := by
  rw [asBase] at made
  split at made
  · cases made
    rfl
  · exact (raw_scheme u base _ made).trans lower

theorem below_raw (base u : Url) (path : String) (first : FromRoot path) (below : base.below path = .ok u) :
    ∃ raw, base.withRawPath raw = .ok u := by
  obtain ⟨rest, chars⟩ := List.head?_eq_some_iff.mp first
  rw [Url.below] at below
  cases parsed : parse path with
  | error fault =>
      rw [parsed] at below
      cases below
  | ok relative =>
      have none : relative.scheme = "" := by
        rw [parse_scheme path relative parsed, chars]
        rfl
      have local_ : relative.isAbsolute = false := by
        rw [isAbsolute, none]
        rfl
      simp only [parsed, bind, Except.bind, local_] at below
      exact ⟨_, below⟩

theorem build_hostless (scheme path : List Char) (query fragment : Option (List Char)) (u : Url)
    (built : build scheme [] path query fragment = .ok u) : u.host = "" := by
  rw [build] at built
  dsimp only at built
  have host : encodeHost (splitHost (splitUser []).2).1 = .ok "" := rfl
  have port : readPort (String.ofList scheme) (splitHost (splitUser []).2).2 = .ok none := rfl
  simp only [host, port, bind, Except.bind] at built
  split at built
  · cases built
  · cases built
    rfl

theorem params_parts (u : Url) (params : List (String × String)) :
    (u.withParams params).scheme = u.scheme ∧ (u.withParams params).host = u.host := by
  rw [withParams]
  split <;> exact ⟨rfl, rfl⟩

end Url

namespace Settings

theorem scheme_lower (v : String) : Text.lowerAscii (scheme v) = scheme v :=
  scheme_either (fun word => Text.lowerAscii word = word) rfl rfl v

theorem scheme_split (v : String) (rest : List Char) :
    Url.splitScheme ((scheme v).toList ++ ':' :: rest) = ((scheme v).toList, rest) :=
  scheme_either (fun word => Url.splitScheme (word.toList ++ ':' :: rest) = (word.toList, rest)) rfl rfl v

theorem normal_scheme (v : String) (u : Url) (parsed : Url.parse (normalUrl v) = .ok u) : u.scheme = scheme v := by
  have front : ∃ rest, (normalUrl v).toList = (scheme v).toList ++ ':' :: rest := by
    rcases normal_front v with bare | ⟨rest, filled⟩
    · exact ⟨[], by rw [bare, String.toList_append]; rfl⟩
    · exact ⟨'/' :: '/' :: rest.toList, by rw [filled]; simp [String.toList_append]⟩
  obtain ⟨rest, chars⟩ := front
  rw [Url.parse_scheme _ u parsed, chars, scheme_split, String.ofList_toList, scheme_lower]

theorem linked_scheme (v : String) (base : Url) (linked : Link.toBase (normalUrl v) = .ok (.wire base)) :
    base.scheme = scheme v := by
  obtain ⟨u, _, parsed, made, same⟩ := Url.linked_parts _ _ linked
  cases same
  have given := normal_scheme v u parsed
  exact (Url.base_scheme u base (by rw [given, scheme_lower]) made).trans given

theorem sent_raw (base : Url) (q : Request) (first : Url.FromRoot q.path) (sent : WireRequest)
    (built : Wire.build base Exchange.client q = .ok sent) : ∃ raw u, base.withRawPath raw = .ok u ∧
      sent.url.scheme = u.scheme ∧ sent.url.host = u.host := by
  obtain ⟨u, below, rfl⟩ := Wire.build_whole base _ q sent built
  obtain ⟨raw, made⟩ := Url.below_raw base u q.path first below
  exact ⟨raw, u, made, Url.params_parts u _⟩

theorem sent_schemed (v : String) (base : Url) (linked : Link.toBase (normalUrl v) = .ok (.wire base)) (q : Request)
    (first : Url.FromRoot q.path) (sent : WireRequest) (built : Wire.build base Exchange.client q = .ok sent) :
    sent.url.scheme = scheme v ∧ (Nameless v → sent.url.host = "") := by
  obtain ⟨raw, u, made, sameScheme, sameHost⟩ := sent_raw base q first sent built
  have same := linked_scheme v base linked
  refine ⟨?_, fun nameless => ?_⟩
  · rw [sameScheme, Url.raw_scheme base u raw made, same, scheme_lower]
  · rw [nameless_bare v nameless, scheme_either (fun word => Link.toBase (word ++ ":") =
      .ok (.wire ⟨word, "", "", none, "", none, none⟩)) rfl rfl v] at linked
    cases linked
    rw [sameHost]
    exact Url.build_hostless _ _ _ _ u made

end Settings

end HostingAdmin
