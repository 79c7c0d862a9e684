import HostingAdmin.Http.Link
import HostingAdmin.Proofs.UrlEncoding

set_option autoImplicit false

namespace HostingAdmin.Url

/-! ### Dots -/

def Undotted (cs : List Char) : Prop := ∀ part ∈ cs.splitOn '/', isDots part = false

theorem dots_safe (cs : List Char) (dots : isDots cs = true) : ∀ c ∈ cs, pathSafe c = true := by
  rw [isDots, Bool.or_eq_true, decide_eq_true_eq, decide_eq_true_eq] at dots
  rcases dots with rfl | rfl <;> exact List.all_eq_true.mp rfl

theorem encode_dots (cs : List Char) : isDots (encode pathSafe cs) = isDots cs := by
  rw [Bool.eq_iff_iff]
  constructor
  · intro dots
    by_cases safe : ∀ c ∈ cs, pathSafe c = true
    · rwa [encode_same cs safe] at dots
    · -- What is not safe leaves a percent sign, which is no dot.
      obtain ⟨c, member, unsafe_⟩ : ∃ c ∈ cs, ¬ pathSafe c = true := by simpa using safe
      have percentage : '%' ∈ encode pathSafe cs := by
        refine List.mem_flatMap.mpr ⟨c, member, ?_⟩
        rw [if_neg unsafe_, percent_octets]
        cases octets : String.utf8EncodeChar c with
        | nil => exact (String.utf8EncodeChar_ne_nil octets).elim
        | cons x others => simp
      rw [isDots, Bool.or_eq_true, decide_eq_true_eq, decide_eq_true_eq] at dots
      rcases dots with one | two
      · rw [one] at percentage
        exact absurd percentage (by decide)
      · rw [two] at percentage
        exact absurd percentage (by decide)
  · intro dots
    rwa [encode_same cs (dots_safe cs dots)]

theorem undotted_encode (cs : List Char) (undotted : Undotted cs) : Undotted (encode pathSafe cs) := by
  intro part member
  rw [encode_split] at member
  obtain ⟨original, inside, rfl⟩ := List.mem_map.mp member
  rw [encode_dots]
  exact undotted original inside

theorem undotted_nil : Undotted [] := by simp [Undotted, isDots]

theorem undotted_below (front rest : List Char) : Undotted (front ++ '/' :: rest) ↔ Undotted front ∧ Undotted rest := by
  simp only [Undotted, List.splitOn_append_cons_self, List.forall_mem_append]

theorem normal_undotted (cs : List Char) (undotted : Undotted cs) : normalPath cs = cs := by
  have none : (cs.splitOn '/').any isDots = false := by simpa [Undotted] using undotted
  rw [normalPath, none]
  rfl

-- A component of a path that is left when dots have been followed.
def Solid (part : List Char) : Prop := isDots part = false ∧ '/' ∉ part

theorem climb_solid (done : List (List Char)) (part : List Char) (solid : ∀ p ∈ done, Solid p) (slashless : '/' ∉ part) :
    ∀ p ∈ climbStep done part, Solid p := by
  rw [climbStep]
  split
  · exact solid
  · rename_i one
    split
    · split
      · exact solid
      · exact fun p member => solid p (List.mem_of_mem_drop member)
    · rename_i two
      exact List.forall_mem_cons.mpr ⟨⟨by simp [isDots, one, two], slashless⟩, solid⟩

theorem climbs_solid (parts done : List (List Char)) (solid : ∀ p ∈ done, Solid p)
    (slashless : ∀ part ∈ parts, '/' ∉ part) : ∀ p ∈ parts.foldl climbStep done, Solid p := by
  induction parts generalizing done with
  | nil => exact solid
  | cons part rest ih =>
      obtain ⟨front, back⟩ := List.forall_mem_cons.mp slashless
      exact ih (climbStep done part) (climb_solid done part solid front) back

theorem undotted_join (parts : List (List Char)) (solid : ∀ p ∈ parts, Solid p) : Undotted (joinSlash parts) := by
  by_cases empty : parts = []
  · rw [empty]
    exact undotted_nil
  · rw [Undotted, joinSlash, List.splitOn_intercalate '/' (fun p member => (solid p member).2) empty]
    exact fun p member => (solid p member).1

theorem undotted_normal (cs : List Char) : Undotted (normalPath cs) := by
  rw [normalPath]
  split
  · apply undotted_join
    intro p member
    have slashless := parts_slashless cs
    exact climbs_solid _ [] (by simp) slashless p (List.mem_reverse.mp member)
  · rename_i none
    simpa [Undotted] using none

theorem join_last (parts : List (List Char)) (some_parts : parts ≠ []) :
    joinSlash (parts ++ [[]]) = joinSlash parts ++ ['/'] := by
  induction parts with
  | nil => exact (some_parts rfl).elim
  | cons part rest ih =>
      cases rest with
      | nil => simp [joinSlash]
      | cons next rest =>
          have inner := ih (by simp)
          simp only [joinSlash, List.cons_append, List.intercalate_cons_cons] at inner ⊢
          rw [inner]
          simp

theorem normal_ended (front : List Char) :
    normalPath (front ++ ['/']) = [] ∨ ∃ rest, normalPath (front ++ ['/']) = rest ++ ['/'] := by
  rw [normalPath]
  split
  · have parts : (front ++ ['/']).splitOn '/' = front.splitOn '/' ++ [[]] := List.splitOn_append_cons_self front []
    rw [parts, List.foldl_append, List.foldl_cons, List.foldl_nil,
      show ∀ done, climbStep done [] = [] :: done from fun _ => rfl, List.reverse_cons]
    by_cases empty : ((front.splitOn '/').foldl climbStep []).reverse = []
    · rw [empty]
      exact .inl rfl
    · exact .inr ⟨_, join_last _ empty⟩
  · exact .inr ⟨front, rfl⟩

/-! ### Building -/

-- The path that is encoded when a URL is built.
def placed (hasScheme hasAuthority : Bool) (path : List Char) : List Char :=
  let path := if hasScheme || hasAuthority then normalPath path else path
  if hasAuthority && path.isEmpty then ['/'] else path

def hasAuthority (u : Url) : Bool := u.userInfo != "" || u.host != "" || u.port.isSome

structure Built (scheme path : List Char) (query : Option (List Char)) (u : Url) : Prop where
  sameScheme : u.scheme = Text.lowerAscii (String.ofList scheme)
  samePath : u.path = String.ofList (encode pathSafe (placed (!scheme.isEmpty) u.hasAuthority path))
  sameQuery : u.query = query.map fun q => String.ofList (encode querySafe q)

theorem build_parts (scheme authority path : List Char) (query fragment : Option (List Char)) (u : Url)
    (built : build scheme authority path query fragment = .ok u) : Built scheme path query u := by
  rw [build] at built
  dsimp only at built
  cases hostEq : encodeHost (splitHost (splitUser authority).2).1 with
  | error fault =>
      rw [hostEq] at built
      cases built
  | ok host =>
      cases portEq : readPort (String.ofList scheme) (splitHost (splitUser authority).2).2 with
      | error fault =>
          simp only [hostEq, portEq, bind, Except.bind] at built
          cases built
      | ok port =>
          simp only [hostEq, portEq, bind, Except.bind] at built
          split at built
          · cases built
          · cases built
            exact ⟨rfl, rfl, rfl⟩

theorem build_relative (path : List Char) (query fragment : Option (List Char)) :
    build [] [] path query fragment = (checkPath false false path).map fun _ =>
      ⟨"", "", "", none, String.ofList (encode pathSafe path), query.map fun q => String.ofList (encode querySafe q),
        fragment.map fun f => String.ofList (encode fragmentSafe f)⟩ := rfl

theorem placed_undotted (hasScheme hasAuthority : Bool) (path : List Char) (undotted : Undotted path)
    (some_path : path ≠ []) : placed hasScheme hasAuthority path = path := by
  simp [placed, normal_undotted path undotted, some_path]

theorem placed_settled (hasScheme hasAuthority : Bool) (path : List Char) :
    Undotted (placed hasScheme hasAuthority path) ∨ hasScheme = false ∧ hasAuthority = false := by
  by_cases rooted : (hasScheme || hasAuthority) = true
  · left
    rw [placed, if_pos rooted]
    split
    · exact (undotted_below [] []).mpr ⟨undotted_nil, undotted_nil⟩
    · exact undotted_normal path
  · right
    simpa using rooted

theorem placed_ended (hasScheme hasAuthority : Bool) (front : List Char) :
    placed hasScheme hasAuthority (front ++ ['/']) = [] ∨
      ∃ rest, placed hasScheme hasAuthority (front ++ ['/']) = rest ++ ['/'] := by
  have ended : ∀ path : List Char, path = [] ∨ (∃ rest, path = rest ++ ['/']) →
      (if hasAuthority && path.isEmpty then ['/'] else path) = [] ∨
        ∃ rest, (if hasAuthority && path.isEmpty then ['/'] else path) = rest ++ ['/'] := by
    intro path either
    split
    · exact .inr ⟨[], rfl⟩
    · exact either
  rw [placed]
  apply ended
  split
  · exact normal_ended front
  · exact .inr ⟨front, rfl⟩

/-! ### Bases -/

-- What is known of any URL: its path is encoded, and has no dots left to follow unless
-- the URL is nothing but a path.
structure Formed (u : Url) : Prop where
  safe : ∀ c ∈ u.path.toList, pathSafe c = true
  settled : Undotted u.path.toList ∨ u.scheme = "" ∧ u.authority = ""

theorem build_formed (scheme authority path : List Char) (query fragment : Option (List Char)) (u : Url)
    (built : build scheme authority path query fragment = .ok u) : Formed u := by
  have parts := build_parts scheme authority path query fragment u built
  have chars : u.path.toList = encode pathSafe (placed (!scheme.isEmpty) u.hasAuthority path) := by
    rw [parts.samePath, String.toList_ofList]
  refine ⟨by rw [chars]; exact encode_safe _, ?_⟩
  rcases placed_settled (!scheme.isEmpty) u.hasAuthority path with undotted | ⟨bare, alone⟩
  · rw [chars]
    exact .inl (undotted_encode _ undotted)
  · right
    simp only [hasAuthority, Bool.or_eq_false_iff, bne_eq_false_iff_eq, Option.isSome_eq_false_iff,
      Option.isNone_iff_eq_none] at alone
    obtain ⟨⟨user, host⟩, port⟩ := alone
    have none : scheme = [] := by simpa using bare
    refine ⟨by rw [parts.sameScheme, none]; rfl, ?_⟩
    simp [Url.authority, user, host, port]

theorem parse_formed (text : String) (u : Url) (parsed : parse text = .ok u) : Formed u := by
  rw [parse] at parsed
  split at parsed
  · cases parsed
  · split at parsed
    · cases parsed
    · exact build_formed _ _ _ _ _ u parsed

-- A base: its path ends with a slash, and nothing comes after it.
structure IsBase (u : Url) : Prop extends Formed u where
  unasked : u.query = none
  ended : ∃ front, u.rawPath.toList = front ++ ['/']

theorem cut_absent (sep : Char) (cs : List Char) (absent : sep ∉ cs) : Text.cut sep cs = (cs, none) := by
  induction cs with
  | nil => rfl
  | cons c rest ih =>
      have apart : c ≠ sep := fun same => absent (same ▸ List.mem_cons_self)
      rw [Text.cut, if_neg apart, ih fun member => absent (List.mem_cons_of_mem c member)]

theorem cut_whole (sep : Char) (cs : List Char) (none : (Text.cut sep cs).2 = none) : (Text.cut sep cs).1 = cs := by
  induction cs with
  | nil => rfl
  | cons c rest ih =>
      rw [Text.cut] at none ⊢
      split at none
      · cases none
      · rename_i apart
        rw [if_neg apart]
        exact congrArg (c :: ·) (ih none)

theorem raw_unasked (u : Url) (unasked : u.query = none) : u.rawPath = if u.path = "" then "/" else u.path := by
  simp [rawPath, unasked]

theorem as_base (u base : Url) (formed : Formed u) (made : u.asBase = .ok base) (unasked : base.query = none) :
    IsBase base := by
  rw [asBase] at made
  split at made
  · rename_i ended
    cases made
    rw [Text.hasEnd, List.isSuffixOf_iff_suffix] at ended
    obtain ⟨front, same⟩ := ended
    exact ⟨formed, unasked, front, same.symm⟩
  · rw [withRawPath] at made
    dsimp only at made
    have built := build_parts _ _ _ _ _ base made
    have none := unasked
    rw [built.sameQuery, Option.map_eq_none_iff] at none
    refine ⟨build_formed _ _ _ _ _ base made, unasked, ?_⟩
    have chars : base.path.toList = encode pathSafe
        (placed (!u.scheme.toList.isEmpty) base.hasAuthority (u.rawPath.toList ++ ['/'])) := by
      rw [built.samePath, String.toList_ofList, cut_whole '?' _ none, String.toList_append]
      rfl
    rw [raw_unasked base unasked]
    rcases placed_ended (!u.scheme.toList.isEmpty) base.hasAuthority u.rawPath.toList with empty | ⟨rest, ended⟩
    · have bare : base.path = "" := by
        rw [← String.toList_inj, chars, empty]
        rfl
      rw [if_pos bare]
      exact ⟨[], rfl⟩
    · rw [ended, encode_append, slash_kept] at chars
      have filled : base.path ≠ "" := by
        intro bare
        rw [bare] at chars
        exact absurd chars.symm (by simp)
      rw [if_neg filled]
      exact ⟨_, chars⟩

theorem linked_parts (text : String) (link : Link) (linked : Link.toBase text = .ok link) :
    ∃ u base, parse text = .ok u ∧ u.asBase = .ok base ∧ link = .wire base := by
  rw [Link.toBase] at linked
  cases parsed : parse text with
  | error fault =>
      rw [parsed] at linked
      cases linked
  | ok u =>
      rw [parsed, Except.bind] at linked
      cases made : u.asBase with
      | error fault =>
          rw [made] at linked
          cases linked
      | ok base =>
          rw [made] at linked
          cases linked
          exact ⟨u, base, rfl, made, rfl⟩

theorem linked_base (text : String) (base : Url) (linked : Link.toBase text = .ok (.wire base))
    (unasked : base.query = none) : IsBase base := by
  obtain ⟨u, _, parsed, made, same⟩ := linked_parts text _ linked
  cases same
  exact as_base u base (parse_formed text u parsed) made unasked

/-! ### Paths below a base -/

theorem parse_rooted (tail : List Char) (u : Url) (first : tail.head? ≠ some '/') (unasked : '?' ∉ tail)
    (unmarked : '#' ∉ tail) (parsed : parse (String.ofList ('/' :: tail)) = .ok u) :
    u = ⟨"", "", "", none, String.ofList (encode pathSafe ('/' :: tail)), none, none⟩ := by
  have authority : splitAuthority ('/' :: tail) = ([], '/' :: tail) := by
    cases tail with
    | nil => rfl
    | cons c rest =>
        have apart : c ≠ '/' := by simpa using first
        simp [splitAuthority, apart]
  have whole : splitTail ('/' :: tail) = ('/' :: tail, none, none) := by
    simp [splitTail, cut_absent, unasked, unmarked]
  have scheme : splitScheme ('/' :: tail) = ([], '/' :: tail) := rfl
  rw [parse] at parsed
  split at parsed
  · cases parsed
  · split at parsed
    · cases parsed
    · rw [String.toList_ofList, scheme] at parsed
      simp only [authority, whole, build_relative] at parsed
      cases check : checkPath false false ('/' :: tail) with
      | error fault =>
          rw [check] at parsed
          cases parsed
      | ok done =>
          rw [check] at parsed
          cases parsed
          rfl

theorem raw_undotted (base : Url) (isBase : IsBase base) (undotted : Undotted base.path.toList) :
    Undotted base.rawPath.toList := by
  rw [raw_unasked base isBase.unasked]
  split
  · exact (undotted_below [] []).mpr ⟨undotted_nil, undotted_nil⟩
  · exact undotted

theorem raw_safe (base : Url) (isBase : IsBase base) : ∀ c ∈ base.rawPath.toList, pathSafe c = true := by
  rw [raw_unasked base isBase.unasked]
  split
  · exact List.all_eq_true.mp rfl
  · exact isBase.safe

theorem encode_first (cs : List Char) (first : cs.head? ≠ some '/') :
    (encode pathSafe cs).dropWhile (· == '/') = encode pathSafe cs := by
  cases encoded : encode pathSafe cs with
  | nil => rfl
  | cons a more =>
      have apart : a ≠ '/' := by
        rcases encode_front cs more a encoded with rfl | ⟨rest, rfl, _⟩
        · decide
        · simpa using first
      rw [List.dropWhile_cons_of_neg (by simpa using apart)]

theorem built_below (base : Url) (isBase : IsBase base) (tail : List Char) (fragment : Option (List Char)) (u : Url)
    (undotted : Undotted tail)
    (built : build base.scheme.toList base.authority.toList (base.rawPath.toList ++ tail) none fragment = .ok u) :
    u.query = none ∧ u.path.toList = encode pathSafe (base.rawPath.toList ++ tail) := by
  rcases isBase.settled with settled | ⟨scheme, authority⟩
  · have parts := build_parts _ _ _ _ _ u built
    obtain ⟨front, ended⟩ := isBase.ended
    have raw := raw_undotted base isBase settled
    rw [ended, undotted_below] at raw
    have whole : Undotted (base.rawPath.toList ++ tail) := by
      rw [ended, List.append_assoc, List.singleton_append, undotted_below]
      exact ⟨raw.1, undotted⟩
    refine ⟨parts.sameQuery, ?_⟩
    rw [parts.samePath, String.toList_ofList, placed_undotted _ _ _ whole (by rw [ended]; simp)]
  · rw [scheme, authority, show "".toList = [] from rfl, build_relative] at built
    cases check : checkPath false false (base.rawPath.toList ++ tail) with
    | error fault =>
        rw [check] at built
        cases built
    | ok done =>
        rw [check] at built
        cases built
        exact ⟨rfl, String.toList_ofList⟩

-- A path that can be followed as it stands is put behind the path of the base.
theorem below_path (base : Url) (isBase : IsBase base) (tail : List Char) (u : Url) (first : tail.head? ≠ some '/')
    (unasked : '?' ∉ tail) (unmarked : '#' ∉ tail) (undotted : Undotted tail)
    (below : base.below (String.ofList ('/' :: tail)) = .ok u) :
    u.query = none ∧ u.path.toList = base.rawPath.toList ++ encode pathSafe tail := by
  rw [Url.below] at below
  cases parsed : parse (String.ofList ('/' :: tail)) with
  | error fault =>
      rw [parsed] at below
      cases below
  | ok relative =>
      have shape := parse_rooted tail relative first unasked unmarked parsed
      have rooted : encode pathSafe ('/' :: tail) = '/' :: encode pathSafe tail := by
        rw [← List.singleton_append, encode_append, slash_kept]
        rfl
      have path : relative.path.toList = '/' :: encode pathSafe tail := by
        rw [shape, ← rooted]
        exact String.toList_ofList
      have raw : relative.rawPath.toList.dropWhile (· == '/') = encode pathSafe tail := by
        have filled : relative.path ≠ "" := by
          intro bare
          rw [bare] at path
          cases path
        rw [raw_unasked relative (by rw [shape]), if_neg filled, path,
          List.dropWhile_cons_of_pos (by decide), encode_first tail first]
      have local_ : relative.isAbsolute = false := by
        rw [shape]
        rfl
      simp only [parsed, bind, Except.bind, local_, raw] at below
      rw [withRawPath] at below
      have safe : ∀ c ∈ base.rawPath.toList ++ encode pathSafe tail, pathSafe c = true := by
        intro c member
        rcases List.mem_append.mp member with front | back
        · exact raw_safe base isBase c front
        · exact encode_safe tail c back
      have unasked_ : '?' ∉ base.rawPath.toList ++ encode pathSafe tail :=
        fun member => absurd (safe '?' member) (by decide)
      simp only [String.toList_append, String.toList_ofList, cut_absent '?' _ unasked_] at below
      have laid := built_below base isBase _ _ u (undotted_encode tail undotted) below
      rwa [encode_same _ safe] at laid

/-! ### Segments -/

-- A text that stands for itself as one segment of a path.
structure Segment (s : String) : Prop where
  dotless : isDots s.toList = false
  literal : hasEscape s.toList = false
  clear : ∀ c ∈ s.toList, c ∉ ['/', '?', '#']

theorem segment_iff (s : String) : Segment s ↔
    (!isDots s.toList && !hasEscape s.toList && s.toList.all fun c => !(['/', '?', '#'].contains c)) = true := by
  simp only [Bool.and_eq_true, Bool.not_eq_true', List.all_eq_true, List.contains_eq_mem, decide_eq_false_iff_not]
  exact ⟨fun h => ⟨⟨h.dotless, h.literal⟩, h.clear⟩, fun ⟨⟨dotless, literal⟩, clear⟩ => ⟨dotless, literal, clear⟩⟩

instance (s : String) : Decidable (Segment s) := decidable_of_iff _ (segment_iff s).symm

-- A URL leads to segments below a base: behind the path of the base there is one part
-- for each, which is decoded to it, and nothing is asked of what is there.
structure Addresses (base : Url) (segments : List String) (u : Url) : Prop where
  path : ∃ front parts, base.rawPath.toList = front ++ ['/'] ∧
    u.path.toList.splitOn '/' = front.splitOn '/' ++ parts ∧ parts.map decoded = segments.map some
  unasked : u.query = none

theorem join_head (part : List Char) (rest : List (List Char)) (some_part : part ≠ []) :
    (joinSlash (part :: rest)).head? = part.head? := by
  cases part with
  | nil => exact (some_part rfl).elim
  | cons c others => cases rest <;> simp [joinSlash]

def rooted (segments : List String) : String := String.ofList ('/' :: joinSlash (segments.map String.toList))

theorem below_addresses (base : Url) (isBase : IsBase base) (first : String) (rest : List String) (u : Url)
    (named : first ≠ "") (each : ∀ s ∈ first :: rest, Segment s) (below : base.below (rooted (first :: rest)) = .ok u) :
    Addresses base (first :: rest) u := by
  let parts := (first :: rest).map String.toList
  have original (part : List Char) (member : part ∈ parts) : ∃ s ∈ first :: rest, s.toList = part :=
    List.mem_map.mp member
  have slashless : ∀ part ∈ parts, '/' ∉ part := by
    intro part member slash
    obtain ⟨s, inside, rfl⟩ := original part member
    exact (each s inside).clear '/' slash (by simp)
  have split : (joinSlash parts).splitOn '/' = parts := List.splitOn_intercalate '/' slashless (by simp [parts])
  have undotted : Undotted (joinSlash parts) := by
    intro part member
    rw [split] at member
    obtain ⟨s, inside, rfl⟩ := original part member
    exact (each s inside).dotless
  have clear (c : Char) (other : c ≠ '/') (listed : c ∈ ['/', '?', '#']) : c ∉ joinSlash parts := by
    rw [← pieces_char _ c other, split]
    rintro ⟨part, inside, here⟩
    obtain ⟨s, among, rfl⟩ := original part inside
    exact (each s among).clear c here listed
  have front : (joinSlash parts).head? ≠ some '/' := by
    intro slash
    have filled : first.toList ≠ [] := by simpa using named
    rw [show parts = first.toList :: rest.map String.toList from rfl, join_head _ _ filled] at slash
    exact (each first List.mem_cons_self).clear '/' (List.mem_of_mem_head? slash) (by simp)
  obtain ⟨unasked, path⟩ := below_path base isBase (joinSlash parts) u front (clear '?' (by decide) (by simp))
    (clear '#' (by decide) (by simp)) undotted below
  obtain ⟨before, ended⟩ := isBase.ended
  refine ⟨⟨before, parts.map (encode pathSafe), ended, ?_, ?_⟩, unasked⟩
  · rw [path, ended, List.append_assoc, List.singleton_append, List.splitOn_append_cons_self, encode_split, split]
  · simp only [parts, List.map_map]
    apply List.map_congr_left
    intro s member
    exact decoded_encode s (each s member).literal

end HostingAdmin.Url
