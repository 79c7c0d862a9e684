import HostingAdmin.FileTree.Real
import HostingAdmin.Proofs.FileRewrites

set_option autoImplicit false

namespace HostingAdmin

namespace Node

-- A node without what is in it.
def outline : Node → Node
  | .folder _ => .folder []
  | n => n

-- What is at a place, apart from the places below it.
def look (root : Node) (at_ : List String) : Option Node := (root.get? at_).map outline

-- A node with nothing below it, and no link.
inductive Leaf : Node → Prop where
  | file (body : Bytes) (modified : Int) : Leaf (.file body modified)
  | folder : Leaf (.folder [])

theorem look_kind (n : Node) : n.outline.kind = n.kind := by
  cases n <;> rfl

theorem look_none (root : Node) (at_ : List String) : root.look at_ = none ↔ root.get? at_ = none :=
  Option.map_eq_none_iff

theorem look_file (root : Node) (at_ : List String) (body : Bytes) (modified : Int) :
    root.look at_ = some (.file body modified) ↔ root.get? at_ = some (.file body modified) := by
  rw [look]
  cases root.get? at_ with
  | none => simp
  | some n => cases n <;> simp [outline]

theorem look_link (root : Node) (at_ : List String) (target : String) :
    root.look at_ = some (.link target) ↔ root.get? at_ = some (.link target) := by
  rw [look]
  cases root.get? at_ with
  | none => simp
  | some n => cases n <;> simp [outline]

theorem look_folder (root : Node) (at_ : List String) :
    root.look at_ = some (.folder []) ↔ ∃ entries, root.get? at_ = some (.folder entries) := by
  rw [look]
  cases root.get? at_ with
  | none => simp
  | some n => cases n <;> simp [outline]

theorem look_entry (entries : List (String × Node)) (name : String) (rest : List String) :
    (Node.folder entries).look (name :: rest) = (entries.lookup name).bind (look · rest) := by
  rw [look, get?, child?]
  cases entries.lookup name <;> rfl

theorem look_beyond (root : Node) (at_ : List String) (name : String) (rest : List String)
    (there : root.look (at_ ++ name :: rest) ≠ none) : root.look at_ = some (.folder []) := by
  rw [look_folder]
  rw [look, get_append] at there
  cases found : root.get? at_ with
  | none => simp [found] at there
  | some n =>
      cases n with
      | folder entries => exact ⟨entries, rfl⟩
      | _ => simp [found, get?, child?] at there

theorem leaf_look (x : Node) (leaf : Leaf x) (at_ : List String) :
    x.look at_ = if at_ = [] then some x else none := by
  cases at_ with
  | nil => cases leaf <;> rfl
  | cons name rest => cases leaf <;> rfl

theorem put_look (root x : Node) (here : List String) (name : String) (entries : List (String × Node))
    (folder : root.get? here = some (.folder entries)) (at_ : List String) :
    (root.put (here ++ [name]) x).look at_ =
      if here ++ [name] <+: at_ then x.look (at_.drop (here.length + 1)) else root.look at_ := by
  induction here generalizing root at_ with
  | nil =>
      cases folder
      cases at_ with
      | nil => simp [put, look, get?, outline]
      | cons first others =>
          by_cases same : first = name
          · subst same
            simp [put, look_entry, bind_lookup]
          · have apart : name ≠ first := fun equal => same equal.symm
            simp [put, look_entry, bind_lookup, same, apart]
  | cons head rest ih =>
      obtain ⟨child, found, below⟩ := Option.bind_eq_some_iff.mp folder
      cases root with
      | file body modified => cases found
      | link target => cases found
      | folder others =>
          have entry : others.lookup head = some child := found
          have inside : (Node.folder others).put (head :: (rest ++ [name])) x =
              .folder (bind head (child.put (rest ++ [name]) x) others) := by
            cases rest <;> simp [put, entry]
          rw [List.cons_append, inside]
          cases at_ with
          | nil => simp [look, get?, outline]
          | cons first more =>
              by_cases same : first = head
              · subst same
                simp only [look_entry, bind_lookup, if_true, Option.bind_some, List.cons_prefix_cons, true_and,
                  List.length_cons, List.drop_succ_cons, entry]
                exact ih child below more
              · have apart : head ≠ first := fun equal => same equal.symm
                simp [look_entry, bind_lookup, same, apart]

theorem put_leaf (root x : Node) (here : List String) (name : String) (entries : List (String × Node))
    (folder : root.get? here = some (.folder entries)) (leaf : Leaf x)
    (free : ∀ n, root.get? (here ++ [name]) = some n → Leaf n) (at_ : List String) :
    (root.put (here ++ [name]) x).look at_ = if at_ = here ++ [name] then some x else root.look at_ := by
  rw [put_look root x here name entries folder at_]
  by_cases within : here ++ [name] <+: at_
  · obtain ⟨rest, rfl⟩ := within
    rw [if_pos (List.prefix_append _ _), leaf_look x leaf]
    cases rest with
    | nil => simp
    | cons first more =>
        have vacant : root.look (here ++ [name] ++ first :: more) = none := by
          by_cases there : root.look (here ++ [name] ++ first :: more) = none
          · exact there
          · obtain ⟨inside, found⟩ := (look_folder root _).mp (look_beyond root _ first more there)
            cases free _ found
            rw [look_none, get_append, found]
            rfl
        rw [vacant]
        simp
  · have other : at_ ≠ here ++ [name] := by
      rintro rfl
      exact within (List.prefix_refl _)
    rw [if_neg within, if_neg other]

theorem bind_links (name : String) (n : Node) (entries : List (String × Node)) :
    linkCounts (bind name n entries) + ((entries.lookup name).map linkCount).getD 0 =
      linkCounts entries + n.linkCount := by
  induction entries with
  | nil => simp [bind, linkCounts]
  | cons e rest ih =>
      obtain ⟨first, child⟩ := e
      rw [Members.lookup_entry]
      by_cases here : first = name
      · subst here
        simp only [bind, linkCounts, if_true, Option.map_some, Option.getD_some]
        omega
      · rw [if_neg fun same => here same.symm, bind, if_neg here]
        simp only [linkCounts]
        omega

theorem put_links (root x : Node) (here : List String) (name : String) (entries : List (String × Node))
    (folder : root.get? here = some (.folder entries)) :
    (root.put (here ++ [name]) x).linkCount + ((root.get? (here ++ [name])).map linkCount).getD 0 =
      root.linkCount + x.linkCount := by
  induction here generalizing root with
  | nil =>
      cases folder
      have entry : (Node.folder entries).get? [name] = entries.lookup name := get_entry _ [] entries name rfl
      simp only [List.nil_append, entry, put, linkCount]
      exact bind_links name x entries
  | cons head rest ih =>
      obtain ⟨child, found, below⟩ := Option.bind_eq_some_iff.mp folder
      cases root with
      | file body modified => cases found
      | link target => cases found
      | folder others =>
          have entry : others.lookup head = some child := found
          have inside : (Node.folder others).put (head :: (rest ++ [name])) x =
              .folder (bind head (child.put (rest ++ [name]) x) others) := by
            cases rest <;> simp [put, entry]
          have counted := bind_links head (child.put (rest ++ [name]) x) others
          have further := ih child below
          simp only [List.cons_append, inside, linkCount, get?, child?, entry, Option.bind_some, Option.map_some,
            Option.getD_some] at counted further ⊢
          omega

-- No name stands twice in a folder, if there is one at a place.
def Unique (root : Node) (at_ : List String) : Prop :=
  ∀ entries, root.get? at_ = some (.folder entries) → (Members.names entries).Nodup

theorem leaf_unique (x : Node) (leaf : Leaf x) (at_ : List String) : x.Unique at_ := by
  intro entries there
  have seen := (look_folder x at_).mpr ⟨entries, there⟩
  rw [leaf_look x leaf] at seen
  split at seen
  · rename_i top
    subst top
    cases there
    cases leaf
    exact List.nodup_nil
  · cases seen

theorem bind_unique (name : String) (child : Node) (old : List (String × Node)) (at_ : List String)
    (unique : (Node.folder old).Unique at_) (inside : ∀ more, at_ = name :: more → child.Unique more) :
    (Node.folder (bind name child old)).Unique at_ := by
  intro entries there
  cases at_ with
  | nil =>
      cases there
      rw [bind_put]
      exact Members.put_nodup name child old (unique old rfl)
  | cons first more =>
      rw [get?, child?, bind_lookup] at there
      by_cases same : first = name
      · subst same
        rw [if_pos rfl] at there
        exact inside more rfl entries there
      · rw [if_neg same] at there
        exact unique entries there

theorem put_unique (root x : Node) (spot at_ : List String) (leaf : Leaf x) (unique : root.Unique at_) :
    (root.put spot x).Unique at_ := by
  induction spot generalizing root at_ with
  | nil =>
      have whole : root.put [] x = x := by cases root <;> rfl
      rw [whole]
      exact leaf_unique x leaf at_
  | cons name rest ih =>
      cases root with
      | file body modified => exact unique
      | link target => exact unique
      | folder old =>
          cases rest with
          | nil => exact bind_unique name x old at_ unique fun more _ => leaf_unique x leaf more
          | cons second others =>
              cases entry : old.lookup name with
              | none => simpa only [put, entry] using unique
              | some child =>
                  simp only [put, entry]
                  refine bind_unique name _ old at_ unique ?_
                  rintro more rfl
                  apply ih child more
                  intro entries there
                  exact unique entries (by rw [get?, child?, entry, Option.bind_some, there])

-- A leaf has come to a place where nothing or a file was.
structure Laid (root other : Node) (spot : List String) (x : Node) : Prop where
  whole : other = root.put spot x
  leaf : Leaf x
  free : root.Free spot
  look : ∀ at_, other.look at_ = if at_ = spot then some x else root.look at_
  links : other.linkCount = root.linkCount

theorem leaf_links (x : Node) (leaf : Leaf x) : x.linkCount = 0 := by
  cases leaf <;> rfl

theorem file_leaves (n : Node) (file : n.kind = .file) : Leaf n := by
  cases n with
  | file body modified => exact .file body modified
  | _ => cases file

theorem put_laid (root x : Node) (here : List String) (name : String) (entries : List (String × Node))
    (folder : root.get? here = some (.folder entries)) (leaf : Leaf x) (free : root.Free (here ++ [name])) :
    Laid root (root.put (here ++ [name]) x) (here ++ [name]) x := by
  refine ⟨rfl, leaf, free, ?_, ?_⟩
  · exact put_leaf root x here name entries folder leaf fun n there => file_leaves n (free n there)
  · have counted := put_links root x here name entries folder
    have plain : ((root.get? (here ++ [name])).map linkCount).getD 0 = 0 := by
      cases found : root.get? (here ++ [name]) with
      | none => rfl
      | some n => exact leaf_links n (file_leaves n (free n found))
    rw [plain, leaf_links x leaf] at counted
    exact counted

theorem above_folder (root n : Node) (here : List String) (name : String)
    (there : root.get? (here ++ [name]) = some n) : ∃ entries, root.get? here = some (.folder entries) := by
  have seen : root.look (here ++ name :: []) ≠ none := by
    rw [look, there]
    exact Option.some_ne_none _
  exact (look_folder root here).mp (look_beyond root here name [] seen)

theorem vacant_above (root : Node) (follow : Bool) (links : Nat) (here todo at_ : List String)
    (walked : root.walk follow links here todo = .ok (.vacant at_)) :
    ∃ above name entries, at_ = above ++ [name] ∧ root.get? above = some (.folder entries) := by
  fun_induction Node.walk root follow links here todo with
  | case3 links here rest entries folder ih => exact ih walked
  | case5 links here part rest entries folder up long entry last =>
      cases walked
      exact ⟨here, part, entries, rfl, folder⟩
  | case9 here part rest entries folder up long target entry goesOn links t ih => exact ih walked
  | case10 links here part rest entries folder up long child notLink entry ih => exact ih walked
  | _ => cases walked

theorem vacant_laid (root x : Node) (follow : Bool) (links : Nat) (here todo at_ : List String) (leaf : Leaf x)
    (walked : root.walk follow links here todo = .ok (.vacant at_)) : Laid root (root.put at_ x) at_ x := by
  have vacant := walk_vacant root follow links here todo at_ walked
  obtain ⟨above, name, entries, rfl, folder⟩ := vacant_above root follow links here todo at_ walked
  refine put_laid root x above name entries folder leaf ?_
  intro n there
  rw [vacant] at there
  cases there

theorem file_laid (root x n : Node) (at_ : List String) (leaf : Leaf x) (there : root.get? at_ = some n)
    (file : n.kind = .file) : Laid root (root.put at_ x) at_ x := by
  have free : root.Free at_ := by
    intro m found
    rw [there] at found
    cases found
    exact file
  by_cases top : at_ = []
  · subst top
    cases there
    cases file_leaves root file with
    | file body modified =>
        refine ⟨rfl, leaf, free, ?_, ?_⟩
        · intro at_
          have alone : (Node.put (.file body modified) [] x) = x := rfl
          rw [alone, leaf_look x leaf]
          split
          · rfl
          · rename_i below
            rw [leaf_look _ (.file body modified), if_neg below]
        · exact leaf_links x leaf
    | folder => cases file
  · rw [← List.dropLast_concat_getLast top] at there free ⊢
    obtain ⟨entries, folder⟩ := above_folder root n _ _ there
    exact put_laid root x _ _ entries folder leaf free

section

variable (root other : Node) (spot : List String) (x : Node) (laid : Laid root other spot x)

include laid

theorem laid_there : other.look spot = some x := by
  rw [laid.look, if_pos rfl]

theorem laid_other (at_ : List String) (apart : at_ ≠ spot) : other.look at_ = root.look at_ := by
  rw [laid.look, if_neg apart]

theorem laid_link (at_ : List String) (target : String) :
    other.look at_ = some (.link target) ↔ root.look at_ = some (.link target) := by
  by_cases same : at_ = spot
  · subst same
    rw [laid_there root other at_ x laid]
    constructor
    · intro link
      cases link
      cases laid.leaf
    · intro link
      rw [look_link] at link
      cases laid.free _ link
  · rw [laid_other root other spot x laid at_ same]

end

end Node

namespace FileTree

-- Nothing has changed except that there are more folders.
structure Built (t u : FileTree) : Prop where
  current : u.current = t.current
  kept : ∀ at_ n, t.root.look at_ = some n → u.root.look at_ = some n
  fresh : ∀ at_ n, u.root.look at_ = some n → t.root.look at_ = some n ∨ n = .folder []
  links : u.root.linkCount = t.root.linkCount

theorem built_stay (t : FileTree) : t.Built t :=
  ⟨rfl, fun _ _ there => there, fun _ _ there => .inl there, rfl⟩

theorem built_chain (t u v : FileTree) (first : t.Built u) (second : u.Built v) : t.Built v where
  current := second.current.trans first.current
  kept at_ n there := second.kept at_ n (first.kept at_ n there)
  fresh at_ n there := by
    rcases second.fresh at_ n there with before | folder
    · exact first.fresh at_ n before
    · exact .inr folder
  links := second.links.trans first.links

theorem folder_made (t u : FileTree) (p : Path) (made : t.makeFolder p = .ok u) :
    ∃ spot, t.locate false p = .ok (.vacant spot) ∧ u.current = t.current ∧ t.root.get? spot = none ∧
      t.root.Laid u.root spot (.folder []) := by
  rw [makeFolder] at made
  cases located : t.locate false p with
  | error fault =>
      rw [located] at made
      cases made
  | ok s =>
      rw [located] at made
      cases s with
      | node at_ n => cases made
      | vacant at_ =>
          cases made
          obtain ⟨_, walked⟩ := (locate_walk t false p _).mp located
          have vacant := Node.walk_vacant t.root false _ _ _ at_ walked
          exact ⟨at_, rfl, rfl, vacant, Node.vacant_laid t.root _ false _ _ _ at_ .folder walked⟩

theorem folder_built (t u : FileTree) (p : Path) (made : t.makeFolder p = .ok u) : t.Built u := by
  obtain ⟨spot, _, current, vacant, laid⟩ := folder_made t u p made
  refine ⟨current, ?_, ?_, laid.links⟩
  · intro at_ n there
    have apart : at_ ≠ spot := by
      rintro rfl
      rw [(Node.look_none t.root at_).mpr vacant] at there
      cases there
    rw [Node.laid_other t.root u.root spot _ laid at_ apart, there]
  · intro at_ n there
    rw [laid.look] at there
    split at there
    · cases there
      exact .inr rfl
    · exact .inl there

-- A folder was made, or it was there already.
def Housed (t u : FileTree) (p : Path) : Prop := t.makeFolder p = .ok u ∨ u = t ∧ t.isFolder p = true

theorem folders_cases (t u : FileTree) (p : Path) (made : t.makeFolders p = .ok u) :
    Housed t u p ∨ p.parts ≠ [] ∧ ∃ v, t.makeFolders p.parent = .ok v ∧ Housed v u p := by
  rw [makeFolders] at made
  cases one : t.makeFolder p with
  | ok v =>
      rw [one] at made
      cases made
      exact .inl (.inl one)
  | error fault =>
      rw [one] at made
      dsimp only at made
      by_cases missing : fault.problem = .notFound
      · rw [if_pos missing] at made
        by_cases top : p.parts.isEmpty = true
        · rw [if_pos top] at made
          cases made
        · rw [if_neg top] at made
          refine .inr ⟨by simpa using top, ?_⟩
          cases parents : t.makeFolders p.parent with
          | error other =>
              rw [parents] at made
              cases made
          | ok v =>
              rw [parents] at made
              dsimp only at made
              refine ⟨v, rfl, ?_⟩
              cases again : v.makeFolder p with
              | ok x =>
                  rw [again] at made
                  cases made
                  exact .inl again
              | error other =>
                  rw [again] at made
                  dsimp only at made
                  by_cases still : other.problem = .notFound
                  · rw [if_pos still] at made
                    cases made
                  · rw [if_neg still] at made
                    by_cases folder : v.isFolder p = true
                    · rw [if_pos folder] at made
                      cases made
                      exact .inr ⟨rfl, folder⟩
                    · rw [if_neg folder] at made
                      cases made
      · rw [if_neg missing] at made
        by_cases folder : t.isFolder p = true
        · rw [if_pos folder] at made
          cases made
          exact .inl (.inr ⟨rfl, folder⟩)
        · rw [if_neg folder] at made
          cases made

theorem folders_within (R : FileTree → FileTree → Prop) (stay : ∀ t, R t t)
    (chain : ∀ t u v, R t u → R u v → R t v) (p : Path)
    (each : ∀ t q u, q.slashes = p.slashes → q.parts <+: p.parts → t.makeFolder q = .ok u → R t u) (t u : FileTree)
    (made : t.makeFolders p = .ok u) : R t u := by
  have last : ∀ v, Housed v u p → R v u := by
    rintro v (one | ⟨rfl, _⟩)
    · exact each v p u rfl (List.prefix_refl _) one
    · exact stay u
  induction size : p.parts.length generalizing p t u with
  | zero =>
      rcases folders_cases t u p made with housed | ⟨named, _⟩
      · exact last t housed
      · exact (named (List.eq_nil_of_length_eq_zero size)).elim
  | succ n ih =>
      rcases folders_cases t u p made with housed | ⟨_, v, parents, housed⟩
      · exact last t housed
      · have above : p.parent.parts.length = n := by
          rw [Path.parent, List.length_dropLast, size]
          rfl
        have prefixed : p.parent.parts <+: p.parts := List.dropLast_prefix p.parts
        have fewer : ∀ t q u, q.slashes = p.parent.slashes → q.parts <+: p.parent.parts → t.makeFolder q = .ok u →
            R t u := fun t q u slashes below => each t q u slashes (below.trans prefixed)
        have first : R t v := by
          refine ih p.parent fewer t v parents ?_ above
          rintro w (one | ⟨rfl, _⟩)
          · exact fewer w p.parent v rfl (List.prefix_refl _) one
          · exact stay v
        exact chain t v u first (last v housed)

theorem folders_built (t u : FileTree) (p : Path) (made : t.makeFolders p = .ok u) : t.Built u :=
  folders_within Built built_stay built_chain p (fun t q u _ _ => folder_built t u q) t u made

theorem folders_unique (t u : FileTree) (p : Path) (at_ : List String) (unique : t.root.Unique at_)
    (made : t.makeFolders p = .ok u) : u.root.Unique at_ := by
  refine folders_within (fun t u => t.root.Unique at_ → u.root.Unique at_) (fun _ same => same)
    (fun _ _ _ first second before => second (first before)) p ?_ t u made unique
  intro t q u _ _ one before
  obtain ⟨spot, _, _, _, laid⟩ := folder_made t u q one
  rw [laid.whole]
  exact Node.put_unique t.root _ spot at_ laid.leaf before

theorem file_written (t u : FileTree) (p : Path) (body : Bytes) (now : Int) (named : p.parts ≠ [])
    (written : t.write p body now = .ok u) :
    ∃ spot, (t.locate true p = .ok (.vacant spot) ∨ ∃ n, t.locate true p = .ok (.node spot n)) ∧
      u.current = t.current ∧ u.root = t.root.put spot (.file body now) ∧
      t.root.Laid u.root spot (.file body now) := by
  rw [write] at written
  cases located : t.locate true p with
  | error fault =>
      rw [located] at written
      cases written
  | ok s =>
      obtain ⟨_, walked⟩ := (locate_walk t true p s).mp located
      rw [located] at written
      cases s with
      | vacant at_ =>
          cases written
          exact ⟨at_, .inl rfl, rfl, rfl, Node.vacant_laid t.root _ true _ _ _ at_ (.file body now) walked⟩
      | node at_ n =>
          have found := Node.walk_there t.root true _ _ _ at_ n walked
          have resolved := Node.walk_named t.root _ _ _ at_ n named walked
          cases n with
          | folder entries => cases written
          | link target => cases resolved
          | file old modified =>
              cases written
              exact ⟨at_, .inr ⟨_, rfl⟩, rfl, rfl, Node.file_laid t.root _ _ at_ (.file body now) found rfl⟩

end FileTree

end HostingAdmin
