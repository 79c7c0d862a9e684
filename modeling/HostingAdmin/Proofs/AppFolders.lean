import HostingAdmin.Asset.Manifest
import HostingAdmin.Proofs.PathResolution

set_option autoImplicit false

namespace HostingAdmin

namespace Node

theorem look_grows (root other : Node)
    (kept : ∀ at_ n, root.look at_ = some n → ∃ m, other.look at_ = some m ∧ m.kind = n.kind) : root.Grows other := by
  intro at_ n there
  obtain ⟨m, found, same⟩ := kept at_ n.outline (by rw [look, there, Option.map_some])
  obtain ⟨k, further, rfl⟩ := Option.map_eq_some_iff.mp found
  rw [look_kind, look_kind] at same
  exact ⟨k, further, same⟩

theorem laid_grows (root other : Node) (spot : List String) (x : Node) (laid : Laid root other spot x)
    (fits : x.kind = .file ∨ root.get? spot = none) : root.Grows other := by
  apply look_grows
  intro at_ n there
  by_cases here : at_ = spot
  · subst here
    obtain ⟨m, found, rfl⟩ := Option.map_eq_some_iff.mp there
    rcases fits with file | vacant
    · exact ⟨x, laid_there root other at_ x laid, by rw [look_kind, laid.free m found, file]⟩
    · rw [vacant] at found
      cases found
  · exact ⟨n, by rw [laid_other root other spot x laid at_ here, there], rfl⟩

section

variable (root : Node) (links : Nat) (at_ : List String) (name : String) (entries : List (String × Node))
  (folder : root.get? at_ = some (.folder entries)) (down : name ≠ "..")
  (fits : ¬ maxNameSize < (Text.utf8 name).length)

include folder down fits

theorem walk_absent (follow : Bool) (absent : root.get? (at_ ++ [name]) = none) :
    root.walk follow links at_ [name] = .ok (.vacant (at_ ++ [name])) := by
  rw [get_entry root at_ entries name folder] at absent
  rw [walk]
  simp [folder, down, fits, absent]

theorem walk_present (n : Node) (there : root.get? (at_ ++ [name]) = some n) :
    root.walk false links at_ [name] = .ok (.node (at_ ++ [name]) n) := by
  have entry := there
  rw [get_entry root at_ entries name folder] at entry
  cases n with
  | link target =>
      rw [walk]
      simp [folder, down, fits, entry]
  | file body modified =>
      rw [walk]
      simp only [folder, down, fits, entry, if_false]
      rw [walk, there]
  | folder others =>
      rw [walk]
      simp only [folder, down, fits, entry, if_false]
      rw [walk, there]

theorem walk_entry (n : Node) (there : root.get? (at_ ++ [name]) = some n) (plain : n.isLink = false) :
    root.walk true links at_ [name] = .ok (.node (at_ ++ [name]) n) := by
  have entry := there
  rw [get_entry root at_ entries name folder] at entry
  cases n with
  | link target => cases plain
  | file body modified =>
      rw [walk]
      simp only [folder, down, fits, entry, if_false]
      rw [walk, there]
  | folder others =>
      rw [walk]
      simp only [folder, down, fits, entry, if_false]
      rw [walk, there]

end

end Node

namespace FileTree

-- A path leads to a folder.
def Opens (t : FileTree) (p : Path) (at_ : List String) : Prop :=
  ∃ entries, t.root.walk true maxLinks (if p.isAbsolute then [] else t.current) p.parts =
    .ok (.node at_ (.folder entries))

-- A path for a name in the folder of another path.
structure Below (p q : Path) (name : String) : Prop where
  slashes : q.slashes = p.slashes
  parts : q.parts = p.parts ++ [name]
  down : name ≠ ".."
  fits : ¬ maxNameSize < (Text.utf8 name).length

theorem opens_there (t : FileTree) (p : Path) (at_ : List String) (opens : t.Opens p at_) :
    ∃ entries, t.root.get? at_ = some (.folder entries) := by
  obtain ⟨entries, walked⟩ := opens
  exact ⟨entries, Node.walk_there t.root true _ _ _ at_ _ walked⟩

theorem opens_leads (t : FileTree) (p : Path) (at_ : List String) (opens : t.Opens p at_) : t.Leads p at_ := by
  obtain ⟨entries, walked⟩ := opens
  exact Node.walk_real t.root _ _ _ (.node at_ _) walked

theorem opens_plain (t : FileTree) (p : Path) (at_ : List String) (down : ".." ∉ t.current) (opens : t.Opens p at_) :
    t.root.Plain at_ := by
  obtain ⟨entries, folder⟩ := opens_there t p at_ opens
  refine ⟨?_, ?_⟩
  · refine Node.real_down t.root _ [] _ p.parts at_ ?_ (opens_leads t p at_ opens)
    split
    · exact List.not_mem_nil
    · exact down
  · rintro before ⟨after, rfl⟩ _ target link
    rw [Node.get_append, (Node.look_link t.root before target).mp link, Option.bind_some] at folder
    cases after <;> cases folder

theorem opens_grown (t u : FileTree) (current : u.current = t.current) (grows : t.root.Grows u.root) (p : Path)
    (at_ : List String) (opens : t.Opens p at_) : u.Opens p at_ := by
  obtain ⟨entries, walked⟩ := opens
  obtain ⟨m, there, again⟩ := Node.walk_grown t.root u.root grows true _ _ _ at_ _ walked
  obtain ⟨k, found, same⟩ := grows at_ _ (Node.walk_there t.root true _ _ _ at_ _ walked)
  rw [there] at found
  cases found
  obtain ⟨others, rfl⟩ := Node.kind_folder m same
  exact ⟨others, by rw [current]; exact again⟩

theorem folder_opens (t : FileTree) (p : Path) (folder : t.isFolder p = true) :
    ¬ maxPathSize < (Text.utf8 p.toString).length ∧ ∃ at_, t.Opens p at_ := by
  rw [isFolder, node] at folder
  cases located : t.locate true p with
  | error fault =>
      rw [located] at folder
      cases folder
  | ok s =>
      obtain ⟨short, walked⟩ := (locate_walk t true p s).mp located
      rw [located] at folder
      cases s with
      | vacant at_ => cases folder
      | node at_ n =>
          cases n with
          | folder entries => exact ⟨short, at_, entries, walked⟩
          | _ => cases folder

theorem below_walk (t : FileTree) (p q : Path) (name : String) (at_ : List String) (below : Below p q name)
    (opens : t.Opens p at_) : ∃ fewer, ∀ follow,
      t.root.walk follow maxLinks (if q.isAbsolute then [] else t.current) q.parts =
        t.root.walk follow fewer at_ [name] := by
  obtain ⟨entries, walked⟩ := opens
  obtain ⟨fewer, same⟩ := Node.walk_further t.root _ _ p.parts at_ _ walked
  refine ⟨fewer, fun follow => ?_⟩
  rw [below.parts, ← same follow name [], Path.isAbsolute, Path.isAbsolute, below.slashes]

theorem below_located (t : FileTree) (p q : Path) (name : String) (at_ : List String) (below : Below p q name)
    (opens : t.Opens p at_) (short : ¬ maxPathSize < (Text.utf8 q.toString).length) (n : Node)
    (there : t.root.get? (at_ ++ [name]) = some n) (plain : n.isLink = false) :
    t.locate true q = .ok (.node (at_ ++ [name]) n) := by
  obtain ⟨entries, folder⟩ := opens_there t p at_ opens
  obtain ⟨fewer, same⟩ := below_walk t p q name at_ below opens
  rw [locate_walk, same]
  exact ⟨short, Node.walk_entry t.root fewer at_ name entries folder below.down below.fits n there plain⟩

theorem below_vacant (t : FileTree) (p q : Path) (name : String) (at_ : List String) (below : Below p q name)
    (opens : t.Opens p at_) (follow : Bool) (s : Spot) (located : t.locate follow q = .ok s)
    (absent : t.root.get? (at_ ++ [name]) = none) : s = .vacant (at_ ++ [name]) := by
  obtain ⟨entries, folder⟩ := opens_there t p at_ opens
  obtain ⟨fewer, same⟩ := below_walk t p q name at_ below opens
  rw [locate_walk, same,
    Node.walk_absent t.root fewer at_ name entries folder below.down below.fits follow absent] at located
  exact (Except.ok.inj located.2).symm

theorem folder_below (t u : FileTree) (p q : Path) (name : String) (at_ : List String) (below : Below p q name)
    (opens : t.Opens p at_) (made : t.makeFolder q = .ok u) :
    t.root.get? (at_ ++ [name]) = none ∧ u.current = t.current ∧
      t.root.Laid u.root (at_ ++ [name]) (.folder []) ∧ u.Opens q (at_ ++ [name]) := by
  obtain ⟨spot, located, current, vacant, laid⟩ := folder_made t u q made
  obtain ⟨short, walked⟩ := (locate_walk t false q _).mp located
  obtain ⟨entries, folder⟩ := opens_there t p at_ opens
  obtain ⟨fewer, same⟩ := below_walk t p q name at_ below opens
  have absent : t.root.get? (at_ ++ [name]) = none := by
    cases there : t.root.get? (at_ ++ [name]) with
    | none => rfl
    | some n =>
        rw [same, Node.walk_present t.root fewer at_ name entries folder below.down below.fits n there] at walked
        cases walked
  have place := below_vacant t p q name at_ below opens false _ located absent
  cases place
  have grows := Node.laid_grows t.root u.root _ _ laid (.inr absent)
  obtain ⟨others, new⟩ := (Node.look_folder u.root _).mp (Node.laid_there t.root u.root _ _ laid)
  have reached := below_located u p q name at_ below (opens_grown t u current grows p at_ opens) short _ new rfl
  exact ⟨absent, current, laid, others, ((locate_walk u true q _).mp reached).2⟩

theorem file_below (t u : FileTree) (p q : Path) (name : String) (at_ : List String) (body : Bytes) (now : Int)
    (below : Below p q name) (opens : t.Opens p at_) (absent : t.root.get? (at_ ++ [name]) = none)
    (written : t.write q body now = .ok u) :
    u.current = t.current ∧ t.root.Laid u.root (at_ ++ [name]) (.file body now) ∧
      u.locate true q = .ok (.node (at_ ++ [name]) (.file body now)) := by
  have named : q.parts ≠ [] := by simp [below.parts]
  obtain ⟨spot, located, current, _, laid⟩ := file_written t u q body now named written
  have found : ∃ s : Spot, t.locate true q = .ok s ∧ s.place = spot := by
    rcases located with vacant | ⟨n, there⟩
    · exact ⟨_, vacant, rfl⟩
    · exact ⟨_, there, rfl⟩
  obtain ⟨s, reached, place⟩ := found
  rw [below_vacant t p q name at_ below opens true s reached absent, Spot.place] at place
  subst place
  have grows := Node.laid_grows t.root u.root _ _ laid (.inl rfl)
  have new := (Node.look_file u.root _ body now).mp (Node.laid_there t.root u.root _ _ laid)
  exact ⟨current, laid, below_located u p q name at_ below (opens_grown t u current grows p at_ opens)
    ((locate_walk t true q s).mp reached).1 _ new rfl⟩

theorem folder_located (t : FileTree) (p : Path) (folder : t.isFolder p = true) : ∃ s, t.locate true p = .ok s := by
  obtain ⟨short, at_, entries, walked⟩ := folder_opens t p folder
  exact ⟨_, (locate_walk t true p _).mpr ⟨short, walked⟩⟩

-- To make all folders of a path is to make those above it first.
theorem folders_parent (t u : FileTree) (p : Path) (named : p.parts ≠ []) (made : t.makeFolders p = .ok u) :
    ∃ v, t.makeFolders p.parent = .ok v ∧ Housed v u p := by
  rcases folders_cases t u p made with (one | ⟨rfl, folder⟩) | ⟨_, above⟩
  · obtain ⟨spot, located, _⟩ := folder_made t u p one
    obtain ⟨short, walked⟩ := (locate_walk t false p _).mp located
    have free := (locate_walk t true p _).mpr ⟨short, Node.walk_free t.root _ _ _ spot walked⟩
    exact ⟨t, folder_above t p _ named free, .inl one⟩
  · obtain ⟨s, located⟩ := folder_located u p folder
    exact ⟨u, folder_above u p s named located, .inr ⟨rfl, folder⟩⟩
  · exact above

-- Whatever a path for a name leads to, it leads through a folder.
theorem parent_opens (t : FileTree) (p q : Path) (name : String) (below : Below p q name) (s : Spot)
    (located : t.locate true q = .ok s) : ∃ at_, t.Opens p at_ := by
  obtain ⟨_, walked⟩ := (locate_walk t true q s).mp located
  rw [below.parts, Path.isAbsolute, below.slashes] at walked
  obtain ⟨at_, n, reached, opens⟩ := Node.walk_before t.root true _ _ p.parts name [] s walked
  obtain ⟨entries, rfl⟩ := opens rfl
  exact ⟨at_, entries, reached⟩

end FileTree

namespace Node

theorem vacant_below (root : Node) (at_ : List String) (name : String) (rest : List String)
    (vacant : root.get? at_ = none) : root.look (at_ ++ name :: rest) = none := by
  rw [look_none, get_append, vacant, Option.bind_none]

end Node

namespace Manifest

open FileTree

section

variable (folder : Path)

theorem hosting_path : folder.append "hosting" = (location folder).parent := by
  have below : Path.ofString "hosting" = ⟨0, ["hosting"]⟩ := by decide
  have file : Path.ofString "hosting/metadata.json" = ⟨0, ["hosting", "metadata.json"]⟩ := by decide
  simp [location, Path.append, Path.join, below, file, Path.isAbsolute, Path.parent]

theorem hosting_parent : (location folder).parent.parent = folder := by
  rw [← hosting_path]
  have below : Path.ofString "hosting" = ⟨0, ["hosting"]⟩ := by decide
  simp [Path.append, Path.join, below, Path.isAbsolute, Path.parent]

theorem hosting_below : Below folder (location folder).parent "hosting" := by
  have below : Path.ofString "hosting" = ⟨0, ["hosting"]⟩ := by decide
  rw [← hosting_path]
  refine ⟨?_, ?_, by decide, by decide⟩ <;> simp [Path.append, Path.join, below, Path.isAbsolute]

theorem location_below : Below (location folder).parent (location folder) "metadata.json" := by
  have below : Path.ofString "hosting/metadata.json" = ⟨0, ["hosting", "metadata.json"]⟩ := by decide
  refine ⟨rfl, ?_, by decide, by decide⟩
  simp [location, Path.append, Path.join, below, Path.isAbsolute, Path.parent]

theorem files_below : Below (location folder).parent (filesFolder folder) "files" := by
  have hosting : Path.ofString "hosting" = ⟨0, ["hosting"]⟩ := by decide
  have below : Path.ofString "hosting/files" = ⟨0, ["hosting", "files"]⟩ := by decide
  rw [← hosting_path]
  refine ⟨?_, ?_, by decide, by decide⟩ <;>
    simp [filesFolder, Path.append, Path.join, below, hosting, Path.isAbsolute]

theorem files_parent : (filesFolder folder).parent = (location folder).parent := by
  have below := files_below folder
  rw [Path.parent, below.parts, List.dropLast_concat, below.slashes]

end

-- The hosting folder of an app with its metadata file and a files folder that has
-- nothing in it yet.
structure Opened (t : FileTree) (folder : Path) (hosting : List String) (body : Bytes) : Prop where
  opens : t.Opens (filesFolder folder) (hosting ++ ["files"])
  bare : ∀ name rest, t.root.look (hosting ++ ["files"] ++ name :: rest) = none
  manifest : ∃ modified,
    t.locate true (location folder) = .ok (.node (hosting ++ ["metadata.json"]) (.file body modified))
  short : ¬ maxPathSize < (Text.utf8 (filesFolder folder).toString).length

-- The metadata file is written into a hosting folder that was not there before.
theorem metadata_made (t u v w : FileTree) (folder : Path) (body : Bytes) (now : Int)
    (parents : t.makeFolders folder = .ok u) (vacant : u.contains (folder.append "hosting") = false)
    (made : t.makeFolders (location folder).parent = .ok v) (written : v.write (location folder) body now = .ok w) :
    ∃ hosting, w.current = u.current ∧ w.Opens (location folder).parent hosting ∧
      (∀ name rest, name ≠ "metadata.json" → w.root.look (hosting ++ name :: rest) = none) ∧
      w.locate true (location folder) = .ok (.node (hosting ++ ["metadata.json"]) (.file body now)) := by
  have named : (location folder).parent.parts ≠ [] := by simp [(hosting_below folder).parts]
  obtain ⟨u', parents', step⟩ := folders_parent t v _ named made
  rw [hosting_parent, parents] at parents'
  cases parents'
  have fresh : u.makeFolder (location folder).parent = .ok v := by
    rcases step with one | ⟨_, there⟩
    · exact one
    · rw [hosting_path, contains] at vacant
      rw [isFolder] at there
      cases found : u.node (location folder).parent with
      | error fault =>
          rw [found] at there
          cases there
      | ok n =>
          rw [found] at vacant
          cases vacant
  obtain ⟨spot, located, _⟩ := folder_made u v _ fresh
  obtain ⟨short, walked⟩ := (locate_walk u false _ _).mp located
  have free := (locate_walk u true _ _).mpr ⟨short, Node.walk_free u.root _ _ _ spot walked⟩
  obtain ⟨at_, opens⟩ := parent_opens u folder _ "hosting" (hosting_below folder) _ free
  obtain ⟨absent, current, laid, opened⟩ := folder_below u v folder _ "hosting" at_ (hosting_below folder) opens fresh
  have bare : ∀ name rest, v.root.look (at_ ++ ["hosting"] ++ name :: rest) = none := by
    intro name rest
    rw [Node.laid_other u.root v.root _ _ laid _ (by simp)]
    exact Node.vacant_below u.root _ name rest absent
  obtain ⟨same, placed, reached⟩ := file_below v w _ _ "metadata.json" _ body now (location_below folder) opened
    ((Node.look_none v.root _).mp (bare "metadata.json" [])) written
  refine ⟨at_ ++ ["hosting"], same.trans current, ?_, ?_, reached⟩
  · exact opens_grown v w same (Node.laid_grows v.root w.root _ _ placed (.inl rfl)) _ _ opened
  · intro name rest other
    rw [Node.laid_other v.root w.root _ _ placed _ (by simp [other])]
    exact bare name rest

theorem hosting_opened (t u v w x : FileTree) (folder : Path) (body : Bytes) (now : Int)
    (parents : t.makeFolders folder = .ok u) (vacant : u.contains (folder.append "hosting") = false)
    (made : t.makeFolders (location folder).parent = .ok v) (written : v.write (location folder) body now = .ok w)
    (files : w.makeFolders (filesFolder folder) = .ok x) :
    ∃ hosting, x.current = u.current ∧ Opened x folder hosting body := by
  obtain ⟨hosting, current, opens, bare, manifest⟩ := metadata_made t u v w folder body now parents vacant made written
  have absent : w.root.get? (hosting ++ ["files"]) = none := (Node.look_none w.root _).mp (bare "files" [] (by decide))
  have located : (location folder).parts ≠ [] := by simp [(location_below folder).parts]
  have named : (filesFolder folder).parts ≠ [] := by simp [(files_below folder).parts]
  have stays := folder_above w (location folder) _ located manifest
  obtain ⟨w', parents', step⟩ := folders_parent w x _ named files
  rw [files_parent, stays] at parents'
  cases parents'
  have fresh : w.makeFolder (filesFolder folder) = .ok x := by
    rcases step with one | ⟨_, there⟩
    · exact one
    · obtain ⟨s, reached⟩ := folder_located w _ there
      have spot := below_vacant w _ _ "files" hosting (files_below folder) opens true s reached absent
      rw [isFolder, node, reached, spot] at there
      cases there
  obtain ⟨_, same, laid, opened⟩ := folder_below w x _ _ "files" hosting (files_below folder) opens fresh
  refine ⟨hosting, same.trans current, opened, ?_, ?_, ?_⟩
  · intro name rest
    rw [Node.laid_other w.root x.root _ _ laid _ (by simp)]
    exact Node.vacant_below w.root _ name rest absent
  · have grown := Node.laid_grows w.root x.root _ _ laid (.inr absent)
    obtain ⟨m, there, again⟩ := locate_grown w x same grown _ _ _ manifest
    have old := (Node.look_file w.root _ body now).mpr (Node.walk_there w.root true _ _ _ _ _
      ((locate_walk w true _ _).mp manifest).2)
    rw [← Node.laid_other w.root x.root _ _ laid _ (by simp)] at old
    rw [(Node.look_file x.root _ body now).mp old] at there
    cases there
    exact ⟨now, again⟩
  · obtain ⟨spot, reached, _⟩ := folder_made w x _ fresh
    exact ((locate_walk w false _ _).mp reached).1

end Manifest

end HostingAdmin
