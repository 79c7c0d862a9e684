import HostingAdmin.Proofs.CacheEntries
import HostingAdmin.Proofs.ListingOrder
import HostingAdmin.Proofs.RetrievalSteps

set_option autoImplicit false

namespace HostingAdmin

open HostingAdmin.Action

-- A name that a file can have on a disk.
structure Usable (name : String) : Prop where
  proper : Proper name
  fits : ¬ maxNameSize < (Text.utf8 name).length
  plain : '\x00' ∉ name.toList

namespace Node

-- A folder without links, with different names in each of its folders.
structure Regular (n : Node) : Prop where
  clear : n.Clear
  usable : ∀ at_ entries, n.get? at_ = some (.folder entries) → ∀ name ∈ Members.names entries, Usable name

theorem regular_names (n m : Node) (names : List String) (regular : n.Regular) (there : n.get? names = some m) :
    ∀ name ∈ names, Usable name := by
  intro name member
  obtain ⟨above, below, rfl⟩ := List.append_of_mem member
  rw [get_append] at there
  obtain ⟨inner, folder, further⟩ := Option.bind_eq_some_iff.mp there
  cases inner with
  | folder entries =>
      obtain ⟨child, found, _⟩ := Option.bind_eq_some_iff.mp further
      exact regular.usable above entries folder name
        (List.mem_map_of_mem (Members.lookup_some_mem name child entries found))
  | _ => cases further

end Node

namespace Listing

-- A path has a file in a folder.
def OnDisk (n : Node) (path : String) : Prop :=
  ∃ names body modified, n.get? names = some (.file body modified) ∧ path = assetPath names

-- A root that leads to a regular folder.
structure Rooted (t : FileTree) (root : Path) (at_ : List String) (n : Node) : Prop where
  located : t.locate true root = .ok (.node at_ n)
  folder : n.isFolder = true
  regular : n.Regular
  down : ".." ∉ t.current
  clean : hasNull root = false
  plain : hasNull ⟨1, at_⟩ = false

-- What a listing says of a file: where it is, how large, and with which attributes. Its
-- path is the one that the file itself would be exported to.
structure Entry (t : FileTree) (root : Path) (at_ : List String) (ds : Members Description) (names : List String)
    (a : Asset) : Prop where
  path : a.path = assetPath names
  file : ∃ body modified, t.locate true (root.join ⟨0, names⟩) = .ok (.node (at_ ++ names) (.file body modified)) ∧
    a.size = body.length
  described : ∀ d, ds.lookup a.path = some d → a.attrs = d.attrs
  usual : ds.lookup a.path = none → a.attrs =
    ((MediaType.ofPath? a.path).map fun type => (⟨"Content-Type", type⟩ : Attribute)).toList
  target : ∀ w : World, w.files = t →
    (Hosting.target ⟨1, at_⟩ a.path).perform w = (.ok ⟨1, at_ ++ names⟩, w)

inductive Exact (t : FileTree) (root : Path) (at_ : List String) (n : Node) (ds : Members Description) :
    Except Failure (List Asset) → Prop where
  | missing (path : String) (described : path ∈ Members.names ds) (absent : ¬ OnDisk n path) :
      Exact t root at_ n ds (.error (.hosting (.noFile path)))
  | listed (here : List Asset) (files : List (List String)) (accepted : ∀ path ∈ Members.names ds, OnDisk n path)
      (complete : ∀ names, names ∈ files ↔ ∃ body modified, n.get? names = some (.file body modified))
      (ordered : files.Pairwise Branch.Before) (distinct : (here.map Asset.path).Nodup)
      (entries : List.Forall₂ (Entry t root at_ ds) files here) : Exact t root at_ n ds (.ok here)

theorem missing_some (ds : Members Description) (here : List Asset) (path : String)
    (missing : missing? ds here = some path) : path ∈ Members.names ds ∧ path ∉ here.map Asset.path := by
  obtain ⟨d, found, rfl⟩ := Option.map_eq_some_iff.mp missing
  refine ⟨List.mem_map_of_mem (List.mem_of_find?_eq_some found), fun listed => ?_⟩
  obtain ⟨a, member, same⟩ := List.mem_map.mp listed
  have absent := List.find?_some found
  simp only [Bool.not_eq_true', List.any_eq_false, decide_eq_true_eq] at absent
  exact absent a member same

theorem missing_none (ds : Members Description) (here : List Asset) (complete : missing? ds here = none) :
    ∀ path ∈ Members.names ds, path ∈ here.map Asset.path := by
  intro path described
  obtain ⟨d, member, rfl⟩ := List.mem_map.mp described
  have found := List.find?_eq_none.mp (Option.map_eq_none_iff.mp complete) d member
  simp only [Bool.not_eq_true', Bool.not_eq_false, List.any_eq_true, decide_eq_true_eq] at found
  obtain ⟨a, listed, same⟩ := found
  exact List.mem_map.mpr ⟨a, listed, same⟩

section

variable (t : FileTree) (root : Path) (at_ : List String) (n : Node) (rooted : Rooted t root at_ n)

include rooted

theorem rooted_opens : t.Opens root at_ := by
  have folder := rooted.folder
  have walked := ((FileTree.locate_walk t true root _).mp rooted.located).2
  cases n with
  | folder entries => exact ⟨entries, walked⟩
  | _ => cases folder

theorem rooted_inner (names : List String) : t.root.get? (at_ ++ names) = n.get? names := by
  have walked := ((FileTree.locate_walk t true root _).mp rooted.located).2
  rw [Node.get_append, Node.walk_there t.root true _ _ _ at_ n walked, Option.bind_some]

theorem rooted_named (names : List String) (body : Bytes) (modified : Int)
    (there : n.get? names = some (.file body modified)) : Named names where
  some_name := by
    rintro rfl
    have folder := rooted.folder
    cases there
    cases folder
  proper name member := (n.regular_names _ names rooted.regular there name member).proper

theorem rooted_plain (names : List String) (m : Node) (there : n.get? names = some m) :
    t.root.Plain (at_ ++ names) := by
  refine Node.plain_onward t.root at_ names
    (t.opens_plain root at_ rooted.down (rooted_opens t root at_ n rooted)) ?_ ?_
  · intro up
    exact (n.regular_names m names rooted.regular there _ up).proper.down rfl
  · intro more target link
    rw [Node.look_link, rooted_inner t root at_ n rooted] at link
    exact rooted.regular.clear.straight more target link

theorem rooted_file (names : List String) (body : Bytes) (modified : Int)
    (there : n.get? names = some (.file body modified)) (short : ¬ TooLong (root.join ⟨0, names⟩)) :
    t.locate true (root.join ⟨0, names⟩) = .ok (.node (at_ ++ names) (.file body modified)) :=
  t.below_reaches root at_ (rooted_opens t root at_ n rooted) names (rooted_plain t root at_ n rooted names _ there)
    (fun name member => (n.regular_names _ names rooted.regular there name member).fits) _
    ((rooted_inner t root at_ n rooted names).trans there) short

theorem rooted_target (names : List String) (body : Bytes) (modified : Int)
    (there : n.get? names = some (.file body modified)) (w : World) (files : w.files = t) :
    (Hosting.target ⟨1, at_⟩ (assetPath names)).perform w = (.ok ⟨1, at_ ++ names⟩, w) := by
  have usable := n.regular_names _ names rooted.regular there
  have below : (⟨1, at_⟩ : Path).join ⟨0, names⟩ = ⟨1, at_ ++ names⟩ := rfl
  have clean : hasNull ⟨1, at_ ++ names⟩ = false := by
    have own := rooted.plain
    rw [hasNull] at own ⊢
    rw [List.any_append, own, Bool.false_or, List.any_eq_false]
    intro name member
    simpa using (usable name member).plain
  have real : t.real ⟨1, at_ ++ names⟩ = .ok ⟨1, at_ ++ names⟩ := by
    apply FileTree.leads_real
    have plain := rooted_plain t root at_ n rooted names _ there
    exact Node.real_straight t.root _ [] [] (at_ ++ names) plain
  have within : (⟨1, at_ ++ names⟩ : Path).isWithin ⟨1, at_⟩ = true := by
    simp [Path.isWithin]
  rw [Hosting.target, perform_bind, Hosting.Retrieval.real_guarded,
    relative_names names (rooted_named t root at_ n rooted names body modified there), below, clean, files, real]
  simp only [Bool.false_eq_true, if_false, Except.mapError, within, if_true, perform_pure]

theorem rooted_walked (names : List String) : names ∈ t.filesBelow root ↔
    (∃ body modified, n.get? names = some (.file body modified)) ∧ ¬ TooLong (root.join ⟨0, names.dropLast⟩) := by
  rw [t.below_files root at_ n rooted.folder rooted.located rooted.regular.clear,
    rooted_inner t root at_ n rooted]
  refine and_congr_right ?_
  rintro ⟨body, modified, there⟩
  exact t.reached_short root at_ (rooted_opens t root at_ n rooted) names
    (rooted_named t root at_ n rooted names body modified there).some_name
    (rooted_plain t root at_ n rooted names _ there)
    (fun name member => (n.regular_names _ names rooted.regular there name member).fits) _
    ((rooted_inner t root at_ n rooted names).trans there)

-- The path of a file that is found may still be too long itself, and then nothing is listed.
theorem folder_overlong (now : Int) (app : String) (ds : Members Description) (c : Cache) (names : List String)
    (body : Bytes) (modified : Int) (there : n.get? names = some (.file body modified))
    (long : TooLong (root.join ⟨0, names⟩)) (opens : ¬ TooLong (root.join ⟨0, names.dropLast⟩)) :
    ∃ far, TooLong far ∧ (ofFolder t now app root ds c).1 = .error (.file ⟨.nameTooLong, far.toString⟩) := by
  have readable : ∀ found ∈ t.filesBelow root, TooLong (root.join ⟨0, found⟩) ∨ Readable t (root.join ⟨0, found⟩) := by
    intro found listed
    obtain ⟨⟨body, modified, there⟩, _⟩ := (rooted_walked t root at_ n rooted found).mp listed
    by_cases long : TooLong (root.join ⟨0, found⟩)
    · exact .inl long
    · exact .inr ⟨_, body, modified, rooted_file t root at_ n rooted found body modified there long⟩
  have listed := (rooted_walked t root at_ n rooted names).mpr ⟨⟨body, modified, there⟩, opens⟩
  rcases all_described t now app root ds _ c readable with ⟨_, _, _, _, short⟩ | ⟨far, _, tooLong, learnt, failed⟩
  · exact (short names listed long).elim
  · refine ⟨root.join ⟨0, far⟩, tooLong, ?_⟩
    rw [ofFolder, failed]
    rfl

variable (short : ∀ names body modified, n.get? names = some (.file body modified) → ¬ TooLong (root.join ⟨0, names⟩))

include short

theorem rooted_found (names : List String) :
    names ∈ t.filesBelow root ↔ ∃ body modified, n.get? names = some (.file body modified) := by
  refine (rooted_walked t root at_ n rooted names).trans (and_iff_left_of_imp ?_)
  rintro ⟨body, modified, there⟩
  have named := rooted_named t root at_ n rooted names body modified there
  apply FileTree.above_size root names.dropLast [names.getLast named.some_name]
  rw [List.dropLast_concat_getLast]
  exact short names body modified there

theorem rooted_entry (now : Int) (app : String) (ds : Members Description) (c : Cache) (names : List String) (a : Asset)
    (listed : names ∈ t.filesBelow root) (backed : Backed t now app root ds c names a) :
    Entry t root at_ ds names a := by
  obtain ⟨body, modified, there⟩ := (rooted_found t root at_ n rooted short names).mp listed
  have located := rooted_file t root at_ n rooted names body modified there (short names body modified there)
  obtain ⟨e, size, changed, backing⟩ := backed
  have stat := backing.stat
  rw [FileTree.stat, FileTree.node, located] at stat
  cases stat
  rw [backing.asset]
  refine ⟨rfl, ⟨body, modified, located, rfl⟩, ?_, ?_, rooted_target t root at_ n rooted names body modified there⟩
  · intro d found
    simp only [found, attributes]
  · intro absent
    simp only [absent, attributes, Attribute.usual]
    cases MediaType.ofPath? (assetPath names) <;> rfl

theorem folder_exact (now : Int) (app : String) (ds : Members Description) (c : Cache) :
    Exact t root at_ n ds (ofFolder t now app root ds c).1 := by
  have found := rooted_found t root at_ n rooted short
  have named : ∀ names ∈ t.filesBelow root, Named names := by
    intro names listed
    obtain ⟨body, modified, there⟩ := (found names).mp listed
    exact rooted_named t root at_ n rooted names body modified there
  have readable : ∀ names ∈ t.filesBelow root, Readable t (root.join ⟨0, names⟩) := by
    intro names listed
    obtain ⟨body, modified, there⟩ := (found names).mp listed
    exact ⟨_, body, modified, rooted_file t root at_ n rooted names body modified there (short names body modified there)⟩
  rcases all_described t now app root ds _ c fun names listed => .inr (readable names listed) with
    ⟨here, learnt, described, paths, _⟩ | ⟨names, listed, long, _⟩
  · have onDisk : ∀ path, path ∈ here.map Asset.path ↔ OnDisk n path := by
      intro path
      rw [paths, List.mem_map]
      constructor
      · rintro ⟨names, listed, rfl⟩
        obtain ⟨body, modified, there⟩ := (found names).mp listed
        exact ⟨names, body, modified, there, rfl⟩
      · rintro ⟨names, body, modified, there, rfl⟩
        exact ⟨names, (found names).mpr ⟨body, modified, there⟩, rfl⟩
    have result : (ofFolder t now app root ds c).1 = judged ds here := by
      rw [ofFolder, described]
      rfl
    rw [result, judged]
    cases missing : missing? ds here with
    | some path =>
        obtain ⟨known, absent⟩ := missing_some ds here path missing
        exact .missing path known fun there => absent ((onDisk path).mpr there)
    | none =>
        have ordered := t.below_before root at_ n rooted.located rooted.regular.clear
        have backed := all_backed t now app root ds _ named c learnt here described
        refine .listed here (t.filesBelow root) ?_ found ordered ?_ ?_
        · intro path known
          exact (onDisk path).mp (missing_none ds here missing path known)
        · rw [paths]
          refine (List.nodup_map_iff_inj_on (Branch.before_apart _ ordered)).mpr ?_
          intro names first others second same
          exact names_same names others (named names first) (named others second) same
        · refine List.forall₂_iff_zip.mpr ⟨backed.length_eq, fun paired => ?_⟩
          exact rooted_entry t root at_ n rooted short now app ds learnt _ _ (List.of_mem_zip paired).1
            ((List.forall₂_iff_zip.mp backed).2 paired)
  · exact (readable_short t _ (readable names listed) long).elim

end

section

variable (body : Bytes) (modified : Int)

def oneFile : Node := .folder [("a", .file body modified)]

theorem one_inside (at_ : List String) (x : Node) (there : (oneFile body modified).get? at_ = some x) :
    at_ = [] ∧ x = oneFile body modified ∨ at_ = ["a"] ∧ x = .file body modified := by
  cases at_ with
  | nil =>
      cases there
      exact .inl ⟨rfl, rfl⟩
  | cons name rest =>
      obtain ⟨child, found, below⟩ := Option.bind_eq_some_iff.mp there
      have entry : ([("a", .file body modified)] : List (String × Node)).lookup name = some child := found
      rw [Members.lookup_entry] at entry
      split at entry
      · rename_i same
        cases entry
        cases rest with
        | nil =>
            cases below
            exact .inr ⟨by rw [same], rfl⟩
        | cons other more => cases below
      · cases entry

theorem one_folder (at_ : List String) (entries : List (String × Node))
    (there : (oneFile body modified).get? at_ = some (.folder entries)) : Members.names entries = ["a"] := by
  rcases one_inside body modified at_ _ there with ⟨_, same⟩ | ⟨_, same⟩
  · cases same
    rfl
  · cases same

theorem one_regular : (oneFile body modified).Regular where
  clear := by
    refine ⟨?_, ?_⟩
    · intro at_ entries there
      rw [one_folder body modified at_ entries there]
      exact List.nodup_singleton "a"
    · intro at_ target there
      rcases one_inside body modified at_ _ there with ⟨_, same⟩ | ⟨_, same⟩ <;> cases same
  usable at_ entries there name member := by
    rw [one_folder body modified at_ entries there, List.mem_singleton] at member
    subst member
    exact ⟨⟨by decide, by decide, by decide, by decide⟩, by decide, by decide⟩

theorem site_rooted (root : Path) (clean : hasNull root = false)
    (located : (site body modified []).locate true root = .ok (.node ["f"] (oneFile body modified))) :
    Rooted (site body modified []) root ["f"] (oneFile body modified) where
  located := located
  folder := rfl
  regular := one_regular body modified
  down := List.not_mem_nil
  clean := clean
  plain := by decide

-- A folder as it is seen from far below the root. There is no way up from the root itself.
def farFolder (k : Nat) : Path := ⟨1, List.replicate k ".." ++ ["f"]⟩

theorem climbs_size (k : Nat) (first : String) (rest : List String) :
    (Text.utf8 (String.intercalate "/" (List.replicate k ".." ++ first :: rest))).length =
      3 * k + (Text.utf8 (String.intercalate "/" (first :: rest))).length := by
  induction k with
  | zero => simp
  | succ k ih =>
      obtain ⟨next, others, same⟩ : ∃ next others, List.replicate k ".." ++ first :: rest = next :: others :=
        List.exists_cons_of_ne_nil (by simp)
      rw [List.replicate_succ, List.cons_append, same, String.intercalate_cons_cons, ← same, FileTree.utf8_append,
        FileTree.utf8_append, List.length_append, List.length_append, ih]
      have parts : (Text.utf8 "..").length = 2 ∧ (Text.utf8 "/").length = 1 := by decide
      omega

theorem climbs_walk (entries : List (String × Node)) (links k : Nat) (rest : List String) :
    (Node.folder entries).walk true links [] (List.replicate k ".." ++ rest) =
      (Node.folder entries).walk true links [] rest := by
  induction k with
  | zero => rfl
  | succ k ih =>
      rw [List.replicate_succ, List.cons_append, Node.walk, Node.get?]
      simp only [if_true, List.dropLast_nil]
      exact ih

theorem far_size (k : Nat) (first : String) (rest : List String) :
    (Text.utf8 (Path.toString ⟨1, List.replicate k ".." ++ first :: rest⟩)).length =
      1 + 3 * k + (Text.utf8 (String.intercalate "/" (first :: rest))).length := by
  have slash : (Text.utf8 (String.ofList (List.replicate 1 '/'))).length = 1 := by decide
  rw [Path.toString, if_neg (by simp), FileTree.utf8_append, List.length_append, climbs_size, slash]
  omega

theorem far_located (k : Nat) (short : 3 * k + 2 ≤ maxPathSize) :
    (site body modified []).locate true (farFolder k) = .ok (.node ["f"] (oneFile body modified)) := by
  obtain ⟨_, walked⟩ := (FileTree.locate_walk _ true _ _).mp (site_folder body modified [])
  refine (FileTree.locate_walk _ true _ _).mpr ⟨?_, (climbs_walk _ maxLinks k ["f"]).trans walked⟩
  have name : (Text.utf8 (String.intercalate "/" ["f"])).length = 1 := by decide
  rw [farFolder, far_size, name]
  omega

theorem far_clean (k : Nat) : hasNull (farFolder k) = false := by
  rw [hasNull, farFolder, List.any_append, Bool.or_eq_false_iff]
  refine ⟨?_, by decide⟩
  rw [List.any_eq_false]
  intro part member
  rw [List.eq_of_mem_replicate member]
  decide

theorem far_long (k : Nat) (long : maxPathSize < 3 * k + 4) : TooLong ((farFolder k).join ⟨0, ["a"]⟩) := by
  have parts : (farFolder k).join ⟨0, ["a"]⟩ = ⟨1, List.replicate k ".." ++ ["f", "a"]⟩ := by
    simp [farFolder, Path.join, Path.isAbsolute]
  have names : (Text.utf8 (String.intercalate "/" ["f", "a"])).length = 3 := by decide
  rw [TooLong, parts, far_size, names]
  omega

theorem far_fails (k : Nat) (short : 3 * k + 2 ≤ maxPathSize) (long : maxPathSize < 3 * k + 4) (w : World)
    (files : w.files = site body modified []) : ∃ learnt v, (run "app" (farFolder k) [] .empty).perform w =
      (.ok (.error (.file ⟨.nameTooLong, ((farFolder k).join ⟨0, ["a"]⟩).toString⟩), learnt), v) := by
  have there : w.files.node (farFolder k) = .ok (oneFile body modified) := by
    rw [files, FileTree.node, far_located body modified k short]
    rfl
  have opens : w.files.isFolder (farFolder k) = true := by
    rw [FileTree.isFolder, there]
    rfl
  have opened : w.files.isFolder ((farFolder k).join ⟨0, []⟩) = true := by
    have same : (farFolder k).join ⟨0, []⟩ = farFolder k := by simp [Path.join, Path.isAbsolute]
    rw [same]
    exact opens
  have found : w.files.filesBelow (farFolder k) = [["a"]] := by
    rw [FileTree.filesBelow, there, oneFile]
    simp [Node.branch, Node.branches, opened, Branch.files, Branch.byName, Branch.leaf?, Branch.below]
  obtain ⟨v, performed, _⟩ := run_folder (farFolder k) w "app" [] .empty (far_clean k) opens
  rw [ofFolder, found, describeAll] at performed
  dsimp only at performed
  rw [long_described w.files _ "app" _ _ _ .empty (far_long k long)] at performed
  exact ⟨_, v, performed⟩

end

end Listing

end HostingAdmin
