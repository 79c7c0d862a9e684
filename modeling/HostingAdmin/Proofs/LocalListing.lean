import HostingAdmin.Proofs.CommandSteps
import HostingAdmin.Proofs.ExportedFiles
import HostingAdmin.Proofs.ManifestFile

set_option autoImplicit false

namespace HostingAdmin

open HostingAdmin.Action

namespace Listing

-- A path that leads to a file.
def Readable (t : FileTree) (p : Path) : Prop :=
  ∃ at_ body modified, t.locate true p = .ok (.node at_ (.file body modified))

theorem hash_known (t : FileTree) (app : String) (p : Path) (path : String) (size modified : Int) (c : Cache)
    (readable : Readable t p) : ∃ hash c', hashOf t app p path size modified c = .ok (hash, c') := by
  obtain ⟨at_, body, changed, located⟩ := readable
  have computed : ∃ hash c', hashOf.compute t app p path size modified c = .ok (hash, c') := by
    rw [hashOf.compute, hashFile, FileTree.spot_read t p at_ body changed located]
    exact ⟨_, _, rfl⟩
  rw [hashOf]
  split
  · split
    · exact ⟨_, _, rfl⟩
    · exact computed
  · exact computed

theorem file_described (t : FileTree) (now : Int) (app : String) (p : Path) (path : String) (d : Option Description)
    (c : Cache) (readable : Readable t p) :
    ∃ a c', describe t now app p path d c = .ok (a, c') ∧ a.path = path := by
  obtain ⟨at_, body, modified, located⟩ := readable
  have stat : t.stat p = .ok (body.length, modified) := by
    rw [FileTree.stat, FileTree.node, located]
    rfl
  obtain ⟨hash, c', hashed⟩ := hash_known t app p path body.length (wholeSeconds modified) c
    ⟨at_, body, modified, located⟩
  rw [describe, stat]
  simp only [bind, Except.bind, hashed]
  exact ⟨_, _, rfl, rfl⟩

-- A path that is too long to be looked up.
def TooLong (p : Path) : Prop := maxPathSize < (Text.utf8 p.toString).length

instance (p : Path) : Decidable (TooLong p) := Nat.decLt _ _

theorem readable_short (t : FileTree) (p : Path) (readable : Readable t p) : ¬ TooLong p := by
  obtain ⟨at_, body, modified, located⟩ := readable
  exact ((FileTree.locate_walk t true p _).mp located).1

theorem long_described (t : FileTree) (now : Int) (app : String) (p : Path) (path : String) (d : Option Description)
    (c : Cache) (long : TooLong p) : describe t now app p path d c = .error ⟨.nameTooLong, p.toString⟩ := by
  have located : t.locate true p = .error ⟨.nameTooLong, p.toString⟩ := if_pos long
  have stat : t.stat p = .error ⟨.nameTooLong, p.toString⟩ := by
    rw [FileTree.stat, FileTree.node, located]
    rfl
  rw [describe, stat]
  rfl

-- Files that can be read are all described, each under its own path; the first one
-- with a path that is too long ends the listing.
theorem all_described (t : FileTree) (now : Int) (app : String) (root : Path) (ds : Members Description)
    (files : List (List String)) (c : Cache)
    (readable : ∀ names ∈ files, TooLong (root.join ⟨0, names⟩) ∨ Readable t (root.join ⟨0, names⟩)) :
    (∃ here c', describeAll t now app root ds files c = (.ok here, c') ∧ here.map Asset.path = files.map assetPath ∧
      ∀ names ∈ files, ¬ TooLong (root.join ⟨0, names⟩)) ∨
    ∃ names ∈ files, TooLong (root.join ⟨0, names⟩) ∧ ∃ c',
      describeAll t now app root ds files c = (.error ⟨.nameTooLong, (root.join ⟨0, names⟩).toString⟩, c') := by
  induction files generalizing c with
  | nil => exact .inl ⟨[], c, rfl, rfl, fun names member => by cases member⟩
  | cons names rest ih =>
      rcases readable names List.mem_cons_self with long | reads
      · refine .inr ⟨names, List.mem_cons_self, long, c, ?_⟩
        rw [describeAll]
        dsimp only
        rw [long_described t now app _ _ _ c long]
      · obtain ⟨a, c', described, path⟩ := file_described t now app (root.join ⟨0, names⟩) (assetPath names)
          (ds.lookup (assetPath names)) c reads
        have step : describeAll t now app root ds (names :: rest) c =
            ((describeAll t now app root ds rest c').1.map (a :: ·), (describeAll t now app root ds rest c').2) := by
          rw [describeAll]
          dsimp only
          rw [described]
        rcases ih c' fun names member => readable names (List.mem_cons_of_mem _ member) with
          ⟨here, c'', others, paths, fits⟩ | ⟨names', member, long, c'', others⟩
        · refine .inl ⟨a :: here, c'', by rw [step, others]; rfl, by rw [List.map_cons, List.map_cons, path, paths], ?_⟩
          intro other member
          rcases List.mem_cons.mp member with rfl | later
          · exact readable_short t _ reads
          · exact fits other later
        · exact .inr ⟨names', List.mem_cons_of_mem _ member, long, c'', by rw [step, others]; rfl⟩

-- What a listing comes to when all files could be described.
def judged (ds : Members Description) (here : List Asset) : Except Failure (List Asset) :=
  match missing? ds here with
  | some path => .error (.hosting (.noFile path))
  | none => .ok here

end Listing

namespace Hosting.Retrieval

open Listing

section

variable (t : FileTree) (folder : Path) (hosting : List String) (assets : List Asset) (manifest : Bytes)
  (exported : Exported t folder hosting assets manifest)

include exported

theorem exported_clear (n : Node) (there : t.root.get? (hosting ++ ["files"]) = some n) : n.Clear where
  unique at_ entries found := exported.unique at_ entries (by rw [Node.get_append, there, Option.bind_some, found])
  straight at_ target found := by
    apply exported.straight at_ target
    rw [Node.look_link, Node.get_append, there, Option.bind_some, found]

theorem exported_onward (names : List String) (named : Named names) :
    t.root.Plain (hosting ++ ["files"] ++ names) :=
  Node.plain_onward t.root _ names exported.plain (fun up => (named.proper _ up).down rfl) exported.straight

theorem exported_files (names : List String) : names ∈ t.filesBelow (Manifest.filesFolder folder) ↔
    Named names ∧ (∃ a ∈ assets, a.path = assetPath names) ∧
      ¬ TooLong ((Manifest.filesFolder folder).join ⟨0, names.dropLast⟩) := by
  obtain ⟨entries, walked⟩ := exported.opens
  have located := (FileTree.locate_walk t true _ _).mpr ⟨exported.short, walked⟩
  have there := Node.walk_there t.root true _ _ _ _ _ walked
  rw [FileTree.below_files t _ _ _ rfl located (exported_clear t folder hosting assets manifest exported _ there),
    exported.files names, and_assoc]
  refine and_congr_right fun named => and_congr_right fun listed => ?_
  obtain ⟨body, modified, file⟩ := (exported.files names).mpr ⟨named, listed⟩
  exact FileTree.reached_short t _ _ exported.opens names named.some_name
    (exported_onward t folder hosting assets manifest exported names named) (exported.fits names named listed) _ file

theorem exported_readable (names : List String) (named : Named names) (listed : ∃ a ∈ assets, a.path = assetPath names)
    (short : ¬ TooLong ((Manifest.filesFolder folder).join ⟨0, names⟩)) :
    Readable t ((Manifest.filesFolder folder).join ⟨0, names⟩) := by
  obtain ⟨body, modified, there⟩ := (exported.files names).mpr ⟨named, listed⟩
  exact ⟨_, body, modified, FileTree.below_reaches t _ _ exported.opens names
    (exported_onward t folder hosting assets manifest exported names named) (exported.fits names named listed) _ there
    short⟩

end

-- Where the file of an asset is, seen from its app folder.
def nearPath (folder : Path) (a : Asset) : Path := (Manifest.filesFolder folder).join (relative a.path)

-- The folder that the file of an asset is in can be looked up.
def inReach (folder : Path) (a : Asset) : Bool := ¬ TooLong (nearPath folder a).parent

theorem near_names (folder : Path) (a : Asset) (names : List String) (named : Named names)
    (path : a.path = assetPath names) : nearPath folder a = (Manifest.filesFolder folder).join ⟨0, names⟩ ∧
      (inReach folder a = true ↔ ¬ TooLong ((Manifest.filesFolder folder).join ⟨0, names.dropLast⟩)) := by
  have near : nearPath folder a = (Manifest.filesFolder folder).join ⟨0, names⟩ := by
    rw [nearPath, path, relative_names names named]
  refine ⟨near, ?_⟩
  have above := FileTree.join_join (Manifest.filesFolder folder) names.dropLast (names.getLast named.some_name)
  rw [List.dropLast_concat_getLast] at above
  rw [inReach, near, above, decide_eq_true_eq]

-- What the listing of an exported app comes to: all of its assets, unless the path of
-- one is too long.
inductive Listed (folder : Path) (assets : List Asset) (ds : Members Description) :
    Except Failure (List Asset) → Prop where
  | judged (here : List Asset) (short : ∀ a ∈ assets, ¬ TooLong (nearPath folder a))
      (paths : ∀ path, path ∈ here.map Asset.path ↔ path ∈ assets.map Asset.path) :
      Listed folder assets ds (judged ds here)
  | long (a : Asset) (member : a ∈ assets) (long : TooLong (nearPath folder a)) :
      Listed folder assets ds (.error (.file ⟨.nameTooLong, (nearPath folder a).toString⟩))

theorem exported_listed (now : Int) (app : String) (t : FileTree) (folder : Path) (hosting : List String)
    (assets : List Asset) (manifest : Bytes) (exported : Exported t folder hosting assets manifest)
    (tidy : Tidy assets) (ds : Members Description) (c : Cache) :
    ∃ result c', ofFolder t now app (Manifest.filesFolder folder) ds c = (result, c') ∧
      Listed folder (assets.filter (inReach folder)) ds result := by
  have files := exported_files t folder hosting assets manifest exported
  have near : ∀ names ∈ t.filesBelow (Manifest.filesFolder folder), ∃ a ∈ assets.filter (inReach folder),
      a.path = assetPath names ∧ nearPath folder a = (Manifest.filesFolder folder).join ⟨0, names⟩ := by
    intro names member
    obtain ⟨named, ⟨a, listed, path⟩, reached⟩ := (files names).mp member
    obtain ⟨same, reach⟩ := near_names folder a names named path
    exact ⟨a, List.mem_filter.mpr ⟨listed, reach.mpr reached⟩, path, same⟩
  have found : ∀ a ∈ assets.filter (inReach folder), ∃ names ∈ t.filesBelow (Manifest.filesFolder folder),
      a.path = assetPath names ∧ nearPath folder a = (Manifest.filesFolder folder).join ⟨0, names⟩ := by
    intro a member
    obtain ⟨listed, reached⟩ := List.mem_filter.mp member
    obtain ⟨names, named, path⟩ := tidy.named a listed
    obtain ⟨same, reach⟩ := near_names folder a names named path
    exact ⟨names, (files names).mpr ⟨named, ⟨a, listed, path⟩, reach.mp reached⟩, path, same⟩
  have readable : ∀ names ∈ t.filesBelow (Manifest.filesFolder folder),
      TooLong ((Manifest.filesFolder folder).join ⟨0, names⟩) ∨
        Readable t ((Manifest.filesFolder folder).join ⟨0, names⟩) := by
    intro names member
    obtain ⟨named, listed, _⟩ := (files names).mp member
    by_cases long : TooLong ((Manifest.filesFolder folder).join ⟨0, names⟩)
    · exact .inl long
    · exact .inr (exported_readable t folder hosting assets manifest exported names named listed long)
  rcases all_described t now app (Manifest.filesFolder folder) ds _ c readable with
    ⟨here, c', described, paths, fits⟩ | ⟨names, member, long, c', failed⟩
  · refine ⟨judged ds here, c', by rw [ofFolder, described]; rfl, .judged here ?_ ?_⟩
    · intro a listed
      obtain ⟨names, member, _, same⟩ := found a listed
      rw [same]
      exact fits names member
    · intro path
      rw [paths]
      constructor
      · intro member
        obtain ⟨names, inside, rfl⟩ := List.mem_map.mp member
        obtain ⟨a, listed, same, _⟩ := near names inside
        exact List.mem_map.mpr ⟨a, listed, same⟩
      · intro member
        obtain ⟨a, listed, rfl⟩ := List.mem_map.mp member
        obtain ⟨names, inside, same, _⟩ := found a listed
        exact List.mem_map.mpr ⟨names, inside, same.symm⟩
  · obtain ⟨a, listed, _, same⟩ := near names member
    rw [← same] at long failed
    exact ⟨_, c', by rw [ofFolder, failed]; rfl, .long a listed long⟩

theorem app_listed (app : String) (folder : Path) (hosting : List String) (assets : List Asset) (ds : List Description)
    (w : World) (c : Cache) (exported : Exported w.files folder hosting assets (Manifest.fileText ds))
    (tidy : Tidy assets) (clean : hasNull (Manifest.location folder) = false)
    (also : hasNull (Manifest.filesFolder folder) = false) :
    ∃ result c' v, (ofApp app folder c).perform w = (.ok (result, c'), v) ∧
      Listed folder (assets.filter (inReach folder)) (Manifest.byPath ds) result := by
  obtain ⟨result, c', listed, comes⟩ := exported_listed (truncated w.clock) app w.files folder hosting assets _
    exported tidy (Manifest.byPath ds) c
  obtain ⟨modified, located⟩ := exported.manifest
  obtain ⟨entries, walked⟩ := exported.opens
  obtain ⟨manifest, text⟩ := Profile.file_loaded _ w _ clean (FileTree.spot_read w.files _ _ _ modified located)
  have loaded : (Manifest.load (Manifest.location folder)).perform w = (.ok (Manifest.byPath ds), w) := by
    simp [Manifest.load, perform_bind, text, Action.ofExcept, Manifest.text_descriptions]
  have files : (folderExists (Manifest.filesFolder folder)).perform w = (.ok true, w) := by
    have there : w.files.node (Manifest.filesFolder folder) = .ok (.folder entries) := by
      rw [FileTree.node, (FileTree.locate_walk w.files true _ _).mpr ⟨exported.short, walked⟩]
      rfl
    simp [folderExists, nodeAt?, also, perform_bind, there, Node.isFolder]
  rw [ofApp, perform_bind, manifest]
  simp only [if_true, perform_bind, loaded]
  rw [Listing.run, perform_bind, files]
  simp only [if_true, perform_bind, perform_get, listed]
  cases result with
  | error f => exact ⟨.error f, c', w, rfl, comes⟩
  | ok here =>
      obtain ⟨v, recorded⟩ := record_succeeds .debug "Listed local assets"
        [("root", .str (Manifest.filesFolder folder).toString), ("count", .int here.length)] w
      refine ⟨.ok here, c', v, ?_, comes⟩
      simp only [perform_bind, recorded, perform_pure]

end Hosting.Retrieval

end HostingAdmin
