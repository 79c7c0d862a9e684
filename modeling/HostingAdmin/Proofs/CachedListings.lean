import HostingAdmin.Proofs.CacheEntries
import HostingAdmin.Proofs.CacheFile

set_option autoImplicit false

namespace HostingAdmin.Listing

open HostingAdmin.Action

-- The files below a folder have neither come nor gone, and none was written. What they
-- contain is not looked at.
structure Unchanged (root : Path) (t u : FileTree) : Prop where
  folder : u.isFolder root = t.isFolder root
  files : u.filesBelow root = t.filesBelow root
  stats : ∀ names ∈ t.filesBelow root, u.stat (root.join ⟨0, names⟩) = t.stat (root.join ⟨0, names⟩)

-- The hash of a file is known, so that a listing does not read it.
def Known (t : FileTree) (app : String) (root : Path) (c : Cache) (names : List String) : Prop :=
  ∃ e size modified, c.get? app (assetPath names) = some e ∧ t.stat (root.join ⟨0, names⟩) = .ok (size, modified) ∧
    e.holds size (wholeSeconds modified) = true

section

variable (t : FileTree) (now : Int) (app : String) (root : Path) (ds : Members Description)

-- Sizes and times that a cache file can hold.
def Brief : Prop :=
  ∀ names ∈ t.filesBelow root, ∀ size modified, t.stat (root.join ⟨0, names⟩) = .ok (size, modified) →
    Json.Short size ∧ Json.Short (wholeSeconds modified)

theorem all_storable (brief : Brief t root) (c : Cache) (storable : c.Storable) :
    (describeAll t now app root ds (t.filesBelow root) c).2.Storable := by
  refine all_keep t now app root ds Cache.Storable _ c ?_ storable
  intro names listed a before after described holds
  obtain ⟨size, modified, hash, stat, hashed, _⟩ := describe_parts t now app _ _ _ before after a described
  cases hashed with
  | known e found same => exact holds
  | learnt hash read =>
      have short := brief names listed size modified stat
      exact Cache.set_storable before app _ holds ⟨short.2, short.1⟩

theorem backed_unchanged (u : FileTree) (later : Int) (c : Cache) (unchanged : Unchanged root t u)
    (here : List Asset) (backed : List.Forall₂ (Backed t now app root ds c) (t.filesBelow root) here) :
    List.Forall₂ (Backed u later app root ds { c with dirty := false }) (u.filesBelow root)
      (here.map fun a => { a with lastModified := later }) := by
  rw [unchanged.files, List.forall₂_map_right_iff]
  refine List.forall₂_iff_zip.mpr ⟨backed.length_eq, fun paired => ?_⟩
  obtain ⟨e, size, modified, entry, stat, holds, rfl⟩ := (List.forall₂_iff_zip.mp backed).2 paired
  have same := unchanged.stats _ (List.of_mem_zip paired).1
  exact ⟨e, size, modified, entry, same.trans stat, holds, rfl⟩

theorem backed_known (c : Cache) (files : List (List String)) (here : List Asset)
    (backed : List.Forall₂ (Backed t now app root ds c) files here) : ∀ names ∈ files, Known t app root c names := by
  induction backed with
  | nil =>
      intro names member
      cases member
  | cons first others ih =>
      intro names member
      rcases List.mem_cons.mp member with rfl | later
      · obtain ⟨e, size, modified, backing⟩ := first
        exact ⟨e, size, modified, backing.entry, backing.stat, backing.holds⟩
      · exact ih names later

theorem missing_again (here : List Asset) (later : Int) :
    missing? ds (here.map fun a => { a with lastModified := later }) = missing? ds here := by
  simp only [missing?, List.any_map, Function.comp_def]

theorem backed_paths (c : Cache) (files : List (List String)) (here : List Asset)
    (backed : List.Forall₂ (Backed t now app root ds c) files here) : here.map Asset.path = files.map assetPath := by
  induction backed with
  | nil => rfl
  | cons first others ih =>
      obtain ⟨e, size, modified, backing⟩ := first
      rw [List.map_cons, List.map_cons, ih, backing.asset]

end

section

variable (body : Bytes) (modified : Int)

theorem site_vacant : (site body modified []).locate true ⟨1, ["c"]⟩ = .ok (.vacant ["c"]) := by
  have narrow : ¬maxPathSize < (Text.utf8 (Path.toString ⟨1, ["c"]⟩)).length := by decide
  have short : ¬maxNameSize < (Text.utf8 "c").length := by decide
  rw [FileTree.locate, if_neg narrow]
  simp [site, Path.isAbsolute, Node.walk, Node.get?, short, Members.lookup_entry, Except.mapError]

theorem site_folders : (site body modified []).makeFolders (Path.parent ⟨1, ["c"]⟩) = .ok (site body modified []) :=
  FileTree.folder_above _ ⟨1, ["c"]⟩ _ (by decide) (site_vacant body modified)

theorem site_written (text : Bytes) (now : Int) : (site body modified []).write ⟨1, ["c"]⟩ text now =
    .ok (site body modified [("c", .file text now)]) := by
  rw [FileTree.write, site_vacant]
  rfl

theorem site_takes : (site body modified []).Takes ⟨1, ["c"]⟩ :=
  ⟨_, site_folders body modified, fun text now => ⟨_, site_written body modified text now⟩⟩

theorem site_unchanged (others : List (String × Node)) :
    Unchanged ⟨1, ["f"]⟩ (site body modified []) (site body modified others) where
  folder := (site_opens body modified others).trans (site_opens body modified []).symm
  files := (site_below body modified others).trans (site_below body modified []).symm
  stats := by
    intro names listed
    rw [site_below, List.mem_singleton] at listed
    subst listed
    exact (site_stat body modified others).trans (site_stat body modified []).symm

end

section

variable (app : String) (root : Path) (ds : Members Description) (c : Cache)

-- A listing, its cache saved and loaded, and a listing again: the second one gives the
-- same assets and reads no file, whatever the files contain by then. Any cache that comes
-- from a file can be put into one again.
theorem listed_again (w : World) (file : Path) (spelled : w.files.root.Spelled) (clean : hasNull root = false)
    (folder : w.files.isFolder root = true)
    (readable : ∀ names ∈ w.files.filesBelow root, Readable w.files (root.join ⟨0, names⟩))
    (accepted : ∀ d ∈ ds, ∃ names ∈ w.files.filesBelow root, d.1 = assetPath names)
    (known : c.Storable ∨ ∃ source x y, (Cache.load source).perform x = (.ok c, y))
    (brief : Brief w.files root) (plain : hasNull file = false) (takes : w.files.Takes file) :
    ∃ here learnt u v,
      (run app root ds c).perform w = (.ok (.ok here, learnt), u) ∧
      here.map Asset.path = (w.files.filesBelow root).map assetPath ∧
      (learnt.save file).perform u = (.ok { learnt with dirty := false }, v) ∧
      (Cache.load file).perform v = (.ok { learnt with dirty := false }, v) ∧
      (∀ other path, other ≠ app ∨ path ∉ here.map Asset.path → learnt.get? other path = c.get? other path) ∧
      ∀ x : World, Unchanged root w.files x.files →
        (∀ names ∈ x.files.filesBelow root, Known x.files app root { learnt with dirty := false } names) ∧
        ∃ y, (run app root ds { learnt with dirty := false }).perform x =
          (.ok (.ok (here.map fun a => { a with lastModified := truncated x.clock }), { learnt with dirty := false }),
            y) := by
  have storable : c.Storable := by
    rcases known with storable | ⟨source, x, y, loaded⟩
    · exact storable
    · exact Cache.load_storable source x y c loaded
  have named := w.files.below_named root spelled
  obtain ⟨here, learnt, lists⟩ := readable_listed w.files (truncated w.clock) app root ds c readable accepted
  obtain ⟨described, complete⟩ := (folder_listed w.files _ app root ds c learnt here).mp lists
  have backed := all_backed w.files _ app root ds _ named c learnt here described
  have paths := backed_paths w.files _ app root ds learnt _ here backed
  obtain ⟨u, performed, noted⟩ := run_folder root w app ds c clean folder
  rw [lists] at performed
  have files : u.files = w.files := by
    obtain ⟨marks, log, rfl⟩ := noted
    rfl
  have kept : learnt.Storable := by
    have all := all_storable w.files (truncated w.clock) app root ds brief c storable
    rwa [described] at all
  obtain ⟨_, after, saved, held, _⟩ := learnt.saved_read file u plain (files ▸ takes)
  refine ⟨here, learnt, u, { u with files := after }, performed, paths, saved, ?_, ?_, ?_⟩
  · exact learnt.load_saved file _ plain kept held
  · intro other path apart
    have frame := all_frame w.files (truncated w.clock) app root ds (w.files.filesBelow root) c other path
    rw [described] at frame
    apply frame
    refine apart.imp_right fun absent names listed same => absent ?_
    rw [paths, same]
    exact List.mem_map_of_mem listed
  · intro x unchanged
    have again := backed_unchanged w.files _ app root ds x.files (truncated x.clock) learnt unchanged here backed
    refine ⟨backed_known x.files _ app root ds _ _ _ again, ?_⟩
    have same := backed_all x.files _ app root ds _ _ _ again
    obtain ⟨y, second, _⟩ := run_folder root x app ds { learnt with dirty := false } clean (unchanged.folder.trans folder)
    have lists := (folder_listed x.files (truncated x.clock) app root ds _ _ _).mpr
      ⟨same, (missing_again ds here _).trans complete⟩
    rw [lists] at second
    exact ⟨y, second⟩

end

-- The cache file stands beside the folder, and the cache knows an app and a file that are
-- not listed.
theorem listed_again_beside : ∃ here learnt u v y,
    (run "app" ⟨1, ["f"]⟩ [("/a", ⟨"/a", []⟩)]
      ((Cache.empty.set "other" ⟨"/a", 1, 2, "g"⟩).set "app" ⟨"/z", 3, 4, "h"⟩)).perform
        (World.start (site [0x78] 5900000000 []) fun _ _ => .error .interrupt) = (.ok (.ok here, learnt), u) ∧
    (learnt.save ⟨1, ["c"]⟩).perform u = (.ok { learnt with dirty := false }, v) ∧
    (Cache.load ⟨1, ["c"]⟩).perform v = (.ok { learnt with dirty := false }, v) ∧
    learnt.get? "other" "/a" = some ⟨"/a", 1, 2, "g"⟩ ∧ learnt.get? "app" "/z" = some ⟨"/z", 3, 4, "h"⟩ ∧
    (run "app" ⟨1, ["f"]⟩ [("/a", ⟨"/a", []⟩)] { learnt with dirty := false }).perform v =
      (.ok (.ok (here.map fun a => { a with lastModified := truncated v.clock }), { learnt with dirty := false }), y) := by
  let w : World := World.start (site [0x78] 5900000000 []) fun _ _ => .error .interrupt
  have files : w.files = site [0x78] 5900000000 [] := rfl
  have short : ∀ n : Int, n ∈ [1, 2, 3, 4, 5] → Json.Short n := by decide
  have storable := Cache.set_storable _ "app" ⟨"/z", 3, 4, "h"⟩
    (Cache.set_storable _ "other" ⟨"/a", 1, 2, "g"⟩ Cache.empty_storable ⟨short _ (by decide), short _ (by decide)⟩)
    ⟨short _ (by decide), short _ (by decide)⟩
  have accepted : ∀ d ∈ ([("/a", ⟨"/a", []⟩)] : Members Description), ∃ names ∈ w.files.filesBelow ⟨1, ["f"]⟩,
      d.1 = assetPath names := by
    intro d member
    rw [List.mem_singleton.mp member]
    refine ⟨["a"], ?_, by decide⟩
    rw [files, site_below]
    exact List.mem_singleton_self _
  have brief : Brief w.files ⟨1, ["f"]⟩ := by
    intro names listed size modified stat
    rw [files, site_below, List.mem_singleton] at listed
    subst listed
    cases (site_stat _ _ _).symm.trans stat
    exact ⟨short _ (by decide), short _ (by decide)⟩
  obtain ⟨here, learnt, u, v, performed, paths, saved, loaded, frame, again⟩ := listed_again "app" ⟨1, ["f"]⟩ _ _ w
    ⟨1, ["c"]⟩ (site_spelled _ _) (by decide) (site_opens _ _ _) (site_readable _ _ _) accepted (.inl storable) brief
    (by decide) (site_takes _ _)
  have untouched : u.files = site [0x78] 5900000000 [] := by
    obtain ⟨_, listed, noted⟩ := run_folder ⟨1, ["f"]⟩ w "app" [("/a", ⟨"/a", []⟩)] _ (by decide) (site_opens _ _ _)
    obtain rfl := congrArg Prod.snd (listed.symm.trans performed)
    obtain ⟨marks, log, rfl⟩ := noted
    rfl
  have written : v.files = site [0x78] 5900000000 [("c", .file learnt.fileText (nanoseconds u.clock))] := by
    obtain ⟨made, files, stored, _, built, write⟩ := learnt.saved_read ⟨1, ["c"]⟩ u (by decide)
      (by rw [untouched]; exact site_takes _ _)
    obtain rfl := congrArg Prod.snd (stored.symm.trans saved)
    rw [untouched, site_folders] at built
    cases built
    exact Except.ok.inj (write.symm.trans (site_written _ _ _ _))
  obtain ⟨_, y, second⟩ := again v (by rw [written]; exact site_unchanged _ _ _)
  refine ⟨here, learnt, u, v, y, performed, saved, loaded, frame "other" "/a" (.inl (by decide)), ?_, second⟩
  refine frame "app" "/z" (.inr ?_)
  rw [paths, files, site_below]
  decide

end HostingAdmin.Listing
