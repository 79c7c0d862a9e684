import HostingAdmin.Proofs.FoundFiles
import HostingAdmin.Proofs.LocalListing

set_option autoImplicit false

namespace HostingAdmin

theorem Cache.get_set (c : Cache) (app other path : String) (e : CacheEntry) :
    (c.set app e).get? other path = if other = app ∧ path = e.path then some e else c.get? other path := by
  rw [get?, set, Members.lookup_put]
  by_cases same : other = app
  · subst same
    simp only [if_true, Option.bind_some, Members.lookup_put, true_and]
    cases known : c.entries.lookup other with
    | none => simp [get?, known]
    | some es => simp [get?, known]
  · simp [same, get?]

namespace Listing

-- Where the hash of a file comes from: an entry that holds, or the file itself.
inductive Hashed (t : FileTree) (app : String) (p : Path) (path : String) (size modified : Int) (c : Cache) :
    String → Cache → Prop where
  | known (e : CacheEntry) (found : c.get? app path = some e) (holds : e.holds size modified = true) :
      Hashed t app p path size modified c e.hash c
  | learnt (hash : String) (read : hashFile t p = .ok hash) :
      Hashed t app p path size modified c hash (c.set app ⟨path, modified, size, hash⟩)

theorem hash_hashed (t : FileTree) (app : String) (p : Path) (path : String) (size modified : Int) (c : Cache)
    (hash : String) (after : Cache) (hashed : hashOf t app p path size modified c = .ok (hash, after)) :
    Hashed t app p path size modified c hash after := by
  have computed (read : hashOf.compute t app p path size modified c = .ok (hash, after)) :
      Hashed t app p path size modified c hash after := by
    rw [hashOf.compute] at read
    cases fileEq : hashFile t p with
    | error fault =>
        rw [fileEq] at read
        cases read
    | ok digest =>
        rw [fileEq] at read
        cases read
        exact .learnt _ fileEq
  rw [hashOf] at hashed
  split at hashed
  · rename_i e found
    split at hashed
    · rename_i holds
      cases hashed
      exact .known e found holds
    · exact computed hashed
  · exact computed hashed

theorem describe_parts (t : FileTree) (now : Int) (app : String) (p : Path) (path : String) (d : Option Description)
    (c after : Cache) (a : Asset) (described : describe t now app p path d c = .ok (a, after)) :
    ∃ size modified hash, t.stat p = .ok (size, modified) ∧
      Hashed t app p path size (wholeSeconds modified) c hash after ∧
      a = ⟨app, path, hash, size, attributes path d, now, ""⟩ := by
  rw [describe] at described
  cases stat : t.stat p with
  | error fault =>
      rw [stat] at described
      cases described
  | ok found =>
      obtain ⟨size, modified⟩ := found
      rw [stat] at described
      simp only [bind, Except.bind] at described
      cases hashed : hashOf t app p path size (wholeSeconds modified) c with
      | error fault =>
          rw [hashed] at described
          cases described
      | ok found =>
          obtain ⟨hash, next⟩ := found
          rw [hashed] at described
          cases described
          exact ⟨size, modified, hash, rfl, hash_hashed t app p path size _ c hash _ hashed, rfl⟩

section

variable (t : FileTree) (now : Int) (app : String) (root : Path) (ds : Members Description)

-- The description of one file of a folder.
def describeNamed (names : List String) (c : Cache) : FileTree.Result (Asset × Cache) :=
  describe t now app (root.join ⟨0, names⟩) (assetPath names) (ds.lookup (assetPath names)) c

-- What each description keeps, a listing keeps, also one that fails.
theorem all_keep (P : Cache → Prop) (files : List (List String)) (c : Cache)
    (step : ∀ names ∈ files, ∀ a before after, describeNamed t now app root ds names before = .ok (a, after) →
      P before → P after) (holds : P c) : P (describeAll t now app root ds files c).2 := by
  induction files generalizing c with
  | nil => exact holds
  | cons names rest ih =>
      rw [describeAll]
      dsimp only
      split
      · exact holds
      · rename_i a after described
        apply ih after fun names member => step names (List.mem_cons_of_mem _ member)
        exact step names List.mem_cons_self a c after described holds

-- An asset as the cache has it: its hash stands in an entry that holds for its file.
structure Backing (c : Cache) (names : List String) (a : Asset) (e : CacheEntry) (size : Nat) (modified : Int) :
    Prop where
  entry : c.get? app (assetPath names) = some e
  stat : t.stat (root.join ⟨0, names⟩) = .ok (size, modified)
  holds : e.holds size (wholeSeconds modified) = true
  asset : a = ⟨app, assetPath names, e.hash, size, attributes (assetPath names) (ds.lookup (assetPath names)), now, ""⟩

def Backed (c : Cache) (names : List String) (a : Asset) : Prop :=
  ∃ e size modified, Backing t now app root ds c names a e size modified

theorem described_backed (names : List String) (c after : Cache) (a : Asset)
    (described : describeNamed t now app root ds names c = .ok (a, after)) :
    Backed t now app root ds after names a := by
  obtain ⟨size, modified, hash, stat, hashed, rfl⟩ := describe_parts t now app _ _ _ c after a described
  cases hashed with
  | known e found holds => exact ⟨e, size, modified, found, stat, holds, rfl⟩
  | learnt hash read =>
      refine ⟨⟨assetPath names, wholeSeconds modified, size, hash⟩, size, modified, ?_, stat, ?_, rfl⟩
      · rw [Cache.get_set, if_pos ⟨rfl, rfl⟩]
      · simp [CacheEntry.holds]

theorem backed_described (names : List String) (c : Cache) (a : Asset) (backed : Backed t now app root ds c names a) :
    describeNamed t now app root ds names c = .ok (a, c) := by
  obtain ⟨e, size, modified, entry, stat, holds, rfl⟩ := backed
  rw [describeNamed, describe, stat]
  simp only [bind, Except.bind, hashOf, entry, holds, if_true]
  rfl

-- An entry that holds is not replaced: neither by another file nor by its own.
theorem backed_kept (names others : List String) (named : Named names) (also : Named others) (c after : Cache)
    (a b : Asset) (backed : Backed t now app root ds c names a)
    (described : describeNamed t now app root ds others c = .ok (b, after)) :
    Backed t now app root ds after names a := by
  by_cases same : names = others
  · subst same
    rw [backed_described t now app root ds names c a backed] at described
    cases described
    exact backed
  · obtain ⟨size, modified, hash, _, hashed, _⟩ := describe_parts t now app _ _ _ c after b described
    cases hashed with
    | known e found holds => exact backed
    | learnt hash read =>
        obtain ⟨e, size, modified, entry, stat, holds, asset⟩ := backed
        refine ⟨e, size, modified, ?_, stat, holds, asset⟩
        rw [Cache.get_set, if_neg, entry]
        rintro ⟨_, path⟩
        exact same (names_same names others named also path)

theorem all_backed (files : List (List String)) (named : ∀ names ∈ files, Named names) (c after : Cache)
    (here : List Asset) (described : describeAll t now app root ds files c = (.ok here, after)) :
    List.Forall₂ (Backed t now app root ds after) files here := by
  induction files generalizing c here with
  | nil =>
      cases described
      exact .nil
  | cons names rest ih =>
      have later : ∀ others ∈ rest, Named others := fun others member => named others (List.mem_cons_of_mem _ member)
      rw [describeAll] at described
      dsimp only at described
      split at described
      · cases described
      · rename_i a next first
        have backed := described_backed t now app root ds names c next a first
        have kept := all_keep t now app root ds (Backed t now app root ds · names a) rest next
          (fun others member b before after described holds => backed_kept t now app root ds names others
            (named names List.mem_cons_self) (later others member) before after a b holds described) backed
        cases restEq : describeAll t now app root ds rest next with
        | mk result learnt =>
            rw [restEq] at described kept
            cases result with
            | error fault => cases described
            | ok others =>
                cases described
                exact .cons kept (ih later next others restEq)

theorem backed_all (files : List (List String)) (c : Cache) (here : List Asset)
    (backed : List.Forall₂ (Backed t now app root ds c) files here) :
    describeAll t now app root ds files c = (.ok here, c) := by
  induction backed with
  | nil => rfl
  | cons first others ih =>
      rename_i names a rest more
      have described := backed_described t now app root ds names c a first
      rw [describeNamed] at described
      rw [describeAll]
      dsimp only
      rw [described]
      dsimp only
      rw [ih]
      rfl

theorem all_frame (files : List (List String)) (c : Cache) (other path : String)
    (apart : other ≠ app ∨ ∀ names ∈ files, path ≠ assetPath names) :
    (describeAll t now app root ds files c).2.get? other path = c.get? other path := by
  refine all_keep t now app root ds (fun after => after.get? other path = c.get? other path) files c ?_ rfl
  intro names member a before after described same
  obtain ⟨size, modified, hash, _, hashed, _⟩ := describe_parts t now app _ _ _ before after a described
  cases hashed with
  | known e found holds => exact same
  | learnt hash read =>
      rw [Cache.get_set, if_neg, same]
      rintro ⟨app, path⟩
      rcases apart with unlike | unlike
      · exact unlike app
      · exact unlike names member path

theorem folder_listed (c after : Cache) (here : List Asset) :
    ofFolder t now app root ds c = (.ok here, after) ↔
      describeAll t now app root ds (t.filesBelow root) c = (.ok here, after) ∧ missing? ds here = none := by
  rw [ofFolder]
  rcases describeAll t now app root ds (t.filesBelow root) c with ⟨fault | assets, learnt⟩
  · constructor
    · intro same
      cases same
    · rintro ⟨same, _⟩
      cases same
  · dsimp only
    simp only [Except.mapError, bind, Except.bind]
    cases missingEq : missing? ds assets with
    | none =>
        constructor
        · intro same
          cases same
          exact ⟨rfl, missingEq⟩
        · rintro ⟨same, _⟩
          cases same
          rfl
    | some path =>
        constructor
        · intro same
          cases same
        · rintro ⟨same, none⟩
          cases same
          rw [missingEq] at none
          cases none

theorem readable_listed (c : Cache) (readable : ∀ names ∈ t.filesBelow root, Readable t (root.join ⟨0, names⟩))
    (accepted : ∀ d ∈ ds, ∃ names ∈ t.filesBelow root, d.1 = assetPath names) :
    ∃ here after, ofFolder t now app root ds c = (.ok here, after) := by
  rcases all_described t now app root ds _ c fun names member => .inr (readable names member) with
    ⟨here, after, described, paths, _⟩ | ⟨names, member, long, _⟩
  · refine ⟨here, after, (folder_listed t now app root ds c after here).mpr ⟨described, ?_⟩⟩
    rw [missing?, Option.map_eq_none_iff, List.find?_eq_none]
    intro d member
    obtain ⟨names, listed, path⟩ := accepted d member
    have onDisk : d.1 ∈ here.map Asset.path := by
      rw [paths, path]
      exact List.mem_map_of_mem listed
    obtain ⟨a, inside, same⟩ := List.mem_map.mp onDisk
    simp only [Bool.not_eq_true, Bool.not_eq_false', List.any_eq_true, decide_eq_true_eq]
    exact ⟨a, inside, same⟩
  · exact (readable_short t _ (readable names member) long).elim

end

section

open HostingAdmin.Action

variable (root : Path) (w : World)

theorem folder_opens (clean : hasNull root = false) (folder : w.files.isFolder root = true) :
    (folderExists root).perform w = (.ok true, w) := by
  rw [FileTree.isFolder] at folder
  cases there : w.files.node root with
  | error fault =>
      rw [there] at folder
      cases folder
  | ok n =>
      rw [there] at folder
      simp [folderExists, nodeAt?, clean, perform_bind, there, folder]

theorem folder_closed (closed : ¬ (hasNull root = false ∧ w.files.isFolder root = true)) :
    (folderExists root).perform w = (.ok false, w) ∨ ∃ f, (folderExists root).perform w = (.error f, w) := by
  by_cases null : hasNull root = true
  · exact .inl (by simp [folderExists, nodeAt?, null])
  · have clean : hasNull root = false := Bool.eq_false_iff.mpr null
    rw [not_and, FileTree.isFolder] at closed
    have file := closed clean
    cases there : w.files.node root with
    | error fault =>
        by_cases long : fault.problem = .nameTooLong
        · exact .inr ⟨.file fault, by simp [folderExists, nodeAt?, clean, perform_bind, there, long]⟩
        · exact .inl (by simp [folderExists, nodeAt?, clean, perform_bind, there, long])
    | ok n =>
        rw [there] at file
        exact .inl (by simp [folderExists, nodeAt?, clean, perform_bind, there, Bool.eq_false_iff.mpr file])

theorem run_folder (app : String) (ds : Members Description) (c : Cache) (clean : hasNull root = false)
    (folder : w.files.isFolder root = true) :
    ∃ v, (run app root ds c).perform w = (.ok (ofFolder w.files (truncated w.clock) app root ds c), v) ∧ Logged w v := by
  rw [run, perform_bind, folder_opens root w clean folder]
  simp only [if_true, perform_bind, perform_get]
  rcases ofFolder w.files (truncated w.clock) app root ds c with ⟨f | here, after⟩
  · exact ⟨w, rfl, logged_passage.stay w⟩
  · obtain ⟨v, recorded, logged⟩ := record_within logged_passage .debug "Listed local assets"
      [("root", .str root.toString), ("count", .int here.length)] w
    refine ⟨v, ?_, logged⟩
    simp only [perform_bind, recorded, perform_pure]

theorem run_lists (app : String) (ds : Members Description) (c after : Cache) (v : World)
    (result : Except Failure (List Asset))
    (performed : (run app root ds c).perform w = (.ok (result, after), v)) :
    (∃ f, result = .error f ∧ after = c) ∨
      (hasNull root = false ∧ w.files.isFolder root = true) ∧
        ofFolder w.files (truncated w.clock) app root ds c = (result, after) := by
  by_cases opens : hasNull root = false ∧ w.files.isFolder root = true
  · obtain ⟨u, lists, _⟩ := run_folder root w app ds c opens.1 opens.2
    rw [lists] at performed
    cases performed
    exact .inr ⟨opens, rfl⟩
  · rw [run, perform_bind] at performed
    rcases folder_closed root w opens with missing | ⟨f, failed⟩
    · rw [missing] at performed
      cases performed
      exact .inl ⟨_, rfl, rfl⟩
    · rw [failed] at performed
      cases performed

end

-- A folder with one file, and what is beside it.
def site (body : Bytes) (modified : Int) (others : List (String × Node)) : FileTree :=
  ⟨.folder (("f", .folder [("a", .file body modified)]) :: others), []⟩

section

variable (body : Bytes) (modified : Int) (others : List (String × Node))

theorem site_folder : (site body modified others).locate true ⟨1, ["f"]⟩ =
    .ok (.node ["f"] (.folder [("a", .file body modified)])) := by
  have narrow : ¬maxPathSize < (Text.utf8 (Path.toString ⟨1, ["f"]⟩)).length := by decide
  have short : ¬maxNameSize < (Text.utf8 "f").length := by decide
  rw [FileTree.locate, if_neg narrow]
  simp [site, Path.isAbsolute, Node.walk, Node.get?, Node.child?, short, Except.mapError]

theorem site_file : (site body modified others).locate true ⟨1, ["f", "a"]⟩ =
    .ok (.node ["f", "a"] (.file body modified)) := by
  have narrow : ¬maxPathSize < (Text.utf8 (Path.toString ⟨1, ["f", "a"]⟩)).length := by decide
  have short : ¬maxNameSize < (Text.utf8 "f").length ∧ ¬maxNameSize < (Text.utf8 "a").length := by decide
  rw [FileTree.locate, if_neg narrow]
  simp [site, Path.isAbsolute, Node.walk, Node.get?, Node.child?, short.1, short.2, Except.mapError]

theorem site_opens : (site body modified others).isFolder ⟨1, ["f"]⟩ = true := by
  rw [FileTree.isFolder, FileTree.node, site_folder]
  rfl

theorem site_below : (site body modified others).filesBelow ⟨1, ["f"]⟩ = [["a"]] := by
  have found : (site body modified others).node ⟨1, ["f"]⟩ = .ok (.folder [("a", .file body modified)]) := by
    rw [FileTree.node, site_folder]
    rfl
  have opened : (site body modified others).isFolder (Path.join ⟨1, ["f"]⟩ ⟨0, []⟩) = true :=
    site_opens body modified others
  rw [FileTree.filesBelow, found]
  simp [Node.branch, Node.branches, opened, Branch.files, Branch.byName, Branch.leaf?, Branch.below]

theorem site_stat : (site body modified others).stat ⟨1, ["f", "a"]⟩ = .ok (body.length, modified) := by
  rw [FileTree.stat, FileTree.node, site_file]
  rfl

theorem site_readable : ∀ names ∈ (site body modified others).filesBelow ⟨1, ["f"]⟩,
    Readable (site body modified others) (Path.join ⟨1, ["f"]⟩ ⟨0, names⟩) := by
  intro names listed
  rw [site_below, List.mem_singleton] at listed
  subst listed
  exact ⟨_, body, modified, site_file body modified others⟩

theorem site_spelled : (site body modified []).root.Spelled := by
  have proper : ∀ letter ∈ ["f", "a"], Proper letter := by
    intro letter member
    simp only [List.mem_cons, List.not_mem_nil, or_false] at member
    rcases member with rfl | rfl
    · exact ⟨by decide, by decide, by decide, by decide⟩
    · exact ⟨by decide, by decide, by decide, by decide⟩
  have one : ∀ letter ∈ ["f", "a"], ∀ n : Node, n.Spelled → (Node.folder [(letter, n)]).Spelled := by
    intro letter member n spelled
    apply Node.spelled_folder _ (by simp [Members.names])
    · intro name inside
      rw [List.mem_singleton.mp inside]
      exact proper letter member
    · intro name child found
      rw [Members.lookup_entry] at found
      split at found
      · cases found
        exact spelled
      · cases found
  exact one "f" (by decide) _ (one "a" (by decide) _ (Node.spelled_leaf _ rfl))

end

end Listing

end HostingAdmin
