import HostingAdmin.Proofs.AssetPaths
import HostingAdmin.Proofs.ExportSettles
import HostingAdmin.Proofs.FolderContents

set_option autoImplicit false

namespace HostingAdmin

-- Only files at certain places, and folders, have come into a folder.
structure Filled (origin : FileTree) (root : List String) (t : FileTree) (places : List (List String)) : Prop where
  grows : origin.root.Grows t.root
  unique : ∀ names, t.root.Unique (root ++ names)
  known : ∀ names x, t.root.look (root ++ names) = some x → x = .folder [] ∨ root ++ names ∈ places
  outside : ∀ at_ x, ¬ root <+: at_ → origin.root.look at_ = some x → t.root.look at_ = some x

section

variable (origin : FileTree) (root : List String) (t u : FileTree) (places : List (List String))

theorem grows_stay (n : Node) : n.Grows n := fun _ m there => ⟨m, there, rfl⟩

theorem filled_first (empty : t.root.look root = some (.folder []))
    (bare : ∀ name rest, t.root.look (root ++ name :: rest) = none) : Filled t root t [] where
  grows := grows_stay t.root
  unique names entries there := by
    cases names with
    | nil =>
        cases entries with
        | nil => exact List.nodup_nil
        | cons e rest =>
            -- A name in the folder would be seen below it.
            have inside := bare e.1 []
            rw [List.append_nil] at there
            rw [Node.look_none, Node.get_entry t.root root _ e.1 there, Members.lookup_entry, if_pos rfl] at inside
            cases inside
    | cons name rest =>
        have nothing := (Node.look_none t.root _).mp (bare name rest)
        rw [nothing] at there
        cases there
  known names x there := by
    cases names with
    | nil =>
        rw [List.append_nil, empty] at there
        cases there
        exact .inl rfl
    | cons name rest =>
        rw [bare name rest] at there
        cases there
  outside _ _ _ there := there

variable (filled : Filled origin root t places)

include filled

theorem filled_folders (p : Path) (made : t.makeFolders p = .ok u) : Filled origin root u places := by
  have built := FileTree.folders_built t u p made
  refine ⟨?_, ?_, ?_, ?_⟩
  · refine Node.grows_chain origin.root t.root u.root filled.grows (Node.look_grows t.root u.root ?_)
    exact fun at_ n there => ⟨n, built.kept at_ n there, rfl⟩
  · exact fun names => FileTree.folders_unique t u p _ (filled.unique names) made
  · intro names x there
    rcases built.fresh _ _ there with before | folder
    · exact filled.known names x before
    · exact .inl folder
  · exact fun at_ x apart there => built.kept at_ x (filled.outside at_ x apart there)

theorem filled_file (names : List String) (body : Bytes) (now : Int)
    (laid : t.root.Laid u.root (root ++ names) (.file body now)) :
    Filled origin root u (places ++ [root ++ names]) := by
  refine ⟨?_, ?_, ?_, ?_⟩
  · exact Node.grows_chain origin.root t.root u.root filled.grows (Node.laid_grows t.root u.root _ _ laid (.inl rfl))
  · intro others
    rw [laid.whole]
    exact Node.put_unique t.root _ _ _ laid.leaf (filled.unique others)
  · intro others x there
    rw [List.mem_append, List.mem_singleton]
    by_cases same : root ++ others = root ++ names
    · exact .inr (.inr same)
    · rw [Node.laid_other t.root u.root _ _ laid _ same] at there
      rcases filled.known others x there with folder | before
      · exact .inl folder
      · exact .inr (.inl before)
  · intro at_ x apart there
    have other : at_ ≠ root ++ names := by
      rintro rfl
      exact apart (List.prefix_append root names)
    rw [Node.laid_other t.root u.root _ _ laid _ other]
    exact filled.outside at_ x apart there

end

namespace Hosting.Retrieval

theorem run_filled (n : Nat) (assets : List Asset) (files : FileTree) (root : List String)
    (grounded : files.root.isFolder = true) (scattered : Scattered files ⟨1, root⟩ assets)
    (within : ∀ a ∈ assets, ∀ parts, Placed files ⟨1, root⟩ a parts → root <+: parts)
    (first : Filled files root files []) (b : Retrieval) (run : Run (start ⟨1, root⟩ files n assets) b) :
    Filled files root b.files (b.saved.map fun x => x.path.parts) := by
  induction run with
  | rest => exact first
  | move c d m before lawful moved ih =>
      have account := run_accounted ⟨1, root⟩ files n assets c before
      have stock := run_stock n assets files ⟨1, root⟩ grounded scattered c before
      have advance := step_advance c d m lawful moved
      generalize c.delivery m = given at advance
      cases advance with
      | housed i a p body built busy leg made => exact filled_folders files root c.files built _ ih p.parent made
      | stored i a p body modified changed q busy leg written pooled =>
          obtain ⟨parts, rfl, placed, plain⟩ := own_aim files _ c stock i a _ p busy leg rfl
          obtain ⟨_, _, laid⟩ := FileTree.write_held c.files changed ⟨1, parts⟩ body modified stock.grounded rfl
            (FileTree.plain_linked files c.files stock.linked parts plain) written
          obtain ⟨names, rfl⟩ := within a (busy_listed n assets c account i a busy) parts placed
          rw [List.map_append]
          exact filled_file files root c.files changed _ ih names body modified laid
      | _ => exact ih

-- Assets with names of files for paths, no two of which are the same.
structure Tidy (assets : List Asset) : Prop where
  distinct : (assets.map Asset.path).Nodup
  named : ∀ a ∈ assets, ∃ names, Named names ∧ a.path = Listing.assetPath names

-- An app folder after an export of some assets.
structure Exported (t : FileTree) (folder : Path) (hosting : List String) (assets : List Asset) (manifest : Bytes) :
    Prop where
  opens : t.Opens (Manifest.filesFolder folder) (hosting ++ ["files"])
  short : ¬ maxPathSize < (Text.utf8 (Manifest.filesFolder folder).toString).length
  plain : t.root.Plain (hosting ++ ["files"])
  unique : ∀ names, t.root.Unique (hosting ++ ["files"] ++ names)
  straight : ∀ names target, t.root.look (hosting ++ ["files"] ++ names) ≠ some (.link target)
  files : ∀ names, (∃ body modified, t.root.get? (hosting ++ ["files"] ++ names) = some (.file body modified)) ↔
    Named names ∧ ∃ a ∈ assets, a.path = Listing.assetPath names
  fits : ∀ names, Named names → (∃ a ∈ assets, a.path = Listing.assetPath names) →
    ∀ name ∈ names, ¬ maxNameSize < (Text.utf8 name).length
  manifest : ∃ modified, t.locate true (Manifest.location folder) =
    .ok (.node (hosting ++ ["metadata.json"]) (.file manifest modified))

section

variable (files : FileTree) (root : List String) (plain : files.root.Plain root)
  (straight : ∀ names target, files.root.look (root ++ names) ≠ some (.link target))

include plain straight

theorem named_leads (a : Asset) (names : List String) (named : Named names) (path : a.path = Listing.assetPath names)
    (parts : List String) : Placed files ⟨1, root⟩ a parts ↔ parts = root ++ names := by
  have down : ".." ∉ names := fun up => (named.proper _ up).down rfl
  have below : (⟨1, root⟩ : Path).join ⟨0, names⟩ = ⟨1, root ++ names⟩ := rfl
  have absolute : (⟨1, root ++ names⟩ : Path).isAbsolute = true := rfl
  rw [Placed, path, relative_names names named, below, FileTree.Leads, if_pos absolute,
    Node.real_straight files.root _ [] [] (root ++ names)
      (Node.plain_onward files.root root names plain down straight), List.nil_append, Except.ok.injEq]
  exact ⟨Eq.symm, Eq.symm⟩

theorem tidy_scattered (assets : List Asset) (tidy : Tidy assets) : Scattered files ⟨1, root⟩ assets where
  placed a member := by
    obtain ⟨names, named, path⟩ := tidy.named a member
    exact ⟨_, (named_leads files root plain straight a names named path _).mpr rfl⟩
  apart := by
    refine (List.pairwise_map.mp tidy.distinct).imp_of_mem ?_
    intro a b first second other p q here there same
    obtain ⟨names, named, path⟩ := tidy.named a first
    obtain ⟨others, also, elsewhere⟩ := tidy.named b second
    rw [(named_leads files root plain straight a names named path p).mp here,
      (named_leads files root plain straight b others also elsewhere q).mp there] at same
    rw [path, elsewhere, List.append_cancel_left same] at other
    exact other rfl

theorem tidy_within (assets : List Asset) (tidy : Tidy assets) (a : Asset) (member : a ∈ assets)
    (parts : List String) (placed : Placed files ⟨1, root⟩ a parts) : root <+: parts := by
  obtain ⟨names, named, path⟩ := tidy.named a member
  rw [(named_leads files root plain straight a names named path parts).mp placed]
  exact List.prefix_append root names

theorem copy_placed (assets : List Asset) (tidy : Tidy assets) (b : Retrieval) (stock : Stock files ⟨1, root⟩ b)
    (x : Copy) (saved : x ∈ b.saved) (listed : x.asset ∈ assets) :
    ∃ names, Named names ∧ x.asset.path = Listing.assetPath names ∧ x.path = ⟨1, root ++ names⟩ ∧
      b.files.Held x.path x.body := by
  obtain ⟨parts, path, placed, held⟩ := stock.copies x saved
  obtain ⟨names, named, same⟩ := tidy.named x.asset listed
  rw [(named_leads files root plain straight x.asset names named same parts).mp placed] at path
  exact ⟨names, named, same, path, held⟩

-- Every asset is at the place of its names, and beside folders nothing else is there.
structure Copied (t : FileTree) (root : List String) (assets : List Asset) : Prop where
  held : ∀ names, Named names → (∃ a ∈ assets, a.path = Listing.assetPath names) →
    ∃ body, t.Held ⟨1, root ++ names⟩ body
  known : ∀ names x, t.root.look (root ++ names) = some x → x = .folder [] ∨
    (∃ body modified, x = .file body modified) ∧ Named names ∧ ∃ a ∈ assets, a.path = Listing.assetPath names

theorem all_copied (assets : List Asset) (tidy : Tidy assets) (b : Retrieval) (stock : Stock files ⟨1, root⟩ b)
    (filled : Filled files root b.files (b.saved.map fun x => x.path.parts))
    (saved : (b.saved.map Copy.asset).Perm assets) : Copied b.files root assets := by
  have copied : ∀ x ∈ b.saved, ∃ names, Named names ∧ x.asset.path = Listing.assetPath names ∧
      x.path = ⟨1, root ++ names⟩ ∧ b.files.Held x.path x.body := by
    intro x member
    exact copy_placed files root plain straight assets tidy b stock x member
      (saved.subset (List.mem_map_of_mem member))
  refine ⟨?_, ?_⟩
  · rintro names named ⟨a, member, path⟩
    obtain ⟨x, copy, rfl⟩ := List.mem_map.mp (saved.symm.subset member)
    obtain ⟨others, also, elsewhere, at_, held⟩ := copied x copy
    rw [path] at elsewhere
    rw [names_same names others named also elsewhere, ← at_]
    exact ⟨x.body, held⟩
  · intro names x there
    rcases filled.known names x there with folder | place
    · exact .inl folder
    · obtain ⟨y, copy, at_⟩ := List.mem_map.mp place
      obtain ⟨others, named, path, also, held⟩ := copied y copy
      rw [also] at at_
      have same := List.append_cancel_left at_
      subst same
      obtain ⟨modified, found⟩ := held.there
      rw [also, there, Option.some.injEq] at found
      exact .inr ⟨⟨y.body, modified, found⟩, named, y.asset, saved.subset (List.mem_map_of_mem copy), path⟩

end

section

variable (files : FileTree) (folder : Path) (hosting : List String) (manifest : Bytes)
  (opened : Manifest.Opened files folder hosting manifest)

include opened

theorem opened_filled : Filled files (hosting ++ ["files"]) files [] :=
  filled_first (hosting ++ ["files"]) files
    ((Node.look_folder files.root _).mpr (FileTree.opens_there files _ _ opened.opens)) opened.bare

theorem opened_straight (names : List String) (target : String) :
    files.root.look (hosting ++ ["files"] ++ names) ≠ some (.link target) := by
  intro link
  rcases (opened_filled files folder hosting manifest opened).known names _ link with folder | none
  · cases folder
  · cases none

theorem run_exported (n : Nat) (positive : 1 ≤ n) (assets : List Asset) (tidy : Tidy assets)
    (down : ".." ∉ files.current) (grounded : files.root.isFolder = true) (b : Retrieval)
    (run : Run (start ⟨1, hosting ++ ["files"]⟩ files n assets) b) (steady : b.pool.crash? = none)
    (allOver : b.pool.isOver = true) (clean : b.reported = []) :
    Exported b.files folder hosting assets manifest := by
  have first := opened_filled files folder hosting manifest opened
  have straight := opened_straight files folder hosting manifest opened
  have plain := FileTree.opens_plain files _ _ down opened.opens
  have scattered := tidy_scattered files _ plain straight assets tidy
  have stock := run_stock n assets files _ grounded scattered b run
  have within := tidy_within files _ plain straight assets tidy
  have filled := run_filled n assets files _ grounded scattered within first b run
  have saved := over_saved n positive assets b (run_accounted _ files n assets b run) steady allOver clean
  have copied := all_copied files _ plain straight assets tidy b stock filled saved
  refine ⟨?_, opened.short, ?_, filled.unique, ?_, ?_, ?_, ?_⟩
  · exact FileTree.opens_grown files b.files stock.linked.current filled.grows _ _ opened.opens
  · exact FileTree.plain_linked files b.files stock.linked _ plain
  · intro names target link
    rcases copied.known names _ link with folder | ⟨⟨body, modified, file⟩, _⟩
    · cases folder
    · cases file
  · intro names
    constructor
    · rintro ⟨body, modified, there⟩
      rcases copied.known names _ ((Node.look_file b.files.root _ body modified).mpr there) with folder | ⟨_, listed⟩
      · cases folder
      · exact listed
    · rintro ⟨named, listed⟩
      obtain ⟨body, there⟩ := copied.held names named listed
      obtain ⟨modified, found⟩ := there.there
      exact ⟨body, modified, (Node.look_file b.files.root _ body modified).mp found⟩
  · intro names named listed name member
    obtain ⟨body, there⟩ := copied.held names named listed
    exact there.fits name (List.mem_append_right _ member)
  · obtain ⟨modified, located⟩ := opened.manifest
    obtain ⟨m, there, again⟩ := FileTree.locate_grown files b.files stock.linked.current filled.grows _ _ _ located
    have before := (Node.look_file files.root _ manifest modified).mpr (Node.walk_there files.root true _ _ _ _ _
      ((FileTree.locate_walk files true _ _).mp located).2)
    have apart : ¬ hosting ++ ["files"] <+: hosting ++ ["metadata.json"] := by
      rw [List.prefix_append_right_inj]
      decide
    have after := filled.outside _ _ apart before
    rw [(Node.look_file b.files.root _ manifest modified).mp after] at there
    cases there
    exact ⟨modified, again⟩

end

end Hosting.Retrieval

end HostingAdmin
