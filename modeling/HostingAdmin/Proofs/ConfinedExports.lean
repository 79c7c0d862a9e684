import HostingAdmin.Proofs.AppFolders
import HostingAdmin.Proofs.CallTraffic
import HostingAdmin.Proofs.ExportSettles
import HostingAdmin.Proofs.FilePlaces
import HostingAdmin.Proofs.TargetPaths

set_option autoImplicit false

namespace HostingAdmin

open HostingAdmin.Action

namespace FileTree

-- What is not at or below a place is as it was.
def Confined (root : List String) (t u : FileTree) : Prop := ∀ at_, ¬ root <+: at_ → u.root.look at_ = t.root.look at_

-- A folder in a tree without links.
structure Walled (root : List String) (t : FileTree) : Prop where
  linkless : t.Linkless
  folder : t.root.look root = some (.folder [])

section

variable (root : List String)

theorem confined_stay (t : FileTree) : Confined root t t := fun _ _ => rfl

theorem confined_chain (t u v : FileTree) (first : Confined root t u) (second : Confined root u v) :
    Confined root t v :=
  fun at_ apart => (second at_ apart).trans (first at_ apart)

theorem linkless_none (t : FileTree) (none : t.root.linkCount = 0) : t.Linkless := by
  intro at_ target link
  have listed := Node.links_listed t.root at_ target ((Node.look_link t.root at_ target).mp link)
  rw [List.eq_nil_of_length_eq_zero ((Node.links_count t.root).trans none)] at listed
  cases listed

theorem linkless_plain (t : FileTree) (linkless : t.Linkless) (parts : List String) (down : ".." ∉ parts) :
    t.root.Plain parts := ⟨down, fun before _ _ => linkless before⟩

variable (t u : FileTree) (walled : t.Walled root)

include walled

-- The folders above are there, so what is free on the way to a place inside is inside as well.
theorem vacant_inside (parts at_ : List String) (inside : root <+: parts) (way : at_ <+: parts)
    (vacant : t.root.get? at_ = none) : root <+: at_ ∧ at_ ≠ root := by
  obtain ⟨entries, folder⟩ := (Node.look_folder t.root root).mp walled.folder
  have apart : ¬ at_ <+: root := by
    rintro ⟨rest, rfl⟩
    rw [Node.get_append, vacant] at folder
    cases folder
  refine ⟨(List.prefix_or_prefix_of_prefix inside way).resolve_right apart, ?_⟩
  rintro rfl
  exact apart (List.prefix_refl _)

theorem laid_walled (spot : List String) (x : Node) (inside : root <+: spot) (apart : spot ≠ root)
    (laid : t.root.Laid u.root spot x) : u.Walled root ∧ Confined root t u := by
  refine ⟨⟨?_, ?_⟩, ?_⟩
  · exact fun at_ target link => walled.linkless at_ target ((Node.laid_link t.root u.root spot x laid at_ target).mp link)
  · rw [Node.laid_other t.root u.root spot x laid root apart.symm, walled.folder]
  · intro at_ beyond
    apply Node.laid_other t.root u.root spot x laid
    rintro rfl
    exact beyond inside

theorem located_named (p : Path) (follow : Bool) (s : Spot) (absolute : p.isAbsolute = true) (down : ".." ∉ p.parts)
    (located : t.locate follow p = .ok s) : s.place = p.parts := by
  obtain ⟨_, walked⟩ := (locate_walk t follow p s).mp located
  rw [if_pos absolute] at walked
  exact Node.walk_place t.root follow _ [] p.parts s (linkless_plain t walled.linkless p.parts down) walked

theorem folders_confined (parts : List String) (inside : root <+: parts) (down : ".." ∉ parts)
    (made : t.makeFolders (Path.parent ⟨1, parts⟩) = .ok u) : u.Walled root ∧ Confined root t u := by
  refine folders_within (fun t u => t.Walled root → u.Walled root ∧ Confined root t u)
    (fun t walled => ⟨walled, confined_stay root t⟩) ?_ (Path.parent ⟨1, parts⟩) ?_ t u made walled
  · intro t u v first second walled
    obtain ⟨between, before⟩ := first walled
    obtain ⟨last, after⟩ := second between
    exact ⟨last, confined_chain root t u v before after⟩
  · intro t q u slashes within one walled
    obtain ⟨spot, located, _, vacant, laid⟩ := folder_made t u q one
    have absolute : q.isAbsolute = true := by rw [Path.isAbsolute, slashes]; rfl
    have way : q.parts <+: parts := within.trans (List.dropLast_prefix parts)
    have place := located_named root t walled q false _ absolute (fun up => down (way.subset up)) located
    rw [Spot.place] at place
    subst place
    obtain ⟨below, apart⟩ := vacant_inside root t walled parts q.parts inside way vacant
    exact laid_walled root t u walled q.parts _ below apart laid

theorem write_confined (parts : List String) (body : Bytes) (now : Int) (inside : root <+: parts) (down : ".." ∉ parts)
    (written : t.write ⟨1, parts⟩ body now = .ok u) : u.Walled root ∧ Confined root t u := by
  obtain ⟨entries, folder⟩ := (Node.look_folder t.root root).mp walled.folder
  have grounded := grounded_above t.root _ root folder rfl
  have named := write_named t u ⟨1, parts⟩ body now grounded rfl written
  obtain ⟨spot, located, _, _, laid⟩ := file_written t u ⟨1, parts⟩ body now named written
  obtain ⟨s, place, found⟩ : ∃ s : Spot, s.place = spot ∧ t.locate true ⟨1, parts⟩ = .ok s := by
    rcases located with vacant | ⟨n, there⟩
    · exact ⟨.vacant spot, rfl, vacant⟩
    · exact ⟨.node spot n, rfl, there⟩
  obtain rfl := (located_named root t walled _ true s rfl down found).symm.trans place
  refine laid_walled root t u walled _ _ inside ?_ laid
  rintro rfl
  -- The folder itself is no place for a file.
  cases laid.free _ folder

end

theorem folders_open (t u : FileTree) (p : Path) (made : t.makeFolders p = .ok u) : ∃ at_, u.Opens p at_ := by
  have housed : ∀ v, Housed v u p → ∃ at_, u.Opens p at_ := by
    rintro v (one | ⟨rfl, folder⟩)
    · obtain ⟨spot, located, current, vacant, laid⟩ := folder_made v u p one
      have walked := Node.walk_free v.root _ _ _ spot ((locate_walk v false p _).mp located).2
      obtain ⟨entries, there⟩ := (Node.look_folder u.root spot).mp (Node.laid_there v.root u.root spot _ laid)
      have grows := Node.laid_grows v.root u.root spot _ laid (.inr vacant)
      refine ⟨spot, entries, ?_⟩
      rw [current]
      exact Node.walk_filled v.root u.root _ grows _ _ _ spot walked there rfl
    · exact (folder_opens u p folder).2
  rcases folders_cases t u p made with now | ⟨_, v, _, later⟩
  · exact housed t now
  · exact housed v later

end FileTree

namespace Hosting

-- The path of an asset leads to a place at or below the folder.
structure Accepted (root : List String) (assetPath : String) : Prop where
  clean : '\x00' ∉ assetPath.toList
  inside : root <+: normalForm root assetPath

-- The target of an asset.
structure Lands (root : List String) (a : Asset) (p : Path) : Prop where
  accepted : Accepted root a.path
  path : p = ⟨1, normalForm root a.path⟩

theorem destination_cases (root : List String) (a : Asset) :
    (∃ p, destination root a.path = .ok p ∧ Lands root a p) ∨
      ∃ f, destination root a.path = .error f ∧ ¬ Accepted root a.path ∧ f ≠ .interrupted := by
  rw [destination]
  by_cases null : '\x00' ∈ a.path.toList
  · rw [if_pos null]
    exact .inr ⟨_, rfl, fun accepted => accepted.clean null, by rintro ⟨⟩⟩
  · rw [if_neg null]
    by_cases inside : root <+: normalForm root a.path
    · rw [if_pos inside]
      exact .inl ⟨_, rfl, ⟨null, inside⟩, rfl⟩
    · rw [if_neg inside]
      exact .inr ⟨_, rfl, fun accepted => inside accepted.inside, by rintro ⟨⟩⟩

section

variable (root : List String) (proper : ∀ name ∈ root, Proper name) (clean : hasNull ⟨1, root⟩ = false)

include proper

theorem normal_down (assetPath : String) : ".." ∉ normalForm root assetPath := by
  have all : ∀ (names here : List String), ".." ∉ here → ".." ∉ names.foldl Path.go here := by
    intro names
    induction names with
    | nil => exact fun _ down => down
    | cons name rest ih => exact fun here down => ih _ (go_down here name down)
  exact all _ root fun up => (proper _ up).down rfl

include clean

theorem aimed_lands (a : Asset) (p : Path) (files : FileTree) (linkless : files.Linkless)
    (found : Retrieval.aimed files ⟨1, root⟩ a.path = .ok p) : Lands root a p := by
  rw [Retrieval.aimed, target_lands root proper clean a.path _ linkless] at found
  rcases destination_cases root a with ⟨q, landed, lands⟩ | ⟨f, failed, _⟩
  · rw [landed] at found
    cases found
    exact lands
  · rw [failed] at found
    cases found

namespace Retrieval

-- What is true of the files and of the targets at any time.
structure Fenced (files : FileTree) (b : Retrieval) : Prop where
  same : b.root = ⟨1, root⟩
  walled : b.files.Walled root
  confined : files.Confined root b.files
  aims : Tends (fun a leg => ∀ p, leg.target? = some p → Lands root a p) b
  saved : ∀ x ∈ b.saved, Lands root x.asset x.path

omit proper clean in
theorem start_fenced (n : Nat) (assets : List Asset) (files : FileTree) (walled : files.Walled root) :
    Fenced root files (start ⟨1, root⟩ files n assets) where
  same := rfl
  walled := walled
  confined := FileTree.confined_stay root files
  aims := start_tends _ ⟨1, root⟩ files n assets
  saved x member := by cases member

theorem advance_fenced (files : FileTree) (b c : Retrieval) (given : List (Asset × Bytes))
    (fenced : Fenced root files b) (advance : Advance b given c) : Fenced root files c := by
  have finds : ∀ i a p, b.job? i = some a → aimed b.files b.root a.path = .ok p → Lands root a p := by
    intro i a p _ found
    rw [fenced.same] at found
    exact aimed_lands root proper clean a p b.files fenced.walled.linkless found
  have aims := advance_aims (Lands root) b c advance finds fenced.aims
  have own := tends_own _ b fenced.aims
  cases advance with
  | put p pooled =>
      obtain ⟨_, _, _, _, rfl⟩ := Pool.pool_put_cases b.pool p pooled
      exact ⟨fenced.same, fenced.walled, fenced.confined, aims, fenced.saved⟩
  | housed i a p body built busy leg made =>
      have lands := own i a _ busy leg (by simp) p rfl
      rw [lands.path] at made
      obtain ⟨walled, confined⟩ := FileTree.folders_confined root b.files built fenced.walled _ lands.accepted.inside
        (normal_down root proper a.path) made
      exact ⟨fenced.same, walled, FileTree.confined_chain root files b.files built fenced.confined confined, aims,
        fenced.saved⟩
  | stored i a p body modified changed q busy leg written pooled =>
      have lands := own i a _ busy leg (by simp) p rfl
      rw [lands.path] at written
      obtain ⟨walled, confined⟩ := FileTree.write_confined root b.files changed fenced.walled _ body modified
        lands.accepted.inside (normal_down root proper a.path) written
      refine ⟨fenced.same, walled, FileTree.confined_chain root files b.files changed fenced.confined confined, aims, ?_⟩
      intro x member
      rcases List.mem_append.mp member with before | last
      · exact fenced.saved x before
      · rw [List.mem_singleton.mp last]
        exact lands
  | _ => exact ⟨fenced.same, fenced.walled, fenced.confined, aims, fenced.saved⟩

theorem run_fenced (n : Nat) (assets : List Asset) (files : FileTree) (walled : files.Walled root) (b : Retrieval)
    (run : Run (start ⟨1, root⟩ files n assets) b) : Fenced root files b := by
  induction run with
  | rest => exact start_fenced root n assets files walled
  | move c d m before lawful moved ih =>
      exact advance_fenced root proper clean files c d _ ih (step_advance c d m lawful moved)

omit proper clean in
theorem answer_accepted (files : FileTree) (b c : Retrieval) (fenced : Fenced root files b) (i : Nat)
    (outcome : Except Failure Bytes) (moved : b.step (.answer i outcome) = some c) :
    ∃ a, b.job? i = some a ∧ Accepted root a.path := by
  simp only [step, answer] at moved
  split at moved
  · rename_i a p busy leg
    exact ⟨a, busy, (tends_own _ b fenced.aims i a _ busy leg (by simp) p rfl).accepted⟩
  · cases moved

end Retrieval

-- An action that changes nothing outside, whatever it comes to.
def Fences (w v : World) : Prop := w.files.Walled root → v.files.Walled root ∧ w.files.Confined root v.files

omit proper clean in
theorem fences_same (w v : World) (files : v.files = w.files) : Fences root w v := by
  intro walled
  rw [files]
  exact ⟨walled, FileTree.confined_stay root w.files⟩

omit proper clean in
theorem fences_passage : Passage (Fences root) where
  stay w := fences_same root w w rfl
  chain u v w first second := by
    intro walled
    obtain ⟨between, before⟩ := first walled
    obtain ⟨last, after⟩ := second between
    exact ⟨last, FileTree.confined_chain root u.files v.files w.files before after⟩
  book w log marks := fences_same root w _ rfl

theorem asset_fenced (redirects : Bool) (a : Asset) : Within (Fences root) (exportAsset ⟨1, root⟩ redirects a) := by
  have passage := fences_passage root
  apply within_then passage _ _ (target_within passage ⟨1, root⟩ a.path)
  intro w p v found walled
  rw [Retrieval.target_aimed, Prod.mk.injEq] at found
  obtain ⟨aimed, rfl⟩ := found
  have lands := aimed_lands root proper clean a p w.files walled.linkless aimed
  have down := normal_down root proper a.path
  rw [lands.path]
  have fetched := within_download passage (fun w _ _ => fences_same root w _ rfl) (fun w _ => fences_same root w _ rfl)
    a.url redirects
  refine within_bind passage _ _ fetched (fun body => ?_) w walled
  have built : Within (Fences root) (makeFolders (Path.parent ⟨1, normalForm root a.path⟩)) :=
    within_changed passage _ _ fun w files made walled =>
      FileTree.folders_confined root w.files files walled _ lands.accepted.inside down made
  apply within_bind passage _ _ built
  intro _ u
  rw [store_performed]
  exact within_changed passage _ _ (fun w files written walled =>
    FileTree.write_confined root w.files files walled _ body _ lands.accepted.inside down written) u

theorem pull_fenced (app : String) (style : ExportStyle) (listing : List Asset) :
    Within (Fences root) (pullExport app style listing ⟨1, root⟩) := by
  have passage := fences_passage root
  have worked : ∀ i a, Within (Fences root) (exportWork ⟨1, root⟩ style.redirects style.talks i a) := fun i a =>
    saving_within passage (fun w _ => fences_same root w _ rfl) ⟨1, root⟩ _ _ i a (asset_fenced root proper clean _ a)
  apply within_bind passage _ _ (pool_within passage _ _ _ fun i a _ => worked i a)
  intro complaints
  split
  · exact within_throw passage _
  · exact within_bind passage _ _ (within_record passage _ _ _) fun _ => within_pure passage listing

omit proper clean in
-- The files folder that an export has opened is a folder, and it is the root of its downloads.
theorem open_walled (send : Sender) (group app : String) (folder : Path) (listing : List Asset) (w u : World)
    (opened : (openExport send group app folder).perform w = (.ok (listing, ⟨1, root⟩), u))
    (linkless : u.files.Linkless) : u.files.Walled root := by
  obtain ⟨⟨v, _, t, t', now, _, _, made⟩, real, _, _⟩ :=
    Retrieval.open_steps send group app folder listing ⟨1, root⟩ w u opened
  obtain ⟨at_, opens⟩ := FileTree.folders_open t' u.files _ made
  rw [FileTree.leads_real u.files _ at_ (FileTree.opens_leads u.files _ at_ opens)] at real
  cases real
  exact ⟨linkless, (Node.look_folder u.files.root root).mpr (FileTree.opens_there u.files _ root opens)⟩

-- An asset that leads out of the folder is settled without a request and without a change of files.
theorem refused_untouched (redirects talks : Bool) (i : Nat) (a : Asset) (w : World) (linkless : w.files.Linkless)
    (refused : ¬ Accepted root a.path) : ∃ f v, destination root a.path = .error f ∧
      (exportWork ⟨1, root⟩ redirects talks i a).perform w = (.ok (exportVerdict a (.error f)), v) ∧
      v.exchanges = w.exchanges ∧ v.files = w.files := by
  rcases destination_cases root a with ⟨p, _, lands⟩ | ⟨f, failed, _, other⟩
  · exact (refused lands.accepted).elim
  · have ended : (exportAsset ⟨1, root⟩ redirects a).perform w = (.error f, w) := by
      rw [exportAsset, perform_bind, target_lands root proper clean a.path w linkless, failed]
    refine ⟨f, ?_⟩
    rw [exportWork, perform_bind, perform_outcome, ended]
    dsimp only
    split
    · rename_i same
      cases same
      exact (other rfl).elim
    · cases complaint : (exportVerdict a (.error f)).complaint? with
      | none => exact ⟨w, failed, rfl, rfl, rfl⟩
      | some problem =>
          obtain ⟨v, reported, files, _⟩ := report_told talks problem w
          have silent := told_within silent_passage (fun _ _ => ⟨rfl, rfl⟩) talks problem w
          rw [reported] at silent
          refine ⟨v, failed, ?_, silent.1, files⟩
          simp only [Option.forM, perform_bind, reported, perform_pure]

end

-- For every folder, every asset path and every listing: a target is the normal form of the path, at or below the
-- folder. All that downloads change is at or below it too, for any number of workers and in any order of their
-- steps, and nobody asks for an asset that has no target. A null character is no part of any path: where it stands
-- the lookup fails for it, whether the path leads out or not.
theorem exports_confined (root : List String) (proper : ∀ name ∈ root, Proper name)
    (clean : hasNull ⟨1, root⟩ = false) :
    (∀ (assetPath : String) (w : World), w.files.Linkless →
      (target ⟨1, root⟩ assetPath).perform w = (destination root assetPath, w)) ∧
    (∀ n assets files b, files.Walled root → Retrieval.Run (.start ⟨1, root⟩ files n assets) b →
      files.Confined root b.files ∧ (∀ x ∈ b.saved, Lands root x.asset x.path) ∧
      ∀ i outcome c, b.step (.answer i outcome) = some c → ∃ a, b.job? i = some a ∧ Accepted root a.path) ∧
    (∀ send group app folder style listing w u, u.files.Linkless →
      (openExport send group app folder).perform w = (.ok (listing, ⟨1, root⟩), u) →
      u.files.Confined root ((exportAssets send group app folder style).perform w).2.files) ∧
    ∀ redirects talks i a (w : World), w.files.Linkless → ¬ Accepted root a.path → ∃ f v,
      destination root a.path = .error f ∧
      (exportWork ⟨1, root⟩ redirects talks i a).perform w = (.ok (exportVerdict a (.error f)), v) ∧
      v.exchanges = w.exchanges ∧ v.files = w.files := by
  refine ⟨target_lands root proper clean, ?_, ?_, refused_untouched root proper clean⟩
  · intro n assets files b walled run
    have fenced := Retrieval.run_fenced root proper clean n assets files walled b run
    exact ⟨fenced.confined, fenced.saved, fun i outcome c => Retrieval.answer_accepted root files b c fenced i outcome⟩
  · intro send group app folder style listing w u linkless opened
    rw [export_split, perform_bind, opened]
    exact (pull_fenced root proper clean app style listing u
      (open_walled root send group app folder listing w u opened linkless)).2

-- A path that leaves the folder and comes back, one to a sibling whose name starts in the same way, and one with a
-- null character; and a worker that has taken the second of them.
theorem exports_confined_sibling : ∃ (w : World) (root : List String) (b : Retrieval),
    (target ⟨1, root⟩ "/a/../../files//b").perform w = (.ok ⟨1, ["srv", "files", "b"]⟩, w) ∧
    (target ⟨1, root⟩ "/../files2/x").perform w = (.error (outside "/../files2/x"), w) ∧
    (target ⟨1, root⟩ "/../\x00").perform w = (.error .nullCharacter, w) ∧
    b.job? 0 = some ⟨"", "/../files2/x", "", 0, [], 0, "https://h/x"⟩ ∧ w.files.Confined root b.files ∧
    ∀ outcome, b.step (.answer 0 outcome) = none := by
  let root := ["srv", "files"]
  let t : FileTree := ⟨.folder [("srv", .folder [("files", .folder [])])], []⟩
  let w : World := World.start t fun _ _ => .error .interrupt
  let a : Asset := ⟨"", "/../files2/x", "", 0, [], 0, "https://h/x"⟩
  have proper : ∀ name ∈ root, Proper name := by
    intro name member
    simp only [root, List.mem_cons, List.not_mem_nil, or_false] at member
    rcases member with rfl | rfl <;> exact ⟨by decide, by decide, by decide, by decide⟩
  have linkless : t.Linkless := FileTree.linkless_none t rfl
  obtain ⟨lands, runs, _, _⟩ := exports_confined root proper (by decide)
  have run : Retrieval.Run (Retrieval.start ⟨1, root⟩ t 1 [a]) _ :=
    .move _ _ (.take 0) (.move _ _ .put .rest trivial rfl) trivial rfl
  have walled : t.Walled root := ⟨linkless, rfl⟩
  obtain ⟨confined, _, asked⟩ := runs 1 [a] t _ walled run
  have away : ¬ root <+: normalForm root "/../files2/x" := by decide
  refine ⟨w, root, _, ?_, ?_, ?_, rfl, confined, ?_⟩
  · rw [lands _ w linkless]
    rfl
  · rw [lands _ w linkless]
    rfl
  · rw [lands _ w linkless]
    rfl
  · intro outcome
    refine Option.eq_none_iff_forall_ne_some.mpr fun c moved => ?_
    obtain ⟨other, busy, accepted⟩ := asked 0 outcome c moved
    obtain rfl := Option.some.inj busy
    exact away accepted.inside

end Hosting

end HostingAdmin
