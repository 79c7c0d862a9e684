import HostingAdmin.Proofs.CacheEntries

set_option autoImplicit false

namespace HostingAdmin.Listing

open HostingAdmin.Action

-- What a path is read as, with the size and the second of the change.
def Stamped (t : FileTree) (p : Path) (size : Nat) (seconds : Int) (body : Bytes) : Prop :=
  ∃ modified, t.stat p = .ok (size, modified) ∧ wholeSeconds modified = seconds ∧ t.read p = .ok body

-- No file ever has two contents of the same size in the same second.
def Steady (root : Path) (trees : List FileTree) : Prop :=
  ∀ t ∈ trees, ∀ u ∈ trees, ∀ names size seconds old new, names ∈ t.filesBelow root → names ∈ u.filesBelow root →
    Stamped t (root.join ⟨0, names⟩) size seconds old → Stamped u (root.join ⟨0, names⟩) size seconds new → old = new

-- A cache that was shared by listings of one folder, and the trees that they found, the
-- latest first. Anything can happen to the files between two listings.
inductive Shared (app : String) (root : Path) : List FileTree → Cache → Prop where
  | new : Shared app root [] .empty
  | listed (past : List FileTree) (c after : Cache) (ds : Members Description) (w v : World)
      (result : Except Failure (List Asset)) (earlier : Shared app root past c)
      (performed : (run app root ds c).perform w = (.ok (result, after), v)) :
      Shared app root (w.files :: past) after

-- Each entry has the hash of what its file contained when it was made.
def Remembers (app : String) (root : Path) (trees : List FileTree) (c : Cache) : Prop :=
  ∀ names e, Named names → c.get? app (assetPath names) = some e →
    ∃ t ∈ trees, names ∈ t.filesBelow root ∧ ∃ size body,
      Stamped t (root.join ⟨0, names⟩) size e.lastModified body ∧ e.size = size ∧ e.hash = Md5.hexDigest body

def Reported (t : FileTree) (root : Path) (names : List String) (a : Asset) : Prop :=
  a.path = assetPath names ∧ ∃ body, t.read (root.join ⟨0, names⟩) = .ok body ∧ a.size = body.length ∧
    a.hash = Md5.hexDigest body

theorem site_stamped (body : Bytes) (modified : Int) (others : List (String × Node)) (size : Nat)
    (seconds : Int) (content : Bytes)
    (stamped : Stamped (site body modified others) ⟨1, ["f", "a"]⟩ size seconds content) :
    content = body ∧ seconds = wholeSeconds modified := by
  obtain ⟨changed, stat, rfl, read⟩ := stamped
  rw [site_stat] at stat
  cases stat
  rw [FileTree.spot_read _ _ _ body modified (site_file body modified others)] at read
  cases read
  exact ⟨rfl, rfl⟩

section

variable (app : String) (root : Path)

theorem stamped_read (t : FileTree) (p : Path) (size : Nat) (seconds : Int) (body : Bytes)
    (stamped : Stamped t p size seconds body) : t.read p = .ok body := by
  obtain ⟨_, _, _, content⟩ := stamped
  exact content

theorem found_stamped (t : FileTree) (spelled : t.root.Spelled) (names : List String)
    (listed : names ∈ t.filesBelow root) (size : Nat) (modified : Int)
    (stat : t.stat (root.join ⟨0, names⟩) = .ok (size, modified)) :
    ∃ body, Stamped t (root.join ⟨0, names⟩) size (wholeSeconds modified) body ∧ size = body.length := by
  obtain ⟨at_, body, located, length⟩ := t.found_file root spelled names listed size modified stat
  exact ⟨body, ⟨modified, stat, rfl, t.spot_read _ at_ body modified located⟩, length⟩

theorem describe_remembers (trees : List FileTree) (t : FileTree) (now : Int) (ds : Members Description)
    (among : t ∈ trees) (spelled : t.root.Spelled) (names : List String) (listed : names ∈ t.filesBelow root)
    (a : Asset) (before after : Cache) (described : describeNamed t now app root ds names before = .ok (a, after))
    (remembers : Remembers app root trees before) : Remembers app root trees after := by
  obtain ⟨size, modified, hash, stat, hashed, rfl⟩ := describe_parts t now app _ _ _ before after a described
  cases hashed with
  | known e found holds => exact remembers
  | learnt hash read =>
      intro others e named entry
      rw [Cache.get_set] at entry
      split at entry
      · rename_i same
        cases entry
        obtain rfl := names_same others names named (t.below_named root spelled names listed) same.2
        obtain ⟨body, stamped, _⟩ := found_stamped root t spelled others listed size modified stat
        rw [hashFile, stamped_read t _ size _ body stamped] at read
        cases read
        exact ⟨t, among, listed, size, body, stamped, rfl, rfl⟩
      · exact remembers others e named entry

theorem shared_remembers (past : List FileTree) (c : Cache) (shared : Shared app root past c)
    (spelled : ∀ t ∈ past, t.root.Spelled) : Remembers app root past c := by
  induction shared with
  | new =>
      intro names e named entry
      cases entry
  | listed past c after ds w v result earlier performed ih =>
      have older : Remembers app root (w.files :: past) c := by
        intro names e named entry
        obtain ⟨t, member, stamped⟩ := ih (fun t member => spelled t (List.mem_cons_of_mem _ member)) names e named entry
        exact ⟨t, List.mem_cons_of_mem _ member, stamped⟩
      rcases run_lists root w app ds c after v result performed with ⟨f, _, rfl⟩ | ⟨_, lists⟩
      · exact older
      · obtain rfl : (ofFolder w.files (truncated w.clock) app root ds c).2 = after := by rw [lists]
        exact all_keep w.files (truncated w.clock) app root ds (Remembers app root (w.files :: past)) _ c
          (fun names listed a before after described holds => describe_remembers app root _ w.files _ ds
            List.mem_cons_self (spelled _ List.mem_cons_self) names listed a before after described holds) older

theorem backed_reported (trees : List FileTree) (t : FileTree) (now : Int) (ds : Members Description) (c : Cache)
    (among : t ∈ trees) (spelled : t.root.Spelled) (steady : Steady root trees)
    (remembers : Remembers app root trees c) (names : List String) (listed : names ∈ t.filesBelow root) (a : Asset)
    (backed : Backed t now app root ds c names a) : Reported t root names a := by
  obtain ⟨e, size, modified, backing⟩ := backed
  obtain ⟨body, stamped, length⟩ := found_stamped root t spelled names listed size modified backing.stat
  obtain ⟨u, before, also, size', old, earlier, sized, digest⟩ :=
    remembers names e (t.below_named root spelled names listed) backing.entry
  have holds := backing.holds
  simp only [CacheEntry.holds, Bool.and_eq_true, decide_eq_true_eq] at holds
  obtain rfl : size' = size := by omega
  rw [holds.2] at earlier
  obtain rfl := steady u before t among names size' _ old body also listed earlier stamped
  rw [backing.asset]
  exact ⟨rfl, old, stamped_read t _ _ _ old stamped, by rw [length], digest⟩

-- With a shared cache a listing reports each file as it is, whatever was edited before;
-- and it does so whenever all files can be read and all metadata has its file.
theorem shared_current (past : List FileTree) (c : Cache) (ds : Members Description) (w : World)
    (shared : Shared app root past c) (spelled : ∀ t ∈ w.files :: past, t.root.Spelled)
    (steady : Steady root (w.files :: past)) :
    (∀ here after v, (run app root ds c).perform w = (.ok (.ok here, after), v) →
      List.Forall₂ (Reported w.files root) (w.files.filesBelow root) here) ∧
    (hasNull root = false → w.files.isFolder root = true →
      (∀ names ∈ w.files.filesBelow root, Readable w.files (root.join ⟨0, names⟩)) →
      (∀ d ∈ ds, ∃ names ∈ w.files.filesBelow root, d.1 = assetPath names) →
      ∃ here after v, (run app root ds c).perform w = (.ok (.ok here, after), v)) := by
  refine ⟨?_, ?_⟩
  · intro here after v performed
    have remembers := shared_remembers app root _ after (.listed past c after ds w v _ shared performed) spelled
    rcases run_lists root w app ds c after v _ performed with ⟨f, failed, _⟩ | ⟨_, lists⟩
    · cases failed
    · have own := spelled _ List.mem_cons_self
      obtain ⟨described, _⟩ := (folder_listed w.files _ app root ds c after here).mp lists
      have backed := all_backed w.files _ app root ds _ (w.files.below_named root own) c after here described
      refine List.forall₂_iff_zip.mpr ⟨backed.length_eq, fun paired => ?_⟩
      exact backed_reported app root _ w.files _ ds after List.mem_cons_self own steady remembers _
        (List.of_mem_zip paired).1 _ ((List.forall₂_iff_zip.mp backed).2 paired)
  · intro clean folder readable accepted
    obtain ⟨here, after, lists⟩ := readable_listed w.files (truncated w.clock) app root ds c readable accepted
    obtain ⟨v, performed, _⟩ := run_folder root w app ds c clean folder
    rw [lists] at performed
    exact ⟨here, after, v, performed⟩

end

-- A file is edited two seconds after it was listed, to other contents of the same size.
theorem shared_current_edited : ∃ c here after v,
    Shared "app" ⟨1, ["f"]⟩ [site [0x78] 5000000000 []] c ∧
      (run "app" ⟨1, ["f"]⟩ [] c).perform (World.start (site [0x79] 7000000000 []) fun _ _ => .error .interrupt) =
        (.ok (.ok here, after), v) ∧
      List.Forall₂ (Reported (site [0x79] 7000000000 []) ⟨1, ["f"]⟩)
        ((site [0x79] 7000000000 []).filesBelow ⟨1, ["f"]⟩) here := by
  let earlier : World := World.start (site [0x78] 5000000000 []) fun _ _ => .error .interrupt
  let later : World := World.start (site [0x79] 7000000000 []) fun _ _ => .error .interrupt
  let seen : List (Bytes × Int) := [([0x79], 7), ([0x78], 5)]
  obtain ⟨u, performed, _⟩ := run_folder ⟨1, ["f"]⟩ earlier "app" [] .empty (by decide) (site_opens _ _ _)
  have shared := Shared.listed [] .empty _ [] earlier u _ .new performed
  have spelled : ∀ t ∈ later.files :: [earlier.files], t.root.Spelled := by
    intro t member
    simp only [List.mem_cons, List.not_mem_nil, or_false] at member
    rcases member with rfl | rfl
    · exact site_spelled _ _
    · exact site_spelled _ _
  have steady : Steady ⟨1, ["f"]⟩ (later.files :: [earlier.files]) := by
    intro t first u second names size seconds old new listed _ before after
    have apart : ∀ x ∈ seen, ∀ y ∈ seen, x.2 = y.2 → x.1 = y.1 := by decide
    have shape : ∀ x ∈ later.files :: [earlier.files], ∃ body modified, x = site body modified [] ∧
        (body, wholeSeconds modified) ∈ seen := by
      intro x member
      simp only [List.mem_cons, List.not_mem_nil, or_false] at member
      rcases member with rfl | rfl
      · exact ⟨_, _, rfl, by decide⟩
      · exact ⟨_, _, rfl, by decide⟩
    obtain ⟨body, modified, rfl, known⟩ := shape t first
    obtain ⟨other, changed, rfl, also⟩ := shape u second
    rw [site_below, List.mem_singleton] at listed
    subst listed
    obtain ⟨rfl, rfl⟩ := site_stamped body modified [] size seconds old before
    obtain ⟨rfl, same⟩ := site_stamped other changed [] size _ new after
    exact apart _ known _ also same
  have current := shared_current "app" ⟨1, ["f"]⟩ [earlier.files] _ [] later shared spelled steady
  obtain ⟨here, after, v, lists⟩ := current.2 (by decide) (site_opens _ _ _) (site_readable _ _ _) (by simp)
  exact ⟨_, here, after, v, shared, lists, current.1 here after v lists⟩

end HostingAdmin.Listing
