import HostingAdmin.Proofs.FilePlaces
import HostingAdmin.Proofs.RetrievalFiles

set_option autoImplicit false

namespace HostingAdmin

namespace FileTree

theorem real_linked (t u : FileTree) (linked : t.Linked u) (p : Path) :
    u.root.real u.root.linkCount [] (if p.isAbsolute then [] else u.current) p.parts =
      t.root.real t.root.linkCount [] (if p.isAbsolute then [] else t.current) p.parts := by
  rw [linked.current, linked.count, Node.real_same t.root u.root linked.links]

-- What the real path of a path is depends on the links only; whether there is one may
-- depend on more.
theorem real_unique (t u v : FileTree) (first : t.Linked u) (second : t.Linked v) (p q r : Path)
    (found : u.real p = .ok q) (again : v.real p = .ok r) : q = r := by
  rw [real, real_linked t u first p] at found
  rw [real, real_linked t v second p] at again
  cases replaced : t.root.real t.root.linkCount [] (if p.isAbsolute then [] else t.current) p.parts with
  | ok parts =>
      rw [replaced] at found again
      cases found
      cases again
      rfl
  | error parts =>
      rw [replaced] at found again
      dsimp only at found again
      split at found
      · cases found
      · cases found
        split at again
        · cases again
        · cases again
          rfl

theorem real_absolute (t : FileTree) (p q : Path) (found : t.real p = .ok q) : q.isAbsolute = true := by
  rw [real] at found
  split at found
  · cases found
    rfl
  · dsimp only at found
    split at found
    · cases found
    · cases found
      rfl

end FileTree

namespace Hosting

namespace Retrieval

-- The target of an asset, as it is found in some tree with the links of these files.
def Sought (files : FileTree) (root : Path) (a : Asset) (p : Path) : Prop :=
  ∃ t, files.Linked t ∧ aimed t root a.path = .ok p

theorem sought_real (files : FileTree) (root : Path) (a : Asset) (p : Path) (sought : Sought files root a p) :
    ∃ t, files.Linked t ∧ t.real (root.join (relative a.path)) = .ok p := by
  obtain ⟨t, linked, found⟩ := sought
  rcases aimed_cases t root a.path with ⟨q, found', real, _⟩ | ⟨f, failed, _⟩
  · rw [found] at found'
    cases found'
    exact ⟨t, linked, real⟩
  · rw [found] at failed
    cases failed

theorem sought_unique (files : FileTree) (root : Path) (a : Asset) (p q : Path) (first : Sought files root a p)
    (second : Sought files root a q) : p = q := by
  obtain ⟨t, linked, real⟩ := sought_real files root a p first
  obtain ⟨u, linked', real'⟩ := sought_real files root a q second
  exact FileTree.real_unique files t u linked linked' _ p q real real'

theorem aimed_same (t u : FileTree) (root : Path) (assetPath : String)
    (same : t.real (root.join (relative assetPath)) = u.real (root.join (relative assetPath))) :
    aimed t root assetPath = aimed u root assetPath := by
  simp only [aimed, target, Action.perform_bind, real_guarded, World.start, same]
  by_cases null : Action.hasNull (root.join (relative assetPath)) = true
  · rw [if_pos null]
  · rw [if_neg null]
    cases u.real (root.join (relative assetPath)) with
    | error loop => rfl
    | ok p => by_cases within : p.isWithin root = true <;> simp [within]

-- No two assets have targets at one place.
def Distinct (files : FileTree) (root : Path) (assets : List Asset) : Prop :=
  assets.Pairwise fun a b => ∀ p q, Sought files root a p → Sought files root b q → files.Apart p q

-- No two assets have one path as their target, and no link on the way to a target leads
-- back to itself.
structure Parted (files : FileTree) (root : Path) (assets : List Asset) : Prop where
  placed : ∀ a ∈ assets, ∃ parts, Placed files root a parts
  apart : assets.Pairwise fun a b => ∀ p q, aimed files root a.path = .ok p → aimed files root b.path = .ok q → p ≠ q

theorem parted_distinct (files : FileTree) (root : Path) (assets : List Asset) (parted : Parted files root assets) :
    Distinct files root assets := by
  have named : ∀ a ∈ assets, ∀ p, Sought files root a p → aimed files root a.path = .ok p ∧
      ∀ spot, files.Leads p spot → p = ⟨1, spot⟩ := by
    intro a member p sought
    obtain ⟨parts, place⟩ := parted.placed a member
    have real := FileTree.leads_real files _ parts place
    obtain ⟨t, linked, found⟩ := sought
    have same := FileTree.leads_real t _ parts ((FileTree.leads_linked files t linked _ parts).mpr place)
    have looked := aimed_same files t root a.path (real.trans same.symm)
    rw [found] at looked
    rcases aimed_cases files root a.path with ⟨q, looked', real', within⟩ | ⟨f, failed, _⟩
    · rw [looked] at looked'
      cases looked'
      rw [real] at real'
      cases real'
      refine ⟨looked, fun spot leads => ?_⟩
      have absolute : root.isAbsolute = true := by
        simp only [Path.isWithin, Bool.and_eq_true, decide_eq_true_eq] at within
        simp [Path.isAbsolute, ← within.1]
      have plain := FileTree.leads_plain files _ parts (by rw [below_absolute, absolute]) place
      have straight := Node.real_straight files.root files.root.linkCount [] [] parts plain
      have top : (⟨1, parts⟩ : Path).isAbsolute = true := rfl
      rw [FileTree.Leads, if_pos top, straight] at leads
      cases leads
      rfl
    · rw [looked] at failed
      cases failed
  have both : assets.Pairwise fun a b => (a ∈ assets ∧ b ∈ assets) ∧ ∀ p q, aimed files root a.path = .ok p →
      aimed files root b.path = .ok q → p ≠ q :=
    parted.apart.imp_of_mem fun {a b} first second other => ⟨⟨first, second⟩, other⟩
  refine both.imp ?_
  intro a b pair p q first second spot leads leads'
  obtain ⟨⟨memberA, memberB⟩, other⟩ := pair
  obtain ⟨found, at_⟩ := named a memberA p first
  obtain ⟨found', at_'⟩ := named b memberB q second
  exact other p q found found' ((at_ spot leads).trans (at_' spot leads').symm)

end Retrieval

def Leg.body? : Leg → Option Bytes
  | .fetched _ body | .housed _ body => some body
  | _ => none

namespace Retrieval

-- How far a worker is with its asset: it has the target, and maybe contents that came.
def Carries (files : FileTree) (root : Path) (given : List (Asset × Bytes)) (a : Asset) (leg : Leg) : Prop :=
  (∀ p, leg.target? = some p → Sought files root a p) ∧ ∀ body, leg.body? = some body → (a, body) ∈ given

-- What is true of the files at any time: each copy that was saved can still be read.
structure Shelf (files : FileTree) (root : Path) (given : List (Asset × Bytes)) (b : Retrieval) : Prop where
  same : b.root = root
  linked : files.Linked b.files
  grounded : b.files.root.isFolder = true
  carries : Tends (Carries files root given) b
  copies : ∀ x ∈ b.saved, Sought files root x.asset x.path ∧ (x.asset, x.body) ∈ given ∧
    b.files.read x.path = .ok x.body

theorem laid_grounded (t u : FileTree) (spot : List String) (x : Node) (grounded : t.root.isFolder = true)
    (laid : t.root.Laid u.root spot x) : u.root.isFolder = true := by
  have below : [] ≠ spot := by
    intro top
    have file := laid.free t.root (by rw [← top]; rfl)
    cases rootEq : t.root with
    | folder entries => simp [rootEq, Node.kind] at file
    | _ => simp [rootEq, Node.isFolder] at grounded
  rw [grounded_look, Node.laid_other t.root u.root spot x laid [] below]
  exact (grounded_look t).mp grounded

theorem start_shelf (root : Path) (files : FileTree) (n : Nat) (assets : List Asset)
    (grounded : files.root.isFolder = true) : Shelf files root [] (start root files n assets) where
  same := rfl
  linked := FileTree.linked_stay files
  grounded := grounded
  carries := start_tends _ root files n assets
  copies x member := by cases member

theorem carries_more (files : FileTree) (root : Path) (given more : List (Asset × Bytes)) (b : Retrieval)
    (carries : Tends (Carries files root given) b) : Tends (Carries files root (more ++ given)) b := by
  intro i leg reached
  by_cases idle : leg = .fresh
  · exact .inl idle
  · obtain ⟨a, busy, sought, came⟩ := (carries i leg reached).resolve_left idle
    exact .inr ⟨a, busy, sought, fun body has => List.mem_append_right more (came body has)⟩

-- What is written takes the place of no file that is there: its target is a place of its own.
theorem store_shelf (n : Nat) (assets : List Asset) (files : FileTree) (root : Path) (given : List (Asset × Bytes))
    (b : Retrieval) (distinct : Distinct files root assets) (account : Account n assets b)
    (shelf : Shelf files root given b) (i : Nat) (a : Asset) (p : Path) (body : Bytes) (modified : Int)
    (changed : FileTree) (q : Pool.State Asset) (busy : b.job? i = some a) (leg : b.legs[i]? = some (.housed p body))
    (written : b.files.write p body modified = .ok changed) (pooled : b.pool.finish i .done = some q) :
    Shelf files root given
      { b with files := changed, pool := q, legs := b.legs.set i .fresh, saved := b.saved ++ [⟨a, p, body⟩] } := by
  have moving := tends_own _ b shelf.carries i a _ busy leg (by simp)
  have sought := moving.1 p rfl
  obtain ⟨t, _, real⟩ := sought_real files root a p sought
  have named := FileTree.write_named b.files changed p body modified shelf.grounded
    (FileTree.real_absolute t _ p real) written
  obtain ⟨spot, _, current, laid⟩ := FileTree.write_leads b.files changed p body modified named written
  have linked := FileTree.laid_linked b.files changed spot _ current laid
  refine ⟨shelf.same, FileTree.linked_chain files b.files changed shelf.linked linked, ?_, ?_, ?_⟩
  · exact laid_grounded b.files changed spot _ shelf.grounded laid
  · exact finished_tends _ b _ i .done pooled rfl shelf.carries
  · intro x member
    rcases List.mem_append.mp member with before | last
    · obtain ⟨sought', came, held⟩ := shelf.copies x before
      have apart := busy_apart n assets _ b account (fun x y apart p q first second spot leads leads' =>
        apart q p second first spot leads' leads) distinct i a busy x before x.path p sought' sought
      refine ⟨sought', came, ?_⟩
      exact FileTree.apart_read b.files changed x.path p x.body body modified named
        (FileTree.apart_linked files b.files shelf.linked x.path p apart) held written
    · rw [List.mem_singleton.mp last]
      exact ⟨sought, moving.2 body rfl, FileTree.written_read b.files changed p body modified named written⟩

theorem advance_shelf (n : Nat) (assets : List Asset) (files : FileTree) (root : Path)
    (given came : List (Asset × Bytes)) (b c : Retrieval) (distinct : Distinct files root assets)
    (account : Account n assets b) (shelf : Shelf files root given b) (advance : Advance b came c) :
    Shelf files root (came ++ given) c := by
  cases advance with
  | put p pooled =>
      obtain ⟨_, _, _, _, rfl⟩ := Pool.pool_put_cases b.pool p pooled
      exact ⟨shelf.same, shelf.linked, shelf.grounded, shelf.carries, shelf.copies⟩
  | take i p pooled =>
      exact ⟨shelf.same, shelf.linked, shelf.grounded, taken_tends _ b p i pooled shelf.carries, shelf.copies⟩
  | aimed i a p busy leg real within found =>
      have holds : Carries files root given a (.aimed p) := by
        refine ⟨fun q same => ?_, fun body has => by cases has⟩
        cases same
        exact ⟨b.files, shelf.linked, by rw [← shelf.same]; exact found⟩
      exact ⟨shelf.same, shelf.linked, shelf.grounded, reach_tends _ b i a _ busy holds shelf.carries, shelf.copies⟩
  | fetched i a p body busy leg =>
      have moving := tends_own _ b shelf.carries i a _ busy leg (by simp)
      have holds : Carries files root ([(a, body)] ++ given) a (.fetched p body) := by
        refine ⟨moving.1, fun other has => ?_⟩
        cases has
        exact List.mem_cons_self
      refine ⟨shelf.same, shelf.linked, shelf.grounded, ?_, ?_⟩
      · exact reach_tends _ b i a _ busy holds (carries_more files root given _ b shelf.carries)
      · intro x member
        obtain ⟨sought, came, held⟩ := shelf.copies x member
        exact ⟨sought, List.mem_append_right _ came, held⟩
  | housed i a p body built busy leg made =>
      have moving := tends_own _ b shelf.carries i a _ busy leg (by simp)
      have grown := FileTree.folders_built b.files built p.parent made
      refine ⟨shelf.same, ?_, ?_, ?_, ?_⟩
      · exact FileTree.linked_chain files b.files built shelf.linked (FileTree.built_linked _ _ grown)
      · exact (grounded_look built).mpr (grown.kept _ _ ((grounded_look b.files).mp shelf.grounded))
      · exact reach_tends _ { b with files := built } i a _ busy moving shelf.carries
      · intro x member
        obtain ⟨sought, came, held⟩ := shelf.copies x member
        exact ⟨sought, came, FileTree.built_read b.files built x.path x.body grown held⟩
  | stored i a p body modified changed q busy leg written pooled =>
      exact store_shelf n assets files root given b distinct account shelf i a p body modified changed q busy leg
        written pooled
  | failed i a f leg q busy reached trouble pooled =>
      exact ⟨shelf.same, shelf.linked, shelf.grounded, finished_tends _ b _ i _ pooled rfl shelf.carries, shelf.copies⟩

theorem delivered_shelf (n : Nat) (assets : List Asset) (files : FileTree) (root : Path)
    (grounded : files.root.isFolder = true) (distinct : Distinct files root assets) (given : List (Asset × Bytes))
    (b : Retrieval) (delivered : Delivered (start root files n assets) given b) : Shelf files root given b := by
  induction delivered with
  | rest => exact start_shelf root files n assets grounded
  | move given c d m before lawful moved ih =>
      have account := run_accounted root files n assets c (delivered_run _ c given before)
      exact advance_shelf n assets files root given _ c d distinct account ih (step_advance c d m lawful moved)

-- Every asset is where it belongs, with contents that came for it.
def Complete (files : FileTree) (root : Path) (given : List (Asset × Bytes)) (assets : List Asset)
    (after : FileTree) : Prop :=
  ∀ a ∈ assets, ∃ body, (a, body) ∈ given ∧ (∃ p, Sought files root a p) ∧
    ∀ p, Sought files root a p → after.read p = .ok body

theorem success_unreported (b : Retrieval) (listing assets : List Asset) (done : b.outcome listing = .ok assets) :
    b.reported = [] := by
  rw [outcome] at done
  cases told : b.reported with
  | nil => rfl
  | cons first rest =>
      rw [told] at done
      cases done

theorem saved_complete (files : FileTree) (root : Path) (given : List (Asset × Bytes)) (b : Retrieval)
    (shelf : Shelf files root given b) : Complete files root given (b.saved.map Copy.asset) b.files := by
  intro a member
  obtain ⟨x, stored, rfl⟩ := List.mem_map.mp member
  obtain ⟨sought, came, held⟩ := shelf.copies x stored
  refine ⟨x.body, came, ⟨x.path, sought⟩, fun p other => ?_⟩
  rw [sought_unique files root x.asset p x.path other sought]
  exact held

theorem over_saved (n : Nat) (positive : 1 ≤ n) (assets : List Asset) (b : Retrieval) (account : Account n assets b)
    (steady : b.pool.crash? = none) (allOver : b.pool.isOver = true) (silent : b.reported = []) :
    (b.saved.map Copy.asset).Perm assets := by
  obtain ⟨_, _, divided⟩ := over_accounted n assets b positive account steady allOver
  have blameless := reported_failures n assets b account
  rw [silent, List.map_nil, eq_comm, List.map_eq_nil_iff] at blameless
  rwa [blameless, List.nil_append] at divided

theorem over_complete (n : Nat) (positive : 1 ≤ n) (assets : List Asset) (files : FileTree) (root : Path)
    (given : List (Asset × Bytes)) (b : Retrieval) (account : Account n assets b) (shelf : Shelf files root given b)
    (steady : b.pool.crash? = none) (allOver : b.pool.isOver = true) (silent : b.reported = []) :
    Complete files root given assets b.files := by
  have saved := over_saved n positive assets b account steady allOver silent
  exact fun a member => saved_complete files root given b shelf a (saved.mem_iff.mpr member)

end Retrieval

end Hosting

end HostingAdmin
