import HostingAdmin.Proofs.RealPaths
import HostingAdmin.Proofs.RetrievalRuns

set_option autoImplicit false

namespace HostingAdmin.Hosting

-- The place of an asset below a folder, once all links on the way are replaced.
def Placed (files : FileTree) (root : Path) (a : Asset) (parts : List String) : Prop :=
  files.Leads (root.join (relative a.path)) parts

-- Every asset has a place, and no two assets have the same one.
structure Scattered (files : FileTree) (root : Path) (assets : List Asset) : Prop where
  placed : ∀ a ∈ assets, ∃ parts, Placed files root a parts
  apart : assets.Pairwise fun a b => ∀ p q, Placed files root a p → Placed files root b q → p ≠ q

def Leg.target? : Leg → Option Path
  | .fresh => none
  | .aimed p | .fetched p _ | .housed p _ => some p

namespace Retrieval

-- `Q` holds of every asset at work and of how far its worker is with it.
def Tends (Q : Asset → Leg → Prop) (b : Retrieval) : Prop :=
  ∀ i leg, b.legs[i]? = some leg → leg = .fresh ∨ ∃ a, b.job? i = some a ∧ Q a leg

-- What a worker is aiming at is the place of its asset.
def Aims (files : FileTree) (root : Path) (a : Asset) (p : Path) : Prop :=
  ∃ parts, p = ⟨1, parts⟩ ∧ Placed files root a parts ∧ files.root.Plain parts

-- What is true of the files while the downloads go on. The links are those of the
-- beginning, so every asset keeps its place.
structure Stock (files : FileTree) (root : Path) (b : Retrieval) : Prop where
  same : b.root = root
  linked : files.Linked b.files
  grounded : b.files.root.isFolder = true
  aims : Tends (fun a leg => ∀ p, leg.target? = some p → Aims files root a p) b
  copies : ∀ x ∈ b.saved, ∃ parts, x.path = ⟨1, parts⟩ ∧ Placed files root x.asset parts ∧ b.files.Held x.path x.body

theorem taken_job (b : Retrieval) (p : Pool.State Asset) (i j : Nat) (a : Asset) (pooled : b.pool.take i = some p)
    (busy : b.job? j = some a) : ({ b with pool := p } : Retrieval).job? j = some a := by
  obtain ⟨idle, rest, moved⟩ := Pool.pool_take_cases b.pool p i pooled
  have other : i ≠ j := by
    rintro rfl
    rw [job?, idle] at busy
    cases busy
  rcases moved with ⟨_, rfl⟩ | ⟨job, _, rfl⟩
  · rwa [job?, List.getElem?_set_ne other]
  · rwa [job?, List.getElem?_set_ne other]

section

variable (Q : Asset → Leg → Prop) (b : Retrieval)

theorem start_tends (root : Path) (files : FileTree) (n : Nat) (assets : List Asset) :
    Tends Q (start root files n assets) := by
  intro i leg reached
  exact .inl (List.eq_of_mem_replicate (List.mem_of_getElem? reached))

theorem tends_own (tends : Tends Q b) (i : Nat) (a : Asset) (leg : Leg) (busy : b.job? i = some a)
    (reached : b.legs[i]? = some leg) (moving : leg ≠ .fresh) : Q a leg := by
  obtain ⟨a', busy', holds⟩ := (tends i leg reached).resolve_left moving
  rw [busy] at busy'
  cases busy'
  exact holds

theorem taken_tends (p : Pool.State Asset) (i : Nat) (pooled : b.pool.take i = some p) (tends : Tends Q b) :
    Tends Q { b with pool := p } := by
  intro j leg reached
  by_cases idle : leg = .fresh
  · exact .inl idle
  · obtain ⟨a, busy, holds⟩ := (tends j leg reached).resolve_left idle
    exact .inr ⟨a, taken_job b p i j a pooled busy, holds⟩

theorem reach_tends (i : Nat) (a : Asset) (leg : Leg) (busy : b.job? i = some a) (holds : Q a leg)
    (tends : Tends Q b) : Tends Q (b.reach i leg) := by
  intro j other reached
  by_cases own : i = j
  · subst own
    rw [reach, List.getElem?_set] at reached
    obtain ⟨_, rfl⟩ : _ ∧ leg = other := by simpa using reached
    exact .inr ⟨a, busy, holds⟩
  · rw [reach, List.getElem?_set_ne own] at reached
    exact tends j other reached

theorem finished_tends (c : Retrieval) (i : Nat) (v : Pool.Verdict) (pooled : b.pool.finish i v = some c.pool)
    (legs : c.legs = b.legs.set i .fresh) (tends : Tends Q b) : Tends Q c := by
  intro j leg reached
  rw [legs] at reached
  by_cases own : i = j
  · subst own
    rw [List.getElem?_set] at reached
    obtain ⟨_, rfl⟩ : _ ∧ Leg.fresh = leg := by simpa using reached
    exact .inl rfl
  · rw [List.getElem?_set_ne own] at reached
    by_cases idle : leg = .fresh
    · exact .inl idle
    · obtain ⟨a, busy, holds⟩ := (tends j leg reached).resolve_left idle
      obtain ⟨job, _, pool⟩ := Pool.pool_finish_cases b.pool c.pool i v pooled
      refine .inr ⟨a, ?_, holds⟩
      rwa [job?, pool, List.getElem?_set_ne own]

end

theorem advance_aims (Q : Asset → Path → Prop) (b c : Retrieval) {given : List (Asset × Bytes)}
    (advance : Advance b given c)
    (finds : ∀ i a p, b.job? i = some a → aimed b.files b.root a.path = .ok p → Q a p)
    (aims : Tends (fun a leg => ∀ p, leg.target? = some p → Q a p) b) :
    Tends (fun a leg => ∀ p, leg.target? = some p → Q a p) c := by
  cases advance with
  | put p pooled =>
      obtain ⟨_, _, _, _, rfl⟩ := Pool.pool_put_cases b.pool p pooled
      exact aims
  | take i p pooled => exact taken_tends _ b p i pooled aims
  | aimed i a p busy leg real within found =>
      refine reach_tends _ b i a _ busy ?_ aims
      intro q same
      cases same
      exact finds i a p busy found
  | fetched i a p body busy leg =>
      have own := tends_own _ b aims i a _ busy leg (by simp)
      exact reach_tends _ b i a _ busy (fun q same => own q same) aims
  | housed i a p body built busy leg made =>
      have own := tends_own _ b aims i a _ busy leg (by simp)
      exact reach_tends _ { b with files := built } i a _ busy (fun q same => own q same) aims
  | stored i a p body modified changed q busy leg written pooled =>
      exact finished_tends _ b _ i .done pooled rfl aims
  | failed i a f leg q busy reached trouble pooled => exact finished_tends _ b _ i _ pooled rfl aims

theorem own_aim (files : FileTree) (root : Path) (b : Retrieval) (stock : Stock files root b) (i : Nat) (a : Asset)
    (leg : Leg) (p : Path) (busy : b.job? i = some a) (reached : b.legs[i]? = some leg)
    (aimed : leg.target? = some p) : Aims files root a p := by
  have moving : leg ≠ .fresh := by
    intro fresh
    rw [fresh] at aimed
    cases aimed
  exact tends_own _ b stock.aims i a leg busy reached moving p aimed

theorem start_stock (root : Path) (files : FileTree) (n : Nat) (assets : List Asset)
    (grounded : files.root.isFolder = true) : Stock files root (start root files n assets) where
  same := rfl
  linked := FileTree.linked_stay files
  grounded := grounded
  aims := start_tends _ root files n assets
  copies x member := by cases member

theorem grounded_look (t : FileTree) : t.root.isFolder = true ↔ t.root.look [] = some (.folder []) := by
  obtain ⟨root, current⟩ := t
  cases root <;> simp [Node.isFolder, Node.look, Node.get?, Node.outline]

theorem relative_down (assetPath : String) : (relative assetPath).isAbsolute = false := by
  have clean : ∀ cs : List Char, (cs.dropWhile (· == '/')).takeWhile (· == '/') = [] := by
    intro cs
    induction cs with
    | nil => rfl
    | cons c rest ih => by_cases slash : c = '/' <;> simp [slash, ih]
  simp [relative, Path.ofString, Path.isAbsolute, clean]

theorem below_absolute (root : Path) (assetPath : String) :
    (root.join (relative assetPath)).isAbsolute = root.isAbsolute := by
  rw [Path.join, relative_down]
  rfl

theorem all_accounted (n : Nat) (assets : List Asset) (b : Retrieval) (account : Account n assets b) :
    ∃ ahead, (b.pool.finished.map Prod.fst ++ b.pool.busy ++ ahead).Perm assets := by
  obtain ⟨ahead, marks, _, whole, _, _⟩ := account.tally.line
  refine ⟨ahead, ?_⟩
  rw [← whole]
  exact account.tally.accounted.append_right ahead

theorem busy_working (b : Retrieval) (i : Nat) (a : Asset) (busy : b.job? i = some a) : a ∈ b.pool.busy := by
  obtain ⟨worker, there, working⟩ := Option.bind_eq_some_iff.mp busy
  rw [Pool.State.busy, List.mem_filterMap]
  exact ⟨worker, List.mem_of_getElem? there, working⟩

theorem saved_finished (n : Nat) (assets : List Asset) (b : Retrieval) (account : Account n assets b) (x : Copy)
    (member : x ∈ b.saved) : x.asset ∈ b.pool.finished.map Prod.fst := by
  have done : x.asset ∈ b.saved.map Copy.asset := List.mem_map_of_mem member
  rw [account.saved, Pool.State.successes] at done
  obtain ⟨y, finished, same⟩ := List.mem_map.mp done
  rw [← same]
  exact List.mem_map_of_mem (List.mem_filter.mp finished).1

theorem busy_listed (n : Nat) (assets : List Asset) (b : Retrieval) (account : Account n assets b) (i : Nat)
    (a : Asset) (busy : b.job? i = some a) : a ∈ assets := by
  obtain ⟨ahead, all⟩ := all_accounted n assets b account
  exact all.subset (List.mem_append_left _ (List.mem_append_right _ (busy_working b i a busy)))

theorem busy_apart (n : Nat) (assets : List Asset) (R : Asset → Asset → Prop) (b : Retrieval)
    (account : Account n assets b) (symmetric : ∀ x y, R x y → R y x) (apart : assets.Pairwise R) (i : Nat)
    (a : Asset) (busy : b.job? i = some a) (x : Copy) (member : x ∈ b.saved) : R x.asset a := by
  obtain ⟨ahead, all⟩ := all_accounted n assets b account
  have scattered := (all.pairwise_iff fun {x y} => symmetric x y).mpr apart
  rw [List.pairwise_append, List.pairwise_append] at scattered
  exact scattered.1.2.2 x.asset (saved_finished n assets b account x member) a (busy_working b i a busy)

theorem found_aims (n : Nat) (assets : List Asset) (files : FileTree) (root : Path) (b : Retrieval)
    (scattered : Scattered files root assets) (account : Account n assets b) (stock : Stock files root b) (i : Nat)
    (a : Asset) (p : Path) (busy : b.job? i = some a) (found : aimed b.files b.root a.path = .ok p) :
    Aims files root a p := by
  rcases aimed_cases b.files b.root a.path with ⟨q, again, real, within⟩ | ⟨f, failed, _⟩
  · rw [found] at again
    cases again
    obtain ⟨parts, placed⟩ := scattered.placed a (busy_listed n assets b account i a busy)
    have leads := (FileTree.leads_linked files b.files stock.linked _ _).mpr placed
    rw [stock.same] at real within
    rw [FileTree.leads_real _ _ _ leads] at real
    cases real
    have absolute : root.isAbsolute = true := by
      simp only [Path.isWithin, Bool.and_eq_true, decide_eq_true_eq] at within
      simp [Path.isAbsolute, ← within.1]
    refine ⟨parts, rfl, placed, FileTree.leads_plain files _ parts ?_ placed⟩
    rw [below_absolute, absolute]
  · rw [found] at failed
    cases failed

theorem advance_stock (n : Nat) (assets : List Asset) (files : FileTree) (root : Path) (b c : Retrieval)
    (scattered : Scattered files root assets) (account : Account n assets b) (stock : Stock files root b)
    {given : List (Asset × Bytes)} (advance : Advance b given c) : Stock files root c := by
  have aims := advance_aims (Aims files root) b c advance (found_aims n assets files root b scattered account stock)
    stock.aims
  cases advance with
  | put p pooled =>
      obtain ⟨_, _, _, _, rfl⟩ := Pool.pool_put_cases b.pool p pooled
      exact ⟨stock.same, stock.linked, stock.grounded, aims, stock.copies⟩
  | housed i a p body built busy leg made =>
      have grown := FileTree.folders_built b.files built p.parent made
      refine ⟨stock.same, ?_, ?_, aims, ?_⟩
      · exact FileTree.linked_chain files b.files built stock.linked (FileTree.built_linked _ _ grown)
      · exact (grounded_look built).mpr (grown.kept _ _ ((grounded_look b.files).mp stock.grounded))
      · intro x member
        obtain ⟨parts, named, placed, held⟩ := stock.copies x member
        exact ⟨parts, named, placed, FileTree.held_built b.files built x.path x.body grown held⟩
  | stored i a p body modified changed q busy leg written pooled =>
      obtain ⟨parts, rfl, placed, plain⟩ := own_aim files root b stock i a _ p busy leg rfl
      obtain ⟨held, current, laid⟩ := FileTree.write_held b.files changed ⟨1, parts⟩ body modified stock.grounded rfl
        (FileTree.plain_linked files b.files stock.linked parts plain) written
      have linked := FileTree.laid_linked b.files changed parts _ current laid
      have below : [] ≠ parts :=
        (FileTree.write_named b.files changed ⟨1, parts⟩ body modified stock.grounded rfl written).symm
      refine ⟨stock.same, FileTree.linked_chain files b.files changed stock.linked linked, ?_, aims, ?_⟩
      · rw [grounded_look]
        exact (Node.laid_other _ _ parts _ laid [] below).trans ((grounded_look b.files).mp stock.grounded)
      · intro x member
        rcases List.mem_append.mp member with before | last
        · obtain ⟨others, path, place, kept⟩ := stock.copies x before
          have apart := busy_apart n assets _ b account (fun x y apart p q first second same =>
            apart q p second first same.symm) scattered.apart i a busy x before others parts place placed
          refine ⟨others, path, place, ?_⟩
          refine FileTree.held_laid b.files changed x.path x.body parts _ current laid ?_ kept
          rw [path]
          exact apart
        · rw [List.mem_singleton.mp last]
          exact ⟨parts, rfl, placed, held⟩
  | _ => exact ⟨stock.same, stock.linked, stock.grounded, aims, stock.copies⟩

theorem run_stock (n : Nat) (assets : List Asset) (files : FileTree) (root : Path)
    (grounded : files.root.isFolder = true) (scattered : Scattered files root assets) (b : Retrieval)
    (run : Run (start root files n assets) b) : Stock files root b := by
  induction run with
  | rest => exact start_stock root files n assets grounded
  | move c d m before lawful moved ih =>
      have account := run_accounted root files n assets c before
      exact advance_stock n assets files root c d scattered account ih (step_advance c d m lawful moved)

end Retrieval

end HostingAdmin.Hosting
