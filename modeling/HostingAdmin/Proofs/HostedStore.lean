import HostingAdmin.Proofs.ImportPlan

set_option autoImplicit false

namespace HostingAdmin.Hosting

structure Stored where
  hash : String
  attrs : List Attribute
deriving DecidableEq

abbrev Store := String → Option Stored

inductive Change where
  | put (path hash : String) (attrs : List Attribute)
  | patch (path : String) (attrs : List Attribute)
  | delete (path : String)
deriving DecidableEq

namespace Change

def path : Change → String
  | .put path _ _ => path
  | .patch path _ => path
  | .delete path => path

def result : Change → Option Stored → Option Stored
  | .put _ hash attrs, _ => some ⟨hash, attrs⟩
  | .patch _ attrs, old => old.map fun x => { x with attrs }
  | .delete _, _ => none

end Change

-- The change that an operation is there for, if there is anything to change.
def Operation.change? (op : Operation) : Option Change :=
  match op.effect with
  | .upload a => some (.put a.path a.hash a.attrs)
  | .delete path => some (.delete path)
  | .setAttributes path attrs => some (.patch path attrs)
  | .nothing => none

theorem Operation.change_path (op : Operation) (c : Change) (asked : op.change? = some c) : c.path = op.path := by
  cases op with
  | add a => cases asked; rfl
  | delete a => cases asked; rfl
  | modify m =>
      by_cases body : m.bodyChanged = true
      · have asked : some (Change.put m.asset.path m.asset.hash m.asset.attrs) = some c := by
          simpa [change?, effect, body] using asked
        cases asked
        rfl
      · by_cases attrs : m.attrsChanged = true
        · have asked : some (Change.patch m.asset.path m.asset.attrs) = some c := by
            simpa [change?, effect, body, attrs] using asked
          cases asked
          rfl
        · simp [change?, effect, body, attrs] at asked

namespace Store

-- A listing that repeats a path means its last entry.
def ofListing (assets : List Asset) : Store := fun path => (Asset.latest? assets path).map fun a => ⟨a.hash, a.attrs⟩

def change (s : Store) (c : Change) : Store := fun path => if path = c.path then c.result (s path) else s path

def changeAll (s : Store) (cs : List Change) : Store := cs.foldl change s

theorem changed_other (s : Store) (cs : List Change) (path : String) (absent : path ∉ cs.map Change.path) :
    s.changeAll cs path = s path := by
  induction cs generalizing s with
  | nil => rfl
  | cons c rest ih =>
      rw [List.map_cons, List.mem_cons, not_or] at absent
      exact (ih (s.change c) absent.2).trans (if_neg absent.1)

-- Changes of different paths do not see each other, so their order does not matter.
theorem changed_once (s : Store) (cs : List Change) (c : Change) (unique : (cs.map Change.path).Nodup)
    (member : c ∈ cs) : s.changeAll cs c.path = c.result (s c.path) := by
  induction cs generalizing s with
  | nil => cases member
  | cons first rest ih =>
      rw [List.map_cons, List.nodup_cons] at unique
      rcases List.mem_cons.mp member with rfl | later
      · exact (changed_other (s.change c) rest c.path unique.1).trans (if_pos rfl)
      · have other : c.path ≠ first.path := by
          intro same
          exact unique.1 (same ▸ List.mem_map_of_mem later)
        refine (ih (s.change first) unique.2 later).trans ?_
        rw [change, if_neg other]

def listing (s : Store) (paths : List String) : List Asset :=
  paths.filterMap fun path => (s path).map fun x => ⟨"", path, x.hash, 0, x.attrs, 0, ""⟩

open Asset in
theorem listing_stored (s : Store) (paths : List String) (support : ∀ path, s path ≠ none → path ∈ paths) :
    ofListing (s.listing paths) = s := by
  have entries : ∀ a ∈ s.listing paths, s a.path = some ⟨a.hash, a.attrs⟩ := by
    intro a member
    obtain ⟨path, _, built⟩ := List.mem_filterMap.mp member
    obtain ⟨x, stored, rfl⟩ := Option.map_eq_some_iff.mp built
    exact stored
  funext path
  rw [ofListing]
  cases last : latest? (s.listing paths) path with
  | some a =>
      obtain ⟨member, same⟩ := latest_path _ path a last
      rw [Option.map_some, ← entries a member, same]
  | none =>
      rw [Option.map_none]
      cases stored : s path with
      | none => rfl
      | some x =>
          have listed := support path (by simp [stored])
          have entry : (⟨"", path, x.hash, 0, x.attrs, 0, ""⟩ : Asset) ∈ s.listing paths :=
            List.mem_filterMap.mpr ⟨path, listed, by rw [stored, Option.map_some]⟩
          have absent := List.find?_eq_none.mp last _ (List.mem_reverse.mpr entry)
          simp at absent

end Store

section

variable (here remote : List Asset) (merge : Bool) (served : List Change)
  (order : served.Perm ((Operation.ofDiff (Diff.between here remote merge)).filterMap Operation.change?))

theorem changes_paths_sublist (ops : List Operation) :
    ((ops.filterMap Operation.change?).map Change.path).Sublist (ops.map Operation.path) := by
  induction ops with
  | nil => exact List.Sublist.slnil
  | cons op rest ih =>
      cases asked : op.change? with
      | none =>
          rw [List.filterMap_cons_none asked, List.map_cons]
          exact ih.cons _
      | some c =>
          rw [List.filterMap_cons_some asked, List.map_cons, List.map_cons, op.change_path c asked]
          exact ih.cons_cons _

include order

theorem served_mem (c : Change) :
    c ∈ served ↔ ∃ op, Planned here remote merge op ∧ op.change? = some c := by
  simp only [order.mem_iff, List.mem_filterMap, plan_mem]

theorem served_planned (s : Store) (op : Operation) (planned : Planned here remote merge op) :
    s.changeAll served op.path = (op.change?.map fun c => c.result (s op.path)).getD (s op.path) := by
  cases asked : op.change? with
  | some c =>
      have same := op.change_path c asked
      have unique : (served.map Change.path).Nodup :=
        (order.map Change.path).nodup_iff.mpr ((changes_paths_sublist _).nodup (plan_nodup here remote merge))
      have member := (served_mem here remote merge served order c).mpr ⟨op, planned, asked⟩
      have changed := s.changed_once served c unique member
      rwa [same] at changed
  | none =>
      refine s.changed_other served op.path fun listed => ?_
      obtain ⟨c, member, path⟩ := List.mem_map.mp listed
      obtain ⟨other, also, asks⟩ := (served_mem here remote merge served order c).mp member
      have same := planned_unique here remote merge other op also planned ((other.change_path c asks).symm.trans path)
      rw [same, asked] at asks
      cases asks

theorem served_unplanned (s : Store) (path : String) (absent : planned? here remote merge path = none) :
    s.changeAll served path = s path := by
  refine s.changed_other served path fun listed => ?_
  obtain ⟨c, member, rfl⟩ := List.mem_map.mp listed
  obtain ⟨op, planned, asked⟩ := (served_mem here remote merge served order c).mp member
  rw [op.change_path c asked, (planned_iff here remote merge op).mp planned] at absent
  cases absent

end

end HostingAdmin.Hosting
