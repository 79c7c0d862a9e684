import Mathlib.Data.List.Nodup
import HostingAdmin.Hosting.Import
import HostingAdmin.Proofs.DiffScan

set_option autoImplicit false

namespace HostingAdmin.Hosting

open Asset Diff

-- Which operations an import consists of.
def Planned (here remote : List Asset) (merge : Bool) : Operation → Prop
  | .add a => first? here a.path = some a ∧ latest? remote a.path = none
  | .delete a => merge = false ∧ latest? remote a.path = some a ∧ first? here a.path = none
  | .modify m => ∃ there, first? here m.asset.path = some m.asset ∧
      latest? remote m.asset.path = some there ∧ m = Modification.between m.asset there ∧ m.isChange = true

theorem plan_mem (here remote : List Asset) (merge : Bool) (op : Operation) :
    op ∈ Operation.ofDiff (between here remote merge) ↔ Planned here remote merge op := by
  simp only [Operation.ofDiff, List.mem_append, List.mem_map, between_added, between_modified, between_deleted]
  cases op with
  | add a =>
      simp [Planned, firsts_mem, isNew, by_path_lookup]
  | delete a =>
      cases merge with
      | true => simp [Planned]
      | false =>
          simp only [Planned, reduceCtorEq, and_false, exists_false, false_or, or_false, Bool.false_eq_true,
            if_false, List.mem_map, leftovers_mem, Operation.delete.injEq, exists_eq_right, true_and]
          constructor
          · rintro ⟨⟨path, there⟩, found, rfl⟩
            have same := (latest_path remote path there found.1).2
            subst same
            exact found
          · intro found
            exact ⟨(a.path, a), found, rfl⟩
  | modify m =>
      simp only [Planned, reduceCtorEq, and_false, exists_false, false_or, Operation.modify.injEq, exists_eq_right,
        List.mem_filterMap, change_cases, firsts_mem, by_path_lookup, List.not_mem_nil, not_false_eq_true, true_and]
      constructor
      · rintro ⟨a, first, there, last, rfl, changed⟩
        exact ⟨there, first, last, rfl, changed⟩
      · rintro ⟨there, first, last, same, changed⟩
        exact ⟨m.asset, first, there, last, same, changed⟩

theorem firsts_paths (here : List Asset) (p : Asset → Bool) :
    (((firsts [] here).filter p).map Asset.path).Nodup :=
  (List.filter_sublist.map Asset.path).nodup (firsts_nodup [] here)

theorem changes_paths (left : Members Asset) (assets : List Asset) :
    ((assets.filterMap (change? left)).map fun m => m.asset.path) =
      (assets.filter fun a => (change? left a).isSome).map Asset.path := by
  induction assets with
  | nil => rfl
  | cons a rest ih =>
      cases changed : change? left a with
      | none => simpa [changed] using ih
      | some m =>
          obtain ⟨there, _, rfl, _⟩ := (change_cases left a m).mp changed
          simpa [changed, Modification.between] using ih

theorem leftovers_paths (here remote : List Asset) :
    (((leftovers here remote).map Prod.snd).map Asset.path).Nodup := by
  have names : ((leftovers here remote).map Prod.snd).map Asset.path = Members.names (leftovers here remote) := by
    rw [List.map_map]
    apply List.map_congr_left
    intro entry member
    exact by_path_key remote entry (List.mem_of_mem_filter member)
  rw [names]
  exact (List.filter_sublist.map Prod.fst).nodup (by_path_nodup remote)

theorem plan_distinct (here remote : List Asset) (merge : Bool) :
    (Operation.ofDiff (between here remote merge)).Nodup := by
  have added : ((between here remote merge).added.map Operation.add).Nodup := by
    rw [between_added]
    exact (List.Nodup.of_map Asset.path (firsts_paths here _)).map fun _ _ same => Operation.add.inj same
  have deleted : ((between here remote merge).deleted.map Operation.delete).Nodup := by
    rw [between_deleted]
    cases merge with
    | true => exact List.nodup_nil
    | false =>
        exact (List.Nodup.of_map Asset.path (leftovers_paths here remote)).map fun _ _ same => Operation.delete.inj same
  have modified : ((between here remote merge).modified.map Operation.modify).Nodup := by
    have paths : ((between here remote merge).modified.map fun m => m.asset.path).Nodup := by
      rw [between_modified, changes_paths]
      exact firsts_paths here _
    exact (List.Nodup.of_map _ paths).map fun _ _ same => Operation.modify.inj same
  rw [Operation.ofDiff, List.nodup_append, List.nodup_append]
  refine ⟨⟨added, deleted, ?_⟩, modified, ?_⟩
  · intro x first y second same
    obtain ⟨a, _, rfl⟩ := List.mem_map.mp first
    obtain ⟨c, _, rfl⟩ := List.mem_map.mp second
    cases same
  · intro x first y second same
    obtain ⟨m, _, rfl⟩ := List.mem_map.mp second
    subst same
    rcases List.mem_append.mp first with add | delete
    · obtain ⟨a, _, impossible⟩ := List.mem_map.mp add
      cases impossible
    · obtain ⟨a, _, impossible⟩ := List.mem_map.mp delete
      cases impossible

-- The operation on a path, if there is to be one.
def planned? (here remote : List Asset) (merge : Bool) (path : String) : Option Operation :=
  match first? here path, latest? remote path with
  | some a, none => some (.add a)
  | some a, some there =>
    if (Modification.between a there).isChange then some (.modify (Modification.between a there)) else none
  | none, some there => if merge then none else some (.delete there)
  | none, none => none

theorem planned_iff (here remote : List Asset) (merge : Bool) (op : Operation) :
    Planned here remote merge op ↔ planned? here remote merge op.path = some op := by
  cases op with
  | add a =>
      change _ ↔ planned? here remote merge a.path = _
      cases found : first? here a.path <;> cases last : latest? remote a.path <;> simp [Planned, planned?, found, last]
  | delete a =>
      change _ ↔ planned? here remote merge a.path = _
      cases found : first? here a.path <;> cases last : latest? remote a.path <;> simp [Planned, planned?, found, last]
  | modify m =>
      change _ ↔ planned? here remote merge m.asset.path = _
      cases found : first? here m.asset.path <;> cases last : latest? remote m.asset.path <;>
        simp [Planned, planned?, found, last]
      constructor
      · rintro ⟨rfl, built, changed⟩
        exact ⟨built ▸ changed, built.symm⟩
      · rintro ⟨changed, rfl⟩
        exact ⟨rfl, rfl, changed⟩

theorem planned_unique (here remote : List Asset) (merge : Bool) (x y : Operation)
    (first : Planned here remote merge x) (second : Planned here remote merge y) (same : x.path = y.path) :
    x = y := by
  rw [planned_iff, same] at first
  rw [planned_iff, first] at second
  exact Option.some.inj second

-- No two operations of an import touch the same path.
theorem plan_nodup (here remote : List Asset) (merge : Bool) :
    ((Operation.ofDiff (between here remote merge)).map Operation.path).Nodup := by
  refine List.Nodup.map_on ?_ (plan_distinct here remote merge)
  intro x first y second same
  exact planned_unique here remote merge x y ((plan_mem here remote merge x).mp first)
    ((plan_mem here remote merge y).mp second) same

end HostingAdmin.Hosting
