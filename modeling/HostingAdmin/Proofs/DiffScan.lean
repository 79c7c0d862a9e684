import Mathlib.Data.List.Basic
import HostingAdmin.Asset.Diff
import HostingAdmin.Proofs.MemberLists

set_option autoImplicit false

namespace HostingAdmin

namespace Asset

-- The entries that count: of a local listing the first one of a path, of a
-- hosted listing the last one.
def first? (assets : List Asset) (path : String) : Option Asset := assets.find? fun a => a.path = path

def latest? (assets : List Asset) (path : String) : Option Asset :=
  assets.reverse.find? fun a => a.path = path

-- The first assets of all paths that are not seen yet, in order.
def firsts : List String → List Asset → List Asset
  | _, [] => []
  | seen, a :: rest => if a.path ∈ seen then firsts seen rest else a :: firsts (a.path :: seen) rest

theorem first_cons (a : Asset) (rest : List Asset) (path : String) :
    first? (a :: rest) path = if a.path = path then some a else first? rest path := by
  by_cases here : a.path = path <;> simp [first?, here]

theorem first_path (assets : List Asset) (path : String) (a : Asset) (found : first? assets path = some a) :
    a ∈ assets ∧ a.path = path :=
  ⟨List.mem_of_find?_eq_some found, by simpa using List.find?_some found⟩

theorem latest_path (assets : List Asset) (path : String) (a : Asset) (found : latest? assets path = some a) :
    a ∈ assets ∧ a.path = path :=
  ⟨by simpa using List.mem_of_find?_eq_some found, by simpa using List.find?_some found⟩

theorem firsts_mem (seen : List String) (assets : List Asset) (a : Asset) :
    a ∈ firsts seen assets ↔ a.path ∉ seen ∧ first? assets a.path = some a := by
  induction assets generalizing seen with
  | nil => simp [firsts, first?]
  | cons b rest ih =>
      rw [firsts, first_cons]
      by_cases known : b.path ∈ seen
      · rw [if_pos known, ih]
        apply and_congr_right
        intro fresh
        have other : b.path ≠ a.path := fun same => fresh (same ▸ known)
        rw [if_neg other]
      · rw [if_neg known, List.mem_cons, ih, List.mem_cons, not_or]
        by_cases same : b.path = a.path
        · simp only [same, if_true, not_true_eq_false, false_and, or_false, Option.some.injEq]
          constructor
          · rintro rfl
            exact ⟨known, rfl⟩
          · intro found
            exact found.2.symm
        · have other : a ≠ b := fun equal => same (equal ▸ rfl)
          have unlike : ¬ a.path = b.path := fun equal => same equal.symm
          simp [same, other, unlike]

theorem firsts_nodup (seen : List String) (assets : List Asset) :
    ((firsts seen assets).map Asset.path).Nodup := by
  induction assets generalizing seen with
  | nil => simp [firsts]
  | cons b rest ih =>
      rw [firsts]
      by_cases known : b.path ∈ seen
      · rw [if_pos known]
        exact ih seen
      · rw [if_neg known, List.map_cons, List.nodup_cons]
        refine ⟨?_, ih _⟩
        intro again
        obtain ⟨a, member, same⟩ := List.mem_map.mp again
        have fresh := ((firsts_mem _ rest a).mp member).1
        exact fresh (by rw [same]; exact List.mem_cons_self)

theorem paths_lookup (assets : List Asset) (path : String) :
    (assets.map fun a => (a.path, a)).lookup path = first? assets path := by
  induction assets with
  | nil => rfl
  | cons a rest ih =>
      rw [List.map_cons, Members.lookup_entry, first_cons, ih]
      by_cases here : path = a.path
      · rw [if_pos here, if_pos here.symm]
      · rw [if_neg here, if_neg fun same => here same.symm]

theorem by_path_lookup (assets : List Asset) (path : String) :
    (byPath assets).lookup path = latest? assets path := by
  rw [byPath, Members.pairs_last, ← List.map_reverse, paths_lookup]
  rfl

theorem by_path_nodup (assets : List Asset) : (Members.names (byPath assets)).Nodup := by
  have general : ∀ ms : Members Asset, (Members.names ms).Nodup →
      (Members.names ((assets.map fun a => (a.path, a)).foldl (fun ms p => Members.put p.1 p.2 ms) ms)).Nodup := by
    induction assets with
    | nil => exact fun ms unique => unique
    | cons a rest ih => exact fun ms unique => ih _ (Members.put_nodup a.path a ms unique)
  exact general [] List.nodup_nil

theorem by_path_key (assets : List Asset) (entry : String × Asset) (member : entry ∈ byPath assets) :
    entry.2.path = entry.1 := by
  have found := Members.mem_lookup entry.1 entry.2 _ (by_path_nodup assets) member
  rw [by_path_lookup] at found
  exact (latest_path assets entry.1 entry.2 found).2

end Asset

namespace Diff

open Asset

-- What differs between a local asset and the hosted one of its path, if
-- there is one and something differs.
def change? (left : Members Asset) (a : Asset) : Option Modification :=
  match left.lookup a.path with
  | some there => if (Modification.between a there).isChange then some (Modification.between a there) else none
  | none => none

def isNew (left : Members Asset) (a : Asset) : Bool := (left.lookup a.path).isNone

theorem firsts_other (seen : List String) (rest : List Asset) (path : String) (a : Asset)
    (member : a ∈ firsts (path :: seen) rest) : a.path ≠ path := by
  have fresh := ((firsts_mem _ rest a).mp member).1
  intro same
  exact fresh (by rw [same]; exact List.mem_cons_self)

theorem new_without (left : Members Asset) (seen : List String) (rest : List Asset) (path : String) :
    (firsts (path :: seen) rest).filter (isNew (left.filter fun entry => entry.1 != path)) =
      (firsts (path :: seen) rest).filter (isNew left) := by
  apply List.filter_congr
  intro a member
  rw [isNew, isNew, Members.lookup_filter_other path a.path left (firsts_other seen rest path a member)]

theorem change_without (left : Members Asset) (seen : List String) (rest : List Asset) (path : String) :
    (firsts (path :: seen) rest).filterMap (change? (left.filter fun entry => entry.1 != path)) =
      (firsts (path :: seen) rest).filterMap (change? left) := by
  apply List.filterMap_congr
  intro a member
  rw [change?, change?, Members.lookup_filter_other path a.path left (firsts_other seen rest path a member)]

theorem next_new (s : Scan) (a : Asset) (fresh : a.path ∉ s.seen) (missing : s.left.lookup a.path = none) :
    s.next a = { s with seen := a.path :: s.seen, added := a :: s.added } := by
  simp [Scan.next, fresh, missing]

theorem next_known (s : Scan) (a there : Asset) (fresh : a.path ∉ s.seen)
    (found : s.left.lookup a.path = some there) :
    s.next a = { s with
      seen := a.path :: s.seen
      left := s.left.filter fun entry => entry.1 != a.path
      modified := (change? s.left a).toList ++ s.modified } := by
  by_cases changed : (Modification.between a there).isChange = true <;>
    simp [Scan.next, fresh, found, change?, changed]

theorem scan_fold (here : List Asset) (s : Scan) :
    (here.foldl Scan.next s).added = ((firsts s.seen here).filter (isNew s.left)).reverse ++ s.added ∧
    (here.foldl Scan.next s).modified =
      ((firsts s.seen here).filterMap (change? s.left)).reverse ++ s.modified ∧
    (here.foldl Scan.next s).left =
      s.left.filter fun entry => entry.1 ∉ (firsts s.seen here).map Asset.path := by
  induction here generalizing s with
  | nil => exact ⟨rfl, rfl, (List.filter_eq_self.mpr (by simp [firsts])).symm⟩
  | cons a rest ih =>
      rw [List.foldl_cons, firsts]
      by_cases known : a.path ∈ s.seen
      · have same : s.next a = s := by simp [Scan.next, known]
        rw [same, if_pos known]
        exact ih s
      · rw [if_neg known]
        cases foundEq : s.left.lookup a.path with
        | none =>
            rw [next_new s a known foundEq]
            obtain ⟨added, modified, left⟩ := ih { s with seen := a.path :: s.seen, added := a :: s.added }
            have missing : change? s.left a = none := by simp [change?, foundEq]
            have new : isNew s.left a = true := by simp [isNew, foundEq]
            refine ⟨?_, ?_, ?_⟩
            · rw [added, List.filter_cons_of_pos new]
              simp
            · rw [modified, List.filterMap_cons_none missing]
            · rw [left]
              apply List.filter_congr
              intro entry member
              have other : entry.1 ≠ a.path := by
                intro same
                have absent := List.lookup_eq_none_iff.mp foundEq entry member
                simp [same] at absent
              simp [other]
        | some there =>
            rw [next_known s a there known foundEq]
            obtain ⟨added, modified, left⟩ := ih { s with
              seen := a.path :: s.seen
              left := s.left.filter fun entry => entry.1 != a.path
              modified := (change? s.left a).toList ++ s.modified }
            have old : isNew s.left a = false := by simp [isNew, foundEq]
            refine ⟨?_, ?_, ?_⟩
            · rw [added, List.filter_cons_of_neg (by simp [old]), new_without]
            · rw [modified, change_without, List.filterMap_cons]
              cases change? s.left a <;> simp
            · rw [left, List.filter_filter]
              apply List.filter_congr
              intro entry member
              by_cases here : entry.1 = a.path <;> simp [here]

theorem between_added (here remote : List Asset) (merge : Bool) :
    (between here remote merge).added = (firsts [] here).filter (isNew (byPath remote)) := by
  have scanned := (scan_fold here ⟨[], byPath remote, [], []⟩).1
  simp only [between, scanned, List.append_nil, List.reverse_reverse]

theorem between_modified (here remote : List Asset) (merge : Bool) :
    (between here remote merge).modified = (firsts [] here).filterMap (change? (byPath remote)) := by
  have scanned := (scan_fold here ⟨[], byPath remote, [], []⟩).2.1
  simp only [between, scanned, List.append_nil, List.reverse_reverse]

-- The hosted assets whose paths no local asset has.
def leftovers (here remote : List Asset) : Members Asset :=
  (byPath remote).filter fun entry => entry.1 ∉ (firsts [] here).map Asset.path

theorem between_deleted (here remote : List Asset) (merge : Bool) :
    (between here remote merge).deleted = if merge then [] else (leftovers here remote).map Prod.snd := by
  have scanned := (scan_fold here ⟨[], byPath remote, [], []⟩).2.2
  simp only [between, scanned, leftovers]

theorem firsts_paths (here : List Asset) (path : String) :
    path ∈ (firsts [] here).map Asset.path ↔ path ∈ here.map Asset.path := by
  constructor
  · intro member
    obtain ⟨a, listed, rfl⟩ := List.mem_map.mp member
    exact List.mem_map_of_mem (first_path here a.path a ((firsts_mem [] here a).mp listed).2).1
  · intro member
    obtain ⟨a, listed, rfl⟩ := List.mem_map.mp member
    cases found : first? here a.path with
    | none =>
        have absent := List.find?_eq_none.mp found a listed
        simp at absent
    | some b =>
        have same := (first_path here a.path b found).2
        refine List.mem_map.mpr ⟨b, (firsts_mem [] here b).mpr ⟨List.not_mem_nil, ?_⟩, same⟩
        rw [same, found]

theorem first_none (here : List Asset) (path : String) : first? here path = none ↔ path ∉ here.map Asset.path := by
  rw [first?, List.find?_eq_none]
  simp

theorem leftovers_mem (here remote : List Asset) (entry : String × Asset) :
    entry ∈ leftovers here remote ↔
      latest? remote entry.1 = some entry.2 ∧ first? here entry.1 = none := by
  rw [leftovers, List.mem_filter, decide_eq_true_eq, firsts_paths, first_none, ← by_path_lookup]
  apply and_congr_left
  intro _
  constructor
  · intro member
    exact Members.mem_lookup entry.1 entry.2 _ (by_path_nodup remote) member
  · intro found
    exact Members.lookup_some_mem entry.1 entry.2 _ found

theorem change_cases (left : Members Asset) (a : Asset) (m : Modification) :
    change? left a = some m ↔
      ∃ there, left.lookup a.path = some there ∧ m = Modification.between a there ∧ m.isChange = true := by
  rw [change?]
  cases found : left.lookup a.path with
  | none => simp
  | some there =>
      constructor
      · intro changed
        dsimp only at changed
        split at changed
        · rename_i differs
          cases changed
          exact ⟨there, rfl, rfl, differs⟩
        · cases changed
      · rintro ⟨other, same, rfl, differs⟩
        cases same
        simp [differs]

end Diff

end HostingAdmin
