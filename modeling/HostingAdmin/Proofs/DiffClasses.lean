import HostingAdmin.Proofs.AttributeOrder
import HostingAdmin.Proofs.ImportPlan

set_option autoImplicit false

namespace HostingAdmin

namespace Asset

-- The first assets of all paths, in order.
def leading (assets : List Asset) : List Asset := assets.eraseDupsBy fun a b => a.path == b.path

theorem leading_cons (a : Asset) (rest : List Asset) :
    leading (a :: rest) = a :: leading (rest.filter fun b => b.path ≠ a.path) := by
  rw [leading, List.eraseDupsBy_cons]
  congr 2
  apply List.filter_congr
  intro b _
  simp

theorem leading_filter (p : Asset → Bool) (alike : ∀ a b, a.path = b.path → p a = p b) (assets : List Asset) :
    leading (assets.filter p) = (leading assets).filter p := by
  induction size : assets.length using Nat.strongRecOn generalizing assets with
  | ind n ih =>
      cases assets with
      | nil => rfl
      | cons a rest =>
          have shorter : (rest.filter fun b => b.path ≠ a.path).length < n := by
            have fewer := List.length_filter_le (fun b : Asset => decide (b.path ≠ a.path)) rest
            rw [List.length_cons] at size
            omega
          have others := ih _ shorter (rest.filter fun b => b.path ≠ a.path) rfl
          rw [leading_cons]
          by_cases kept : p a = true
          · rw [List.filter_cons_of_pos kept, List.filter_cons_of_pos kept, leading_cons, ← others, List.filter_filter,
              List.filter_filter]
            simp only [Bool.and_comm]
          · rw [List.filter_cons_of_neg kept, List.filter_cons_of_neg kept, ← others, List.filter_filter]
            congr 1
            apply List.filter_congr
            intro b _
            by_cases same : b.path = a.path
            · simp [same, alike b a same, kept]
            · simp [same]

theorem firsts_leading (seen : List String) (assets : List Asset) :
    firsts seen assets = (leading assets).filter fun a => a.path ∉ seen := by
  induction assets generalizing seen with
  | nil => rfl
  | cons a rest ih =>
      have others := leading_filter (fun b => decide (b.path ≠ a.path)) (fun b c same => by simp [same]) rest
      rw [firsts, leading_cons, others]
      by_cases known : a.path ∈ seen
      · rw [if_pos known, List.filter_cons_of_neg (by simpa using known), ih, List.filter_filter]
        apply List.filter_congr
        intro b _
        by_cases same : b.path = a.path <;> simp [same, known]
      · rw [if_neg known, List.filter_cons_of_pos (by simpa using known), ih, List.filter_filter]
        congr 1
        apply List.filter_congr
        intro b _
        by_cases same : b.path = a.path <;> simp [same]

theorem firsts_all (assets : List Asset) : firsts [] assets = leading assets := by
  rw [firsts_leading]
  simp

theorem leading_mem (assets : List Asset) (a : Asset) : a ∈ leading assets ↔ first? assets a.path = some a := by
  rw [← firsts_all, firsts_mem]
  simp

theorem leading_nodup (assets : List Asset) : (leading assets).Nodup := by
  rw [← firsts_all]
  exact List.Nodup.of_map Asset.path (firsts_nodup [] assets)

theorem latest_none (assets : List Asset) (path : String) : latest? assets path = none ↔ path ∉ assets.map Asset.path := by
  have reversed := Diff.first_none assets.reverse path
  rw [List.map_reverse, List.mem_reverse] at reversed
  exact reversed

end Asset

namespace Diff

open Asset

-- A local asset is compared with the last hosted one of its path.
def differing? (remote : List Asset) (a : Asset) : Option Modification :=
  (remote.reverse.find? fun b => b.path = a.path).bind fun there =>
    if a.hash ≠ there.hash ∨ ¬ a.attrs.Perm there.attrs then
      some ⟨a, decide (a.hash ≠ there.hash), decide (¬ a.attrs.Perm there.attrs)⟩
    else none

theorem change_differing (remote : List Asset) (a : Asset) : change? (byPath remote) a = differing? remote a := by
  rw [change?, by_path_lookup, differing?, ← latest?]
  cases latest? remote a.path with
  | none => rfl
  | some there =>
      have body : (a.hash != there.hash) = decide (a.hash ≠ there.hash) := by simp [bne, beq_eq_decide]
      have attrs : (!Attribute.sameAll a.attrs there.attrs) = decide (¬ a.attrs.Perm there.attrs) := by
        rw [decide_not]
        congr 1
        rw [Bool.eq_iff_iff, Attribute.same_all_perm, decide_eq_true_eq]
      simp only [Option.bind_some, Modification.isChange, Modification.between, body, attrs, Bool.or_eq_true,
        decide_eq_true_eq]

theorem deleted_perm (here remote : List Asset) : ((leftovers here remote).map Prod.snd).Perm
    ((leading remote.reverse).filter fun a => a.path ∉ here.map Asset.path) := by
  have nodup := List.Nodup.of_map Asset.path (Hosting.leftovers_paths here remote)
  rw [List.perm_ext_iff_of_nodup nodup ((leading_nodup remote.reverse).filter _)]
  intro a
  rw [List.mem_filter, leading_mem, decide_eq_true_eq, ← first_none here, List.mem_map]
  constructor
  · rintro ⟨⟨path, there⟩, member, rfl⟩
    obtain ⟨last, missing⟩ := (leftovers_mem here remote (path, there)).mp member
    have same := (latest_path remote path there last).2
    subst same
    exact ⟨last, missing⟩
  · rintro ⟨last, missing⟩
    exact ⟨(a.path, a), (leftovers_mem here remote (a.path, a)).mpr ⟨last, missing⟩, rfl⟩

theorem between_classes (here remote : List Asset) (merge : Bool) :
    (between here remote merge).added = ((leading here).filter fun a => a.path ∉ remote.map Asset.path) ∧
    (between here remote merge).modified = (leading here).filterMap (differing? remote) ∧
    (between here remote merge).deleted.Perm
      (if merge then [] else (leading remote.reverse).filter fun a => a.path ∉ here.map Asset.path) ∧
    ((between here remote merge).added.map Asset.path ++ (between here remote merge).deleted.map Asset.path ++
      (between here remote merge).modified.map fun m => m.asset.path).Nodup := by
  refine ⟨?_, ?_, ?_, ?_⟩
  · rw [between_added, firsts_all]
    apply List.filter_congr
    intro a _
    rw [isNew, by_path_lookup, Bool.eq_iff_iff, Option.isNone_iff_eq_none, latest_none, decide_eq_true_eq]
  · rw [between_modified, firsts_all]
    apply List.filterMap_congr
    intro a _
    exact change_differing remote a
  · rw [between_deleted]
    cases merge with
    | true => exact List.Perm.refl _
    | false => exact deleted_perm here remote
  · have apart := Hosting.plan_nodup here remote merge
    simp only [Hosting.Operation.ofDiff, List.map_append, List.map_map] at apart
    exact apart

end Diff

end HostingAdmin
