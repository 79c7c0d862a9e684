import HostingAdmin.Proofs.PoolSchedule
import HostingAdmin.Proofs.Routes
import HostingAdmin.Proofs.WireTraffic

set_option autoImplicit false

namespace HostingAdmin

open HostingAdmin.Action

theorem Pool.advance_tally {α : Type} (work : Nat → α → Action Pool.Verdict) (n : Nat) (jobs : List α)
    (s t : Pool.State α) (task : Pool.Task α) (tally : Pool.Tally n jobs s) (w v : World)
    (performed : (Pool.advance work s task).perform w = (.ok (some t), v)) : Pool.Tally n jobs t := by
  cases task with
  | put =>
      rw [Pool.advance, perform_pure, Prod.mk.injEq, Except.ok.injEq] at performed
      exact Pool.put_tally n jobs s t tally performed.1
  | take i =>
      rw [Pool.advance, perform_pure, Prod.mk.injEq, Except.ok.injEq] at performed
      exact Pool.take_tally n jobs s t i tally performed.1
  | work i job =>
      obtain ⟨verdict, u, _, ended⟩ := bind_ok _ _ w v _ performed
      rw [perform_pure, Prod.mk.injEq, Except.ok.injEq] at ended
      exact Pool.finish_tally n jobs s t i verdict tally ended.1

namespace Hosting

variable {R : World → World → Prop} (passage : Passage R)

include passage

theorem pool_within {α : Type} (work : Nat → α → Action Pool.Verdict) (n : Nat) (jobs : List α)
    (works : ∀ i, ∀ job ∈ jobs, Within R (work i job)) : Within R (Pool.run work n jobs) := by
  have advanced : ∀ s task, Pool.Tally n jobs s → Pool.Fits s task → Within R (Pool.advance work s task) := by
    intro s task tally fits
    cases task with
    | work i job =>
        have planned := Pool.job_planned n jobs s tally i job fits
        exact within_bind passage _ _ (works i job planned) fun _ => within_pure passage _
    | _ => exact within_pure passage _
  have driven : ∀ fuel s, Pool.Tally n jobs s → Within R (Pool.drive work fuel s) := by
    intro fuel
    induction fuel with
    | zero => exact fun s _ => within_pure passage s
    | succ fuel ih =>
        intro s tally
        rw [Pool.drive]
        split
        · exact within_pure passage s
        · rename_i task next
          have fits := Pool.next_fits s task next
          apply within_then passage _ _ (advanced s task tally fits)
          intro w moved v performed
          cases moved with
          | none => exact within_pure passage s v
          | some t => exact ih t (Pool.advance_tally work n jobs s t task tally w v performed) v
  apply within_bind passage _ _ (driven _ _ (Pool.start_tally n jobs))
  intro s
  split
  · split
    · exact within_throw passage _
    · exact within_pure passage _
  · exact within_throw passage _

theorem real_within (p : Path) : Within R (realPath p) := by
  refine within_bind passage _ _ ?_ (fun _ => ?_)
  · rw [guardPath]
    split
    · exact within_throw passage _
    · exact within_pure passage _
  · exact within_bind passage _ _ (within_get passage) fun w => within_except passage _ _

theorem target_within (root : Path) (assetPath : String) : Within R (target root assetPath) := by
  apply within_bind passage _ _ (real_within passage _)
  intro p
  split
  · exact within_pure passage p
  · exact within_throw passage _

theorem told_within (complains : ∀ w errors, R w { w with errors }) (talks : Bool) (c : Pool.Complaint) :
    Within R (reportExport talks c) := by
  apply within_bind passage _ _ (within_record passage _ _ _)
  intro _
  cases talks with
  | false => exact within_pure passage ()
  | true => exact within_modify _ fun w => complains w _

section

variable (sends : ∀ w (r : WireRequest), r.Bare → R w { w with exchanges := .sent r :: w.exchanges })
  (waits : ∀ w (n : Nat), R w { w with waits := n :: w.waits }) (writes : ∀ w files, R w { w with files })

include sends waits writes

theorem asset_within (root : Path) (redirects : Bool) (a : Asset) : Within R (exportAsset root redirects a) := by
  apply within_bind passage _ _ (target_within passage root a.path)
  intro p
  apply within_bind passage _ _ (within_download passage sends waits a.url redirects)
  intro body
  exact within_bind passage _ _ (within_change passage writes _ _) fun _ => within_store passage writes p body

end

variable (complains : ∀ w errors, R w { w with errors })

include complains

theorem saving_within (root : Path) (redirects talks : Bool) (i : Nat) (a : Asset)
    (inside : Within R (exportAsset root redirects a)) : Within R (exportWork root redirects talks i a) := by
  have told : ∀ c : Option Pool.Complaint, Within R (c.forM (reportExport talks)) := by
    intro c
    cases c with
    | none => exact within_pure passage _
    | some problem => exact told_within passage complains talks problem
  apply within_bind passage _ _ (within_outcome _ inside)
  intro result
  split
  · exact within_throw passage _
  · exact within_bind passage _ _ (told _) fun _ => within_pure passage _

theorem export_within (sends : ∀ w (r : WireRequest), r.Bare → R w { w with exchanges := .sent r :: w.exchanges })
    (waits : ∀ w (n : Nat), R w { w with waits := n :: w.waits }) (writes : ∀ w files, R w { w with files })
    (send : Sender) (inside : ∀ r : Request, r.Routed → Within R (send r)) (group app : String) (folder : Path)
    (style : ExportStyle) : Within R (exportAssets send group app folder style) := by
  apply within_bind passage _ _ (within_call passage send _ (inside _ (listed_routed group app)))
  intro assets
  have described : Within R (Manifest.save (Manifest.location folder) (Asset.descriptions assets)) :=
    within_bind passage _ _ (within_change passage writes _ _) fun _ => within_store passage writes _ _
  apply within_bind passage _ _ described
  intro _
  apply within_bind passage _ _ (within_change passage writes _ _)
  intro _
  apply within_bind passage _ _ (real_within passage _)
  intro root
  have saved : ∀ i a, Within R (exportWork root style.redirects style.talks i a) := fun i a =>
    saving_within passage complains root _ _ i a (asset_within passage sends waits writes root _ a)
  apply within_bind passage _ _ (pool_within passage _ _ _ fun i a _ => saved i a)
  intro complaints
  split
  · exact within_throw passage _
  · exact within_bind passage _ _ (within_record passage _ _ _) fun _ => within_pure passage assets

end Hosting

end HostingAdmin
