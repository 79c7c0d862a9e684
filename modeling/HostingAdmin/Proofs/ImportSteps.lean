import HostingAdmin.Hosting.Import
import HostingAdmin.Proofs.Routes

set_option autoImplicit false

namespace HostingAdmin.Hosting

variable {R : World → World → Prop} (passage : Action.Passage R)

section

variable {α : Type} (t : Batch.Trade α) (works : ∀ i job, Action.Within R (t.work i job))
  (reports : ∀ c, Action.Within R (t.report c)) (forgets : ∀ path, Action.Within R (t.forget path))

include passage works reports forgets

theorem advance_within (b : Batch α) (task : Batch.Task α) : Action.Within R (t.advance b task) := by
  have told : Action.Within R (t.tell b) := by
    rw [Batch.Trade.tell]
    split
    · exact reports _
    · exact Action.within_pure passage ()
  cases task with
  | work i job => exact Action.within_bind passage _ _ (works i job) (fun _ => Action.within_pure passage _)
  | forget =>
      exact Action.within_bind passage _ _ (Action.within_outcome _ (forgets allPaths))
        (fun _ => Action.within_pure passage _)
  | move m =>
      cases m with
      | collect => exact Action.within_bind passage _ _ told (fun _ => Action.within_pure passage _)
      | _ => exact Action.within_pure passage _

theorem batch_within (n : Nat) (jobs : List α) (resetCache : Bool) : Action.Within R (t.run n jobs resetCache) := by
  have driven : ∀ fuel b, Action.Within R (t.drive fuel b) := by
    intro fuel
    induction fuel with
    | zero => exact fun b => Action.within_pure passage b
    | succ fuel ih =>
        intro b
        rw [Batch.Trade.drive]
        split
        · exact Action.within_pure passage b
        · apply Action.within_bind passage _ _ (advance_within passage t works reports forgets b _)
          intro moved
          cases moved with
          | none => exact Action.within_pure passage b
          | some c => exact ih c
  apply Action.within_bind passage _ _ (driven _ _)
  intro b
  split
  · exact Action.within_pure passage _
  · exact Action.within_throw passage _

end

section

variable (site : Site) (send : Sender) (inside : ∀ r : Request, r.Routed → Action.Within R (send r))

include passage inside

theorem effect_within (effect : Operation.Effect) : Action.Within R (effect.perform site send) := by
  cases effect with
  | upload a =>
      apply Action.within_bind passage _ _ (Action.within_load passage _)
      intro body
      apply Action.within_bind passage _ _ (Action.within_mark passage)
      intro boundary
      exact Action.within_call passage send _ (inside _ (uploaded_routed _ _ body boundary))
  | delete path => exact Action.within_call passage send _ (inside _ (deleted_routed site.group site.app path))
  | setAttributes path attrs =>
      exact Action.within_call passage send _ (inside _ (changed_routed site.group site.app path attrs))
  | nothing => exact Action.within_pure passage ()

theorem work_within (i : Nat) (op : Operation) : Action.Within R (Operation.work site send i op) := by
  apply Action.within_bind passage _ _ (Action.within_outcome _ (effect_within passage site send inside op.effect))
  intro outcome
  split
  · exact Action.within_bind passage _ _ (Action.within_record passage _ _ _)
      fun _ => Action.within_pure passage none
  · exact Action.within_throw passage .interrupted
  · exact Action.within_pure passage _

theorem forget_within (workers : Int) (path : String) : Action.Within R (forget site send workers path) :=
  Action.within_bind passage _ _ (Action.within_record passage _ _ _)
    fun _ => Action.within_call passage send _ (inside _ (forgotten_routed site.group site.app path))

theorem import_within (complains : ∀ w errors, R w { w with errors }) (d : Diff) (resetCache : Bool) (workers : Int) :
    Action.Within R (importAssets site d resetCache send workers) := by
  have reports : ∀ c, Action.Within R (reportImport c) := fun c =>
    Action.within_bind passage _ _ (Action.within_record passage _ _ _)
      fun _ => Action.within_modify _ fun w => complains w _
  have ran := batch_within passage (importTrade site send workers) (work_within passage site send inside) reports
    (forget_within passage site send inside workers) workers.toNat (Operation.ofDiff d) resetCache
  rw [importAssets]
  split
  · exact Action.within_throw passage _
  · refine Action.within_bind passage _ _ (Action.within_record passage _ _ _) (fun _ => ?_)
    refine Action.within_bind passage _ _ ran (fun e => ?_)
    split
    · exact Action.within_record passage _ _ _
    · exact Action.within_bind passage _ _ (Action.within_record passage _ _ _) fun _ => Action.within_throw passage _
    · exact Action.within_throw passage _

end

end HostingAdmin.Hosting
