import HostingAdmin.Proofs.Outcomes
import HostingAdmin.Proofs.PoolRuns

set_option autoImplicit false

namespace HostingAdmin

open HostingAdmin.Action

section

variable {α : Type} {I : World → Prop} {P : Failure → Prop}

namespace Hosting.Batch.Trade

-- Only what the forgetting came to ends a batch as refused.
def Honest (P : Failure → Prop) (b : Batch α) : Prop := ∀ f, b.stage = .ended (.refused f) → P f

theorem step_honest (b c : Batch α) (m : Move) (honest : Honest P b) (moved : b.step m = some c)
    (fails : ∀ f, m = .answer (.error f) → P f) : Honest P c := by
  intro f ended
  cases m with
  | put =>
      simp only [step, put] at moved
      split at moved
      · obtain ⟨p, _, rfl⟩ := Option.map_eq_some_iff.mp moved
        exact honest f ended
      · cases moved
  | take i =>
      obtain ⟨p, _, rfl⟩ := Option.map_eq_some_iff.mp moved
      exact honest f ended
  | finish i complaint =>
      obtain ⟨p, _, rfl⟩ := Option.map_eq_some_iff.mp moved
      exact honest f ended
  | collect =>
      simp only [step, collect] at moved
      split at moved
      · cases moved
        exact honest f ended
      · cases moved
        exact honest f ended
      · cases moved
  | join =>
      simp only [step, join] at moved
      split at moved
      · split at moved
        · cases moved
          cases ended
        · cases moved
      · cases moved
  | conclude =>
      simp only [step, conclude] at moved
      split at moved
      · split at moved
        · cases moved
          cases ended
        · split at moved <;> cases moved <;> cases ended
      · cases moved
  | answer outcome =>
      simp only [step, answer] at moved
      split at moved
      · cases moved
        cases ended
      · cases moved
        cases ended
        exact fails f rfl
      · cases moved

-- A batch after a move that was possible.
def Moved (P : Failure → Prop) (b : Batch α) (next : Option (Batch α)) : Prop :=
  ∃ m c, next = some c ∧ b.step m = some c ∧ Honest P c

variable (t : Trade α) (works : ∀ i job, Ends I Any P (t.work i job)) (reports : ∀ c, Ends I Any P (t.report c))
  (forgets : ∀ path, Ends I Any P (t.forget path))

include works reports forgets

theorem advance_ends (b : Batch α) (task : Task α) (honest : Honest P b) (fits : Fits b task)
    (scheduled : Scheduled b task) : Ends I (Moved P b) P (t.advance b task) := by
  cases task with
  | work i job =>
      refine ends_bind _ _ (works i job) (fun complaint _ => ends_pure _ ?_)
      obtain ⟨c, moved⟩ := fits complaint
      exact ⟨.finish i complaint, c, moved, moved,
        step_honest b c (.finish i complaint) honest moved fun f same => by cases same⟩
  | forget =>
      refine ends_bind _ _ (ends_outcome _ (forgets allPaths)) (fun outcome judged => ends_pure _ ?_)
      obtain ⟨c, moved⟩ := fits outcome
      refine ⟨.answer outcome, c, moved, moved, step_honest b c (.answer outcome) honest moved ?_⟩
      rintro f ⟨⟩
      exact judged.2 f rfl
  | move m =>
      obtain ⟨c, moved⟩ := fits
      have told : Ends I Any P (t.tell b) := by
        rw [tell]
        split
        · exact reports _
        · exact ends_pure () trivial
      have reached : Moved P b (b.step m) := by
        refine ⟨m, c, moved, moved, step_honest b c m honest moved ?_⟩
        rintro f rfl
        exact scheduled.elim
      by_cases collecting : m = .collect
      · subst collecting
        exact ends_bind _ _ told fun _ _ => ends_pure _ reached
      · rw [advance_other t b m collecting]
        exact ends_pure _ reached

theorem drive_honest (n : Nat) (jobs : List α) (positive : 1 ≤ n) (fuel : Nat) (b : Batch α)
    (account : Account n jobs b) (enough : b.size ≤ fuel) (honest : Honest P b) :
    Ends I (fun c => Honest P c ∧ ∃ e, c.stage = .ended e) P (t.drive fuel b) := by
  induction fuel generalizing b with
  | zero =>
      by_cases ended : ∃ e, b.stage = .ended e
      · exact ends_pure b ⟨honest, ended⟩
      · obtain ⟨task, _, fits⟩ := next_exists n jobs b positive account (not_exists.mp ended)
        obtain ⟨c, m, moved⟩ := task_moves b task fits
        have smaller := step_smaller b c m moved
        omega
  | succ fuel ih =>
      by_cases ended : ∃ e, b.stage = .ended e
      · have stops : t.drive (fuel + 1) b = pure b := by
          obtain ⟨e, stageEq⟩ := ended
          simp only [drive, ended_next_none n jobs b e account stageEq]
        rw [stops]
        exact ends_pure b ⟨honest, ended⟩
      · obtain ⟨task, nextEq, fits⟩ := next_exists n jobs b positive account (not_exists.mp ended)
        simp only [drive, nextEq]
        refine ends_bind _ _ (advance_ends t works reports forgets b task honest fits (next_scheduled b task nextEq)) ?_
        rintro _ ⟨m, c, rfl, moved, kept⟩
        have smaller := step_smaller b c m moved
        exact ih c (step_account n jobs b c m account moved) (by omega) kept

theorem run_honest (n : Nat) (jobs : List α) (positive : 1 ≤ n) (resetCache : Bool) :
    Ends I (fun e => ∀ f, e = .refused f → P f) P (t.run n jobs resetCache) := by
  have fresh : Honest P (Batch.start n jobs resetCache) := fun f ended => by cases ended
  refine ends_bind _ _ (drive_honest t works reports forgets n jobs positive _ _
    (start_account n jobs resetCache) (Nat.le_refl _) fresh) ?_
  rintro b ⟨honest, e, stageEq⟩
  rw [stageEq]
  refine ends_pure e ?_
  rintro f rfl
  exact honest f stageEq

end Hosting.Batch.Trade

namespace Pool

-- A pool on its way: the workers that it lost were lost to failures of `L`.
structure Losing (L : Failure → Prop) (n : Nat) (jobs : List α) (s : State α) : Prop where
  losses : ∀ x ∈ s.finished, ∀ f, x.2.failure? = some f → L f
  tally : Tally n jobs s
  missed : Missed s

variable {L : Failure → Prop} (work : Nat → α → Action Verdict) (n : Nat) (jobs : List α)
  (works : ∀ i job, job ∈ jobs → Ends I (fun v => ∀ f, v.failure? = some f → L f) P (work i job))

include works

theorem advance_losing (s : State α) (task : Task α) (losing : Losing L n jobs s) (fits : Fits s task) :
    Ends I (fun next => ∃ t, next = some t ∧ t.size < s.size ∧ Losing L n jobs t) P (advance work s task) := by
  cases task with
  | put =>
      obtain ⟨t, moved⟩ := fits
      obtain ⟨_, _, _, _, rfl⟩ := pool_put_cases s t moved
      exact ends_pure _ ⟨_, moved, put_smaller s _ moved,
        losing.losses, put_tally n jobs s _ losing.tally moved, put_missed s _ moved losing.missed⟩
  | take i =>
      obtain ⟨t, moved⟩ := fits
      refine ends_pure _ ⟨t, moved, take_smaller s t i moved, ?_, take_tally n jobs s t i losing.tally moved,
        take_missed s t i moved losing.missed⟩
      obtain ⟨_, _, ⟨_, rfl⟩ | ⟨_, _, rfl⟩⟩ := pool_take_cases s t i moved
      all_goals exact losing.losses
  | work i job =>
      have planned := job_planned n jobs s losing.tally i job fits
      refine ends_bind _ _ (works i job planned) (fun v lost => ?_)
      obtain ⟨t, moved⟩ : ∃ t, s.finish i v = some t := by
        have atWork : s.workers[i]? = some (.busy job) := fits
        simp only [State.finish, atWork]
        exact ⟨_, rfl⟩
      refine ends_pure _ ⟨t, moved, finish_smaller s t i v moved, ?_, finish_tally n jobs s t i v losing.tally moved,
        finish_missed s t i v moved losing.missed⟩
      obtain ⟨job', _, rfl⟩ := pool_finish_cases s t i v moved
      intro x member f failed
      rcases List.mem_append.mp member with before | last
      · exact losing.losses x before f failed
      · rw [List.mem_singleton] at last
        subst last
        exact lost f failed

theorem drive_losing (fuel : Nat) (s : State α) (enough : s.size ≤ fuel) (losing : Losing L n jobs s) :
    Ends I (fun t => Losing L n jobs t ∧ t.next? = none) P (drive work fuel s) := by
  induction fuel generalizing s with
  | zero => exact ends_pure s ⟨losing, spent_none s (Nat.le_zero.mp enough)⟩
  | succ fuel ih =>
      cases next : s.next? with
      | none =>
          rw [drive, next]
          exact ends_pure s ⟨losing, next⟩
      | some task =>
          rw [drive, next]
          refine ends_bind _ _ (advance_losing work n jobs works s task losing (next_fits s task next)) ?_
          rintro _ ⟨t, rfl, smaller, kept⟩
          exact ih t (by omega) kept

-- A pool fails as its workers do, and it stalls only if it has lost some.
theorem run_losing : Ends I Any (fun f => P f ∨ L f ∨ f = .stalled ∧ ∃ g, L g) (run work n jobs) := by
  rcases Nat.eq_zero_or_pos n with rfl | positive
  · intro w holds
    rw [run_deserted work jobs w]
    refine ⟨holds, fun _ _ => trivial, ?_⟩
    rintro f ⟨⟩
  · have fresh : Losing L n jobs (State.start n jobs) := by
      refine ⟨?_, start_tally n jobs, ?_⟩
      · intro x member
        cases member
      · intro lost
        cases List.eq_of_mem_replicate lost
    have driven := ends_weaken (S := fun f => P f ∨ L f ∨ f = .stalled ∧ ∃ g, L g) _
      (drive_losing work n jobs works _ _ (Nat.le_refl _) fresh) (fun _ fine => fine) fun _ => .inl
    refine ends_bind _ _ driven ?_
    rintro s ⟨losing, stuck⟩
    have missing : ∀ f, s.crash? = some f → L f := by
      intro f crashed
      obtain ⟨x, member, lost⟩ := List.exists_of_findSome?_eq_some crashed
      exact losing.losses x member f lost
    cases crash : s.crash? with
    | none =>
        rw [stuck_over n jobs s positive losing.tally losing.missed crash stuck]
        exact ends_pure _ trivial
    | some f =>
        split
        · exact ends_throw f (.inr (.inl (missing f crash)))
        · exact ends_throw _ (.inr (.inr ⟨rfl, f, missing f crash⟩))

end Pool

end

end HostingAdmin
