import HostingAdmin.Proofs.BatchSchedule

set_option autoImplicit false

namespace HostingAdmin

open HostingAdmin.Action

namespace Pool

variable {α : Type}

-- A worker that is lost was lost to a failure.
def Missed (s : State α) : Prop := .crashed ∈ s.workers → s.crash? ≠ none

theorem crash_none (s : State α) : s.crash? = none ↔ ∀ x ∈ s.finished, x.2.failure? = none := by
  rw [State.crash?, List.findSome?_eq_none_iff]

theorem put_missed (s t : State α) (moved : s.put = some t) (missed : Missed s) : Missed t := by
  obtain ⟨_, _, _, _, rfl⟩ := pool_put_cases s t moved
  exact missed

theorem take_missed (s t : State α) (i : Nat) (moved : s.take i = some t) (missed : Missed s) : Missed t := by
  intro lost
  obtain ⟨_, rest, ⟨_, rfl⟩ | ⟨job, _, rfl⟩⟩ := pool_take_cases s t i moved
  · rcases List.mem_or_eq_of_mem_set lost with old | fresh
    · exact missed old
    · cases fresh
  · rcases List.mem_or_eq_of_mem_set lost with old | fresh
    · exact missed old
    · cases fresh

theorem finish_missed (s t : State α) (i : Nat) (v : Verdict) (moved : s.finish i v = some t)
    (missed : Missed s) : Missed t := by
  obtain ⟨job, _, rfl⟩ := pool_finish_cases s t i v moved
  intro lost whole
  obtain ⟨before, last⟩ : s.crash? = none ∧ v.failure? = none := by
    rw [crash_none] at whole ⊢
    exact ⟨fun x member => whole x (List.mem_append_left _ member), whole (job, v) (by simp)⟩
  rcases List.mem_or_eq_of_mem_set lost with old | fresh
  · exact missed old before
  · cases v with
    | crashed f => cases last
    | done => cases fresh
    | failed c => cases fresh

-- Unless a worker was lost, a pool in which nothing can move has done all.
theorem stuck_over (n : Nat) (jobs : List α) (s : State α) (positive : 1 ≤ n) (tally : Tally n jobs s)
    (missed : Missed s) (crash : s.crash? = none) (stuck : s.next? = none) : s.isOver = true := by
  have steady : ∀ w ∈ s.workers, w ≠ .crashed := by
    rintro w member rfl
    exact missed member crash
  have stopped := stuck_pool_stopped n jobs s positive tally steady stuck
  obtain ⟨_, empty, _⟩ := all_stopped_done n jobs s positive tally stopped
  exact Hosting.Batch.stopped_over s stopped empty

-- `K` ties a pool to the world in which it has come so far, whatever the schedule does.
structure Carries (work : Nat → α → Action Verdict) (P : Failure → Prop) (K : State α → World → Prop) : Prop where
  put : ∀ s t w, K s w → s.put = some t → K t w
  take : ∀ s t i w, K s w → s.take i = some t → K t w
  work : ∀ s i job w, K s w → s.workers[i]? = some (.busy job) →
    (∃ f v, (work i job).perform w = (.error f, v) ∧ P f) ∨
      ∃ verdict v t, (work i job).perform w = (.ok verdict, v) ∧ s.finish i verdict = some t ∧ K t v

section

variable (work : Nat → α → Action Verdict) (P : Failure → Prop) (K : State α → World → Prop)
  (carries : Carries work P K)

include carries

theorem advance_carries (s : State α) (task : Task α) (w : World) (holds : K s w) (fits : Fits s task) :
    (∃ f v, (advance work s task).perform w = (.error f, v) ∧ P f) ∨
      ∃ t v, (advance work s task).perform w = (.ok (some t), v) ∧ t.size < s.size ∧ K t v := by
  cases task with
  | put =>
      obtain ⟨t, moved⟩ := fits
      refine .inr ⟨t, w, ?_, put_smaller s t moved, carries.put s t w holds moved⟩
      rw [advance, moved, perform_pure]
  | take i =>
      obtain ⟨t, moved⟩ := fits
      refine .inr ⟨t, w, ?_, take_smaller s t i moved, carries.take s t i w holds moved⟩
      rw [advance, moved, perform_pure]
  | work i job =>
      rcases carries.work s i job w holds fits with ⟨f, v, performed, fails⟩ | ⟨verdict, v, t, performed, moved, kept⟩
      · exact .inl ⟨f, v, by rw [advance, perform_bind, performed], fails⟩
      · refine .inr ⟨t, v, ?_, finish_smaller s t i verdict moved, kept⟩
        rw [advance, perform_bind, performed]
        simp only [perform_pure, moved]

-- The schedule goes on until nothing is left that it could do.
theorem drive_carries (fuel : Nat) (s : State α) (enough : s.size ≤ fuel) (w : World) (holds : K s w) :
    (∃ f v, (drive work fuel s).perform w = (.error f, v) ∧ P f) ∨
      ∃ t v, (drive work fuel s).perform w = (.ok t, v) ∧ t.next? = none ∧ K t v := by
  induction fuel generalizing s w with
  | zero => exact .inr ⟨s, w, rfl, spent_none s (Nat.le_zero.mp enough), holds⟩
  | succ fuel ih =>
      cases next : s.next? with
      | none =>
          refine .inr ⟨s, w, ?_, next, holds⟩
          rw [drive, next, perform_pure]
      | some task =>
          rw [drive, next]
          rcases advance_carries work P K carries s task w holds (next_fits s task next) with
            ⟨f, v, performed, fails⟩ | ⟨t, v, performed, smaller, kept⟩
          · exact .inl ⟨f, v, by simp only [perform_bind, performed], fails⟩
          · simp only [perform_bind, performed]
            exact ih t (by omega) v kept

end

-- A pool without workers that only puts.
structure Deserted (w : World) (s : State α) (v : World) : Prop where
  same : v = w
  bound : s.bound = 0
  workers : s.workers = []
  finished : s.finished = []

theorem deserted_carries (work : Nat → α → Action Verdict) (w : World) :
    Carries work (fun _ => False) (Deserted w) where
  put s t v deserted moved := by
    obtain ⟨_, _, _, _, rfl⟩ := pool_put_cases s t moved
    exact ⟨deserted.same, deserted.bound, deserted.workers, deserted.finished⟩
  take s t i v deserted moved := by
    obtain ⟨there, _⟩ := pool_take_cases s t i moved
    rw [deserted.workers] at there
    cases there
  work s i job v deserted there := by
    rw [deserted.workers] at there
    cases there

theorem deserted_over (w v : World) (s : State α) (deserted : Deserted w s v) (stuck : s.next? = none) :
    s.isOver = true := by
  have idle : s.taker? = none := by simp [State.taker?, deserted.workers]
  have room : s.hasRoom = true := by simp [State.hasRoom, deserted.bound]
  rw [State.next?, deserted.workers] at stuck
  simp only [List.findIdx?_nil, idle, room, if_true] at stuck
  cases pending : s.pending with
  | nil => simp [State.isOver, pending, deserted.workers]
  | cons x rest =>
      rw [pending] at stuck
      cases stuck

theorem run_deserted (work : Nat → α → Action Verdict) (jobs : List α) (w : World) :
    (run work 0 jobs).perform w = (.ok [], w) := by
  have fresh : Deserted w (State.start 0 jobs) w := ⟨rfl, rfl, rfl, rfl⟩
  rcases drive_carries work _ _ (deserted_carries work w) _ _ (Nat.le_refl _) w fresh with
    ⟨_, _, _, never⟩ | ⟨s, v, performed, stuck, deserted⟩
  · exact never.elim
  · have allOver := deserted_over w v s deserted stuck
    have steady : s.crash? = none := by simp [State.crash?, deserted.finished]
    have silent : s.complaints = [] := by simp [State.complaints, deserted.finished]
    rw [run, perform_bind, performed]
    simp only [allOver, if_true, steady, perform_pure, silent, deserted.same]

end Pool

end HostingAdmin
