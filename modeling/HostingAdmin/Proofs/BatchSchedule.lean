import HostingAdmin.Proofs.Actions
import HostingAdmin.Proofs.BatchInvariant
import HostingAdmin.Proofs.PoolSchedule

set_option autoImplicit false

namespace HostingAdmin.Hosting.Batch

variable {α : Type}

theorem step_smaller (b c : Batch α) (m : Move) (moved : b.step m = some c) : c.size < b.size := by
  cases m with
  | put =>
      simp only [step, put] at moved
      split at moved
      · obtain ⟨p, putEq, rfl⟩ := Option.map_eq_some_iff.mp moved
        have smaller := Pool.put_smaller b.pool p putEq
        simp only [size]
        omega
      · cases moved
  | take i =>
      obtain ⟨p, takeEq, rfl⟩ := Option.map_eq_some_iff.mp moved
      have smaller := Pool.take_smaller b.pool p i takeEq
      simp only [size]
      omega
  | finish i complaint =>
      obtain ⟨p, finishEq, rfl⟩ := Option.map_eq_some_iff.mp moved
      have smaller := Pool.finish_smaller b.pool p i _ finishEq
      have one : ((complaint.map some).toList : List (Option Pool.Complaint)).length ≤ 1 := by
        cases complaint <;> simp
      simp only [size, List.length_append]
      omega
  | collect =>
      simp only [step, collect] at moved
      split at moved
      · rename_i waitingEq
        cases moved
        simp [size, waitingEq]
      · rename_i waitingEq
        cases moved
        simp [size, waitingEq]
      · cases moved
  | join =>
      simp only [step, join] at moved
      split at moved
      · rename_i stageEq
        split at moved
        · cases moved
          simp only [size, stageEq, Stage.distance, List.length_append, List.length_singleton]
          omega
        · cases moved
      · cases moved
  | conclude =>
      simp only [step, conclude] at moved
      split at moved
      · rename_i stageEq _
        split at moved
        · cases moved
          simp [size, stageEq, Stage.distance]
        · split at moved
          · cases moved
            simp [size, stageEq, Stage.distance]
          · cases moved
            simp [size, stageEq, Stage.distance]
      · cases moved
  | answer outcome =>
      simp only [step, answer] at moved
      split at moved
      · rename_i stageEq
        cases moved
        simp [size, stageEq, Stage.distance]
      · rename_i stageEq
        cases moved
        simp [size, stageEq, Stage.distance]
      · cases moved

-- What has to hold for a task to be possible, whatever comes of it.
def Fits (b : Batch α) : Task α → Prop
  | .move m => ∃ c, b.step m = some c
  | .work i _ => ∀ complaint, ∃ c, b.finish i complaint = some c
  | .forget => ∀ outcome, ∃ c, b.answer outcome = some c

theorem pool_task_fits (b : Batch α) (task : Pool.Task α) (working : b.stage = .working)
    (fits : Pool.Fits b.pool task) : Fits b (Task.ofPool task) := by
  cases task with
  | put =>
      obtain ⟨p, putEq⟩ := fits
      exact ⟨{ b with pool := p }, by simp only [step, put, working, putEq, Option.map_some]⟩
  | take i =>
      obtain ⟨p, takeEq⟩ := fits
      exact ⟨{ b with pool := p }, by simp only [step, take, takeEq, Option.map_some]⟩
  | work i job =>
      intro complaint
      have atWork : b.pool.workers[i]? = some (.busy job) := fits
      simp only [finish, Pool.State.finish, atWork, Option.map_some]
      exact ⟨_, rfl⟩

theorem over_pool_idle (s : Pool.State α) (allOver : s.isOver = true) : s.next? = none := by
  cases nextEq : s.next? with
  | none => rfl
  | some task =>
      have fits := Pool.next_fits s task nextEq
      cases task with
      | put =>
          obtain ⟨t, putEq⟩ := fits
          obtain ⟨x, rest, pendingEq, _⟩ := Pool.pool_put_cases s t putEq
          simp [Pool.State.isOver, pendingEq] at allOver
      | take i =>
          obtain ⟨t, takeEq⟩ := fits
          exact (over_no_take s t i allOver takeEq).elim
      | work i job =>
          have atWork : s.workers[i]? = some (.busy job) := fits
          obtain ⟨t, finishEq⟩ : ∃ t, s.finish i .done = some t := by
            simp only [Pool.State.finish, atWork]
            exact ⟨_, rfl⟩
          exact (over_no_finish s t i .done allOver finishEq).elim

theorem stopped_over (s : Pool.State α) (stopped : ∀ w ∈ s.workers, w = .stopped)
    (empty : s.queue ++ s.pending = []) : s.isOver = true := by
  simp only [Pool.State.isOver, Bool.and_eq_true, List.isEmpty_iff, List.all_eq_true]
  refine ⟨(List.append_eq_nil_iff.mp empty).2, ?_⟩
  intro w member
  rw [stopped w member]
  rfl

theorem collect_possible (b : Batch α) (due : (b.collecting && !b.waiting.isEmpty) = true) :
    ∃ c, b.collect = some c := by
  rw [Bool.and_eq_true] at due
  cases waitingEq : b.waiting with
  | nil => simp [waitingEq] at due
  | cons first rest => cases first <;> simp [collect, due.1, waitingEq]

theorem next_exists (n : Nat) (jobs : List α) (b : Batch α) (positive : 1 ≤ n)
    (account : Account n jobs b) (running : ∀ e, b.stage ≠ .ended e) :
    ∃ task, b.next? = some task ∧ Fits b task := by
  rw [next?]
  by_cases due : (b.collecting && !b.waiting.isEmpty) = true
  · rw [if_pos due]
    exact ⟨_, rfl, collect_possible b due⟩
  · rw [if_neg due]
    have staged := account.staged
    cases stageEq : b.stage with
    | working =>
        cases poolEq : b.pool.next? with
        | some task => exact ⟨_, rfl, pool_task_fits b task stageEq (Pool.next_fits b.pool task poolEq)⟩
        | none =>
            have stopped := Pool.stuck_pool_stopped n jobs b.pool positive account.tally account.steady poolEq
            have done := Pool.all_stopped_done n jobs b.pool positive account.tally stopped
            have allOver := stopped_over b.pool stopped done.2.1
            refine ⟨.move .join, by simp only [ownerNext?, stageEq, allOver, if_true], ?_⟩
            simp [Fits, step, join, stageEq, allOver]
    | draining =>
        rw [stageEq] at staged
        rcases staged.1 with ⟨_, collecting, untold, waitingEq⟩ | ⟨allOver, stopped, _⟩
        · simp [collecting, waitingEq] at due
        · rw [over_pool_idle b.pool allOver]
          refine ⟨.move .conclude, by simp [ownerNext?, stageEq, stopped], ?_⟩
          cases reportedEq : b.reported <;> cases wished : b.resetCache <;>
            simp [Fits, step, conclude, stageEq, stopped, reportedEq, wished]
    | clearing =>
        rw [stageEq] at staged
        rw [over_pool_idle b.pool staged.1.1]
        refine ⟨.forget, by simp only [ownerNext?, stageEq], ?_⟩
        intro outcome
        rcases outcome with f | ⟨⟩ <;> simp [answer, stageEq]
    | ended e => exact (running e stageEq).elim

theorem ended_next_none (n : Nat) (jobs : List α) (b : Batch α) (e : Ending) (account : Account n jobs b)
    (ended : b.stage = .ended e) : b.next? = none := by
  have staged := account.staged
  rw [ended] at staged
  obtain ⟨⟨allOver, stopped, _⟩, _⟩ := staged
  simp [next?, stopped, over_pool_idle b.pool allOver, ownerNext?, ended]

theorem task_moves (b : Batch α) (task : Task α) (fits : Fits b task) : ∃ c m, b.step m = some c := by
  cases task with
  | move m =>
      obtain ⟨c, moved⟩ := fits
      exact ⟨c, m, moved⟩
  | work i job =>
      obtain ⟨c, moved⟩ := fits none
      exact ⟨c, .finish i none, moved⟩
  | forget =>
      obtain ⟨c, moved⟩ := fits (.ok ())
      exact ⟨c, .answer (.ok ()), moved⟩

theorem step_run (b c d : Batch α) (m : Move) (moved : b.step m = some c) (run : Run c d) : Run b d := by
  induction run with
  | rest => exact .move b c m .rest moved
  | move x y k _ further ih => exact .move x y k ih further

namespace Trade

-- What the schedule of a batch may propose.
def Scheduled (b : Batch α) : Task α → Prop
  | .move (.answer _) => False
  | .move (.finish _ _) => False
  | .move _ => True
  | .work i job => b.pool.workers[i]? = some (.busy job)
  | .forget => b.stage = .clearing

theorem next_scheduled (b : Batch α) (task : Task α) (next : b.next? = some task) : Scheduled b task := by
  rw [next?] at next
  split at next
  · cases next
    trivial
  · split at next
    · rename_i task proposed
      have fits := Pool.next_fits b.pool task proposed
      cases task with
      | work i job =>
          cases next
          exact fits
      | _ =>
          cases next
          trivial
    · rw [ownerNext?] at next
      split at next
      · split at next <;> cases next
        trivial
      · split at next <;> cases next
        trivial
      · rename_i clearing
        cases next
        exact clearing
      · cases next

-- `p` holds of every failure that ends more than the job or the report it comes from.
def Throws (t : Trade α) (jobs : List α) (p : Failure → Prop) : Prop :=
  (∀ i, ∀ job ∈ jobs, ∀ w f v, (t.work i job).perform w = (.error f, v) → p f) ∧
    ∀ c w f v, (t.report c).perform w = (.error f, v) → p f

section

variable (t : Trade α) (jobs : List α) (p : Failure → Prop) (throws : t.Throws jobs p)

include throws

theorem tell_throws (b : Batch α) (w v : World) (f : Failure) (performed : (t.tell b).perform w = (.error f, v)) :
    p f := by
  rw [tell] at performed
  split at performed
  · exact throws.2 _ w f v performed
  · simp at performed

omit throws in
theorem advance_other (b : Batch α) (m : Move) (other : m ≠ .collect) :
    t.advance b (.move m) = pure (b.step m) := by
  cases m with
  | collect => exact (other rfl).elim
  | _ => rfl

theorem move_advances (b : Batch α) (m : Move) (w : World) (fits : ∃ c, b.step m = some c) :
    (∃ f v, (t.advance b (.move m)).perform w = (.error f, v) ∧ p f) ∨
      ∃ c v, (t.advance b (.move m)).perform w = (.ok (some c), v) ∧ b.step m = some c := by
  obtain ⟨c, moved⟩ := fits
  by_cases collecting : m = .collect
  · subst collecting
    rcases toldEq : (t.tell b).perform w with ⟨f | ⟨⟩, v⟩
    · refine .inl ⟨f, v, ?_, tell_throws t jobs p throws b w v f toldEq⟩
      simp only [advance, Action.perform_bind, toldEq]
    · refine .inr ⟨c, v, ?_, moved⟩
      simp only [advance, Action.perform_bind, toldEq]
      exact congrArg (fun r => (Except.ok r, v)) moved
  · refine .inr ⟨c, w, ?_, moved⟩
    rw [advance_other t b m collecting, moved, Action.perform_pure]

theorem task_advances (b : Batch α) (task : Task α) (w : World) (fits : Fits b task)
    (planned : ∀ i job, task = .work i job → job ∈ jobs) :
    (∃ f v, (t.advance b task).perform w = (.error f, v) ∧ p f) ∨
      ∃ c v m, (t.advance b task).perform w = (.ok (some c), v) ∧ b.step m = some c := by
  cases task with
  | move m =>
      rcases move_advances t jobs p throws b m w fits with failed | ⟨c, v, performed, moved⟩
      · exact .inl failed
      · exact .inr ⟨c, v, m, performed, moved⟩
  | work i job =>
      rcases workEq : (t.work i job).perform w with ⟨f | complaint, v⟩
      · refine .inl ⟨f, v, ?_, throws.1 i job (planned i job rfl) w f v workEq⟩
        simp only [advance, Action.perform_bind, workEq]
      · obtain ⟨c, moved⟩ := fits complaint
        refine .inr ⟨c, v, .finish i complaint, ?_, moved⟩
        simp only [advance, Action.perform_bind, workEq, Action.perform_pure, moved]
  | forget =>
      obtain ⟨c, moved⟩ := fits ((t.forget allPaths).perform w).1
      refine .inr ⟨c, ((t.forget allPaths).perform w).2, .answer ((t.forget allPaths).perform w).1, ?_, moved⟩
      simp only [advance, Action.perform_bind, Action.perform_outcome, Action.perform_pure, moved]

end

-- What some order of tasks leads to, each of them carried out in the world that the ones
-- before it have left.
inductive Course (t : Trade α) (b : Batch α) (w : World) : Batch α → World → Prop where
  | rest : Course t b w b w
  | go (c d : Batch α) (u v : World) (task : Task α) (earlier : Course t b w c u) (scheduled : Scheduled c task)
      (done : (t.advance c task).perform u = (.ok (some d), v)) : Course t b w d v

-- `I` ties a batch to the world in which it has come so far.
def Keeps (t : Trade α) (I : Batch α → World → Prop) : Prop :=
  ∀ b task w c v, I b w → Scheduled b task → (t.advance b task).perform w = (.ok (some c), v) → I c v

section

variable (t : Trade α)

theorem move_step (b c : Batch α) (m : Move) (w v : World)
    (done : (t.advance b (.move m)).perform w = (.ok (some c), v)) : b.step m = some c := by
  by_cases collecting : m = .collect
  · subst collecting
    obtain ⟨⟨⟩, u, _, collected⟩ := Action.bind_ok _ _ w v _ done
    exact Except.ok.inj (Prod.mk.inj collected).1
  · rw [advance_other t b m collecting] at done
    exact Except.ok.inj (Prod.mk.inj done).1

theorem advance_step (b c : Batch α) (task : Task α) (w v : World)
    (done : (t.advance b task).perform w = (.ok (some c), v)) : ∃ m, b.step m = some c := by
  cases task with
  | work i job =>
      obtain ⟨complaint, u, _, finished⟩ := Action.bind_ok _ _ w v _ done
      exact ⟨.finish i complaint, Except.ok.inj (Prod.mk.inj finished).1⟩
  | forget =>
      obtain ⟨outcome, u, _, answered⟩ := Action.bind_ok _ _ w v _ done
      exact ⟨.answer outcome, Except.ok.inj (Prod.mk.inj answered).1⟩
  | move m => exact ⟨m, move_step t b c m w v done⟩

theorem course_run (b c : Batch α) (w v : World) (course : Course t b w c v) : Run b c := by
  induction course with
  | rest => exact .rest
  | go c d u v task _ _ done ih =>
      obtain ⟨m, moved⟩ := advance_step t c d task u v done
      exact .move c d m ih moved

theorem course_first (b c d : Batch α) (w u v : World) (task : Task α) (scheduled : Scheduled b task)
    (done : (t.advance b task).perform w = (.ok (some c), u)) (after : Course t c u d v) : Course t b w d v := by
  induction after with
  | rest => exact .go b c w u task .rest scheduled done
  | go x y s z k _ later moved ih => exact .go x y s z k ih later moved

theorem course_moves (b c d : Batch α) (w v : World) (course : Course t b w c v) (m : Move) (other : m ≠ .collect)
    (scheduled : Scheduled c (.move m)) (moved : c.step m = some d) : Course t b w d v :=
  .go c d v v (.move m) course scheduled (by rw [advance_other t c m other, moved, Action.perform_pure])

theorem course_works (b c d : Batch α) (w u v : World) (course : Course t b w c u) (i : Nat) (job : α)
    (complaint : Option Pool.Complaint) (atWork : c.pool.workers[i]? = some (.busy job))
    (worked : (t.work i job).perform u = (.ok complaint, v)) (finished : c.finish i complaint = some d) :
    Course t b w d v :=
  .go c d u v (.work i job) course atWork
    (by simp only [advance, Action.perform_bind, worked, Action.perform_pure, finished])

theorem course_keeps (I : Batch α → World → Prop) (keeps : t.Keeps I) (b c : Batch α) (w v : World) (holds : I b w)
    (course : Course t b w c v) : I c v := by
  induction course with
  | rest => exact holds
  | go c d u v task _ scheduled done ih => exact keeps c task u d v ih scheduled done

end

section

variable (t : Trade α) (jobs : List α) (p : Failure → Prop) (throws : t.Throws jobs p)

include throws

theorem drive_ends (n : Nat) (positive : 1 ≤ n) (fuel : Nat) (b : Batch α)
    (account : Account n jobs b) (enough : b.size ≤ fuel) (w : World) :
    (∃ f v, (t.drive fuel b).perform w = (.error f, v) ∧ p f) ∨
      ∃ c v e, (t.drive fuel b).perform w = (.ok c, v) ∧ Course t b w c v ∧ c.stage = .ended e := by
  induction fuel generalizing b w with
  | zero =>
      by_cases ended : ∃ e, b.stage = .ended e
      · obtain ⟨e, stageEq⟩ := ended
        exact .inr ⟨b, w, e, rfl, .rest, stageEq⟩
      · obtain ⟨task, _, fits⟩ := next_exists n jobs b positive account (not_exists.mp ended)
        obtain ⟨c, m, moved⟩ := task_moves b task fits
        have smaller := step_smaller b c m moved
        omega
  | succ fuel ih =>
      by_cases ended : ∃ e, b.stage = .ended e
      · obtain ⟨e, stageEq⟩ := ended
        refine .inr ⟨b, w, e, ?_, .rest, stageEq⟩
        simp only [drive, ended_next_none n jobs b e account stageEq, Action.perform_pure]
      · obtain ⟨task, nextEq, fits⟩ := next_exists n jobs b positive account (not_exists.mp ended)
        simp only [drive, nextEq]
        have scheduled := next_scheduled b task nextEq
        have planned : ∀ i job, task = .work i job → job ∈ jobs := by
          intro i job same
          subst same
          exact Pool.job_planned n jobs b.pool account.tally i job scheduled
        rcases task_advances t jobs p throws b task w fits planned with
          ⟨f, v, performed, fails⟩ | ⟨c, v, m, performed, moved⟩
        · exact .inl ⟨f, v, by simp only [Action.perform_bind, performed], fails⟩
        · simp only [Action.perform_bind, performed]
          have smaller := step_smaller b c m moved
          rcases ih c (step_account n jobs b c m account moved) (by omega) v with
            failed | ⟨d, u, e, driven, course, stageEq⟩
          · exact .inl failed
          · exact .inr ⟨d, u, e, driven, course_first t b c d w v u task scheduled performed course, stageEq⟩

theorem run_ends (n : Nat) (positive : 1 ≤ n) (resetCache : Bool) (w : World) :
    (∃ f v, (t.run n jobs resetCache).perform w = (.error f, v) ∧ p f) ∨
      ∃ b v e, (t.run n jobs resetCache).perform w = (.ok e, v) ∧
        Course t (Batch.start n jobs resetCache) w b v ∧ b.stage = .ended e := by
  unfold run
  dsimp only
  rcases drive_ends t jobs p throws n positive _ _ (start_account n jobs resetCache) (Nat.le_refl _) w with
    ⟨f, v, driven, fails⟩ | ⟨b, v, e, driven, course, stageEq⟩
  · exact .inl ⟨f, v, by simp only [Action.perform_bind, driven], fails⟩
  · exact .inr ⟨b, v, e, by simp only [Action.perform_bind, driven, stageEq, Action.perform_pure], course, stageEq⟩

end

end Trade

end HostingAdmin.Hosting.Batch
