import HostingAdmin.Hosting.Import
import HostingAdmin.Proofs.BatchSchedule
import HostingAdmin.Proofs.ImportSteps

set_option autoImplicit false

namespace HostingAdmin.Hosting

open Batch

-- The operations that ended with a complaint, in the order in which they ended.
def Batch.failures {α : Type} (b : Batch α) : List α :=
  b.pool.finished.filterMap fun x => x.2.complaint?.map fun _ => x.1

-- What the caller of an import gets to see of an ending.
def Ending.outcome : Ending → Except Failure Unit
  | .clean => .ok ()
  | .failed count first => .error (.importing count first.text)
  | .refused f => .error f

-- All operations have been done, the user was told of the failed ones, and
-- the ending and the fate of the cache follow from those.
structure Settled (ops : List Operation) (resetCache : Bool) (b : Batch Operation) (e : Ending) : Prop where
  taken : b.pool.taken = ops
  finished : (b.pool.finished.map Prod.fst).Perm ops
  reported : b.reported = b.pool.complaints
  oncePerFailure : b.reported.length = b.failures.length
  raised : (∃ count first, e = .failed count first) ↔ b.failures ≠ []
  counted : ∀ count first, e = .failed count first →
    count = b.failures.length ∧ b.reported.head? = some first
  forgotten : b.forgotten = if resetCache = true ∧ b.failures = [] then [allPaths] else []

theorem complaints_count {α : Type} (b : Batch α) : b.pool.complaints.length = b.failures.length := by
  unfold Pool.State.complaints Batch.failures
  induction b.pool.finished with
  | nil => rfl
  | cons first rest ih => cases verdictEq : first.2.complaint? <;> simp [verdictEq, ih]

-- The complaint that the collector tells in a move.
def Batch.tells {α : Type} (b : Batch α) : Batch.Move → List Pool.Complaint
  | .collect =>
    match b.waiting with
    | some c :: _ => [c]
    | _ => []
  | _ => []

theorem tells_other {α : Type} (b : Batch α) (m : Batch.Move) (other : m ≠ .collect) : b.tells m = [] := by
  cases m with
  | collect => exact (other rfl).elim
  | _ => rfl

theorem step_frame {α : Type} (b c : Batch α) (m : Batch.Move) (moved : b.step m = some c) :
    c.resetCache = b.resetCache ∧ c.reported = b.reported ++ b.tells m := by
  cases m with
  | put =>
      simp only [step, put] at moved
      split at moved
      · obtain ⟨p, _, rfl⟩ := Option.map_eq_some_iff.mp moved
        simp [tells]
      · cases moved
  | take i =>
      obtain ⟨p, _, rfl⟩ := Option.map_eq_some_iff.mp moved
      simp [tells]
  | finish i complaint =>
      obtain ⟨p, _, rfl⟩ := Option.map_eq_some_iff.mp moved
      simp [tells]
  | collect =>
      simp only [step, collect] at moved
      split at moved
      · rename_i waitingEq
        cases moved
        simp [tells, waitingEq]
      · rename_i waitingEq
        cases moved
        simp [tells, waitingEq]
      · cases moved
  | join =>
      simp only [step, join] at moved
      split at moved
      · split at moved <;> cases moved
        simp [tells]
      · cases moved
  | conclude =>
      simp only [step, conclude] at moved
      split at moved
      · split at moved
        · cases moved
          simp [tells]
        · split at moved <;> cases moved <;> simp [tells]
      · cases moved
  | answer outcome =>
      simp only [step, answer] at moved
      split at moved <;> cases moved <;> simp [tells]

theorem run_resetCache {α : Type} (n : Nat) (jobs : List α) (resetCache : Bool) (b : Batch α)
    (run : Run (start n jobs resetCache) b) : b.resetCache = resetCache := by
  induction run with
  | rest => rfl
  | move c d m _ moved ih => rw [(step_frame c d m moved).1, ih]

theorem over_done {α : Type} (n : Nat) (jobs : List α) (b : Batch α) (positive : 1 ≤ n)
    (account : Account n jobs b) (allOver : b.pool.isOver = true) :
    b.pool.taken = jobs ∧ (b.pool.finished.map Prod.fst).Perm jobs := by
  have stopped : ∀ w ∈ b.pool.workers, w = .stopped := by
    intro w member
    simp only [Pool.State.isOver, Bool.and_eq_true, List.all_eq_true] at allOver
    have halted := allOver.2 w member
    cases w with
    | stopped => rfl
    | crashed => exact (account.steady _ member rfl).elim
    | idle => cases halted
    | busy job => cases halted
  obtain ⟨taken, _, finished⟩ := Pool.all_stopped_done n jobs b.pool positive account.tally stopped
  exact ⟨taken, finished⟩

theorem drained_reported {α : Type} (n : Nat) (jobs : List α) (b : Batch α) (account : Account n jobs b)
    (drained : Drained b) : b.reported = b.pool.complaints := by
  have told := account.told
  rwa [drained.2.2, List.filterMap_nil, List.append_nil] at told

theorem silent_clean {α : Type} (n : Nat) (jobs : List α) (b : Batch α) (account : Account n jobs b)
    (drained : Drained b) (silent : b.reported = []) : b.failures = [] := by
  have count := complaints_count b
  rw [← drained_reported n jobs b account drained, silent] at count
  exact List.eq_nil_of_length_eq_zero count.symm

theorem ended_settled (n : Nat) (ops : List Operation) (resetCache : Bool) (b : Batch Operation) (e : Ending)
    (positive : 1 ≤ n) (run : Run (start n ops resetCache) b) (stageEq : b.stage = .ended e) :
    Settled ops resetCache b e := by
  have account := run_account n ops resetCache b run
  have wished := run_resetCache n ops resetCache b run
  have staged := account.staged
  rw [stageEq] at staged
  obtain ⟨drained, ended⟩ := staged
  obtain ⟨taken, finished⟩ := over_done n ops b positive account drained.1
  have reported := drained_reported n ops b account drained
  have count : b.reported.length = b.failures.length := by rw [reported, complaints_count]
  cases e with
  | clean =>
      have clean := silent_clean n ops b account drained ended.1
      refine ⟨taken, finished, reported, count, by simp [clean], by simp, ?_⟩
      rw [ended.2, wished]
      simp [clean]
  | failed many first =>
      have some_failed : b.failures ≠ [] := by
        intro none_failed
        rw [none_failed, List.length_nil, List.length_eq_zero_iff] at count
        simp [count, Ended] at ended
      refine ⟨taken, finished, reported, count, by simp [some_failed], ?_, by simpa [some_failed] using ended.2.2⟩
      intro k c same
      cases same
      exact ⟨by rw [ended.2.1, count], ended.1⟩
  | refused f =>
      have clean := silent_clean n ops b account drained ended.1
      refine ⟨taken, finished, reported, count, by simp [clean], by simp, ?_⟩
      have reset : resetCache = true := by rw [← wished]; exact ended.2.1
      simpa [clean, reset] using ended.2.2

-- The cache is cleared only when no operation is left to be done.
theorem forgotten_after_all (n : Nat) (ops : List Operation) (resetCache : Bool) (b : Batch Operation)
    (positive : 1 ≤ n) (run : Run (start n ops resetCache) b) (cleared : b.forgotten ≠ []) :
    (b.pool.finished.map Prod.fst).Perm ops ∧ b.failures = [] := by
  have account := run_account n ops resetCache b run
  have staged := account.staged
  cases stageEq : b.stage with
  | working =>
      rw [stageEq] at staged
      exact (cleared staged.2.2).elim
  | draining =>
      rw [stageEq] at staged
      exact (cleared staged.2).elim
  | clearing =>
      rw [stageEq] at staged
      obtain ⟨drained, silent, _⟩ := staged
      exact ⟨(over_done n ops b positive account drained.1).2, silent_clean n ops b account drained silent⟩
  | ended e =>
      have settled := ended_settled n ops resetCache b e positive run stageEq
      refine ⟨settled.finished, ?_⟩
      by_cases clean : resetCache = true ∧ b.failures = []
      · exact clean.2
      · exact (cleared (by rw [settled.forgotten, if_neg clean])).elim

-- One of the operations was interrupted.
def Interrupted (site : Site) (send : Sender) (ops : List Operation) (f : Failure) : Prop :=
  f = .interrupted ∧ ∃ op ∈ ops, ∃ u, ((op.effect.perform site send).perform u).1 = .error .interrupted

theorem import_throws (site : Site) (send : Sender) (workers : Int) (ops : List Operation) :
    (importTrade site send workers).Throws ops (Interrupted site send ops) := by
  constructor
  · intro i op member w f v performed
    simp only [importTrade, Operation.work, Action.perform_bind, Action.perform_outcome] at performed
    rcases resultEq : ((op.effect.perform site send).perform w).1 with g | ⟨⟩
    · rw [resultEq] at performed
      cases g with
      | interrupted =>
          cases performed
          exact ⟨rfl, op, member, w, resultEq⟩
      | _ => cases performed
    · obtain ⟨u, recorded⟩ := Action.record_succeeds .debug "Asset operation done"
        [("worker", .int i), ("op", .str op.name), ("asset", .str op.path)]
        ((op.effect.perform site send).perform w).2
      simp only [resultEq, Action.perform_bind, recorded, Action.perform_pure] at performed
      cases performed
  · intro c w f v performed
    obtain ⟨u, recorded⟩ := Action.record_succeeds .warning "Asset operation failed" [("error", .str c.text)] w
    simp [importTrade, reportImport, Action.perform_bind, recorded, Action.complain] at performed

-- Nothing but complaints is written to the user.
def Quiet (w v : World) : Prop := v.errors = w.errors

theorem quiet_passage : Action.Passage Quiet where
  stay _ := rfl
  chain _ _ _ first second := second.trans first
  book _ _ _ := rfl

-- What the user has been told of the complaints so far.
def Lines (before : List String) (b : Batch Operation) (w : World) : Prop :=
  w.errors = (b.reported.map fun c => c.text ++ "\n").reverse ++ before

theorem lines_step (before : List String) (b c : Batch Operation) (m : Batch.Move) (w v : World)
    (lines : Lines before b w) (moved : b.step m = some c)
    (told : v.errors = ((b.tells m).map fun c => c.text ++ "\n").reverse ++ w.errors) : Lines before c v := by
  unfold Lines at lines ⊢
  rw [told, lines, (step_frame b c m moved).2]
  simp

theorem tell_errors (site : Site) (send : Sender) (workers : Int) (b : Batch Operation) (w v : World)
    (performed : ((importTrade site send workers).tell b).perform w = (.ok (), v)) :
    v.errors = ((b.tells .collect).map fun c => c.text ++ "\n").reverse ++ w.errors := by
  rw [Trade.tell] at performed
  simp only [Batch.tells]
  rcases waitingEq : b.waiting with _ | ⟨_ | c, rest⟩
  · rw [waitingEq] at performed
    cases performed
    rfl
  · rw [waitingEq] at performed
    cases performed
    rfl
  · obtain ⟨u, recorded, (kept : Quiet w u)⟩ := Action.record_within quiet_passage .warning "Asset operation failed"
      [("error", .str c.text)] w
    simp only [waitingEq, importTrade, reportImport, Action.perform_bind, recorded, Action.complain,
      Action.perform_modify] at performed
    cases performed
    rw [← kept]
    rfl

theorem import_lines (site : Site) (send : Sender) (quiet : ∀ r, Action.Within Quiet (send r)) (workers : Int)
    (before : List String) : (importTrade site send workers).Keeps (Lines before) := by
  intro b task w c v lines _ performed
  cases task with
  | work i op =>
      obtain ⟨complaint, u, worked, finished⟩ := Action.bind_ok _ _ w v _ performed
      obtain ⟨moved, rfl⟩ : b.finish i complaint = some c ∧ u = v := by simpa using finished
      have kept := work_within quiet_passage site send (fun r _ => quiet r) i op w
      rw [show (Operation.work site send i op).perform w = _ from worked] at kept
      exact lines_step before b c (.finish i complaint) w u lines moved kept
  | forget =>
      obtain ⟨outcome, u, asked, answered⟩ := Action.bind_ok _ _ w v _ performed
      obtain ⟨moved, rfl⟩ : b.answer outcome = some c ∧ u = v := by simpa using answered
      have kept := Action.within_outcome _
        (forget_within quiet_passage site send (fun r _ => quiet r) workers allPaths) w
      rw [show (Action.outcome (forget site send workers allPaths)).perform w = _ from asked] at kept
      exact lines_step before b c (.answer outcome) w u lines moved kept
  | move m =>
      by_cases collecting : m = .collect
      · subst collecting
        obtain ⟨⟨⟩, u, told, collected⟩ := Action.bind_ok _ _ w v _ performed
        obtain ⟨moved, rfl⟩ : b.collect = some c ∧ u = v := by simpa using collected
        exact lines_step before b c .collect w u lines moved (tell_errors site send workers b w u told)
      · rw [Trade.advance_other _ b m collecting] at performed
        obtain ⟨moved, rfl⟩ : b.step m = some c ∧ w = v := by simpa using performed
        exact lines_step before b c m w w lines moved (by rw [tells_other b m collecting]; rfl)

-- An import that ends has taken its operations through some order of steps, each carried
-- out in the world that the steps before it have left.
theorem import_concludes (site : Site) (d : Diff) (resetCache : Bool) (send : Sender) (n : Nat) (positive : 1 ≤ n)
    (w : World) : ∃ r v, (importAssets site d resetCache send n).perform w = (r, v) ∧
      ((r = .error .interrupted ∧ Interrupted site send (Operation.ofDiff d) .interrupted) ∨
        ∃ b e u x, Logged w u ∧ Trade.Course (importTrade site send n) (start n (Operation.ofDiff d) resetCache) u b x ∧
          Logged x v ∧ b.stage = .ended e ∧ r = e.outcome) := by
  obtain ⟨u, recorded, before⟩ := Action.record_within logged_passage .info "Importing hosting assets"
    (importFields site n ++ [("operations", .int (Operation.ofDiff d).length)]) w
  have enough : ¬ (n : Int) < 1 := by omega
  simp only [importAssets, if_neg enough, Action.perform_bind, recorded, Int.toNat_natCast]
  rcases Trade.run_ends (importTrade site send n) _ _ (import_throws site send n (Operation.ofDiff d)) n positive
      resetCache u with ⟨f, v, ran, interrupted⟩ | ⟨b, x, e, ran, course, stageEq⟩
  · obtain ⟨rfl, _⟩ := id interrupted
    exact ⟨.error .interrupted, v, by rw [ran], .inl ⟨rfl, interrupted⟩⟩
  · rw [ran]
    cases e with
    | clean =>
        obtain ⟨v, ended, after⟩ := Action.record_within logged_passage .info "Hosting import complete"
          (importFields site n) x
        exact ⟨.ok (), v, ended, .inr ⟨b, .clean, u, x, before, course, after, stageEq, rfl⟩⟩
    | failed count first =>
        obtain ⟨v, ended, after⟩ := Action.record_within logged_passage .warning "Hosting import finished with errors"
          (importFields site n ++ [("errors", .int count)]) x
        refine ⟨.error (.importing count first.text), v, ?_,
          .inr ⟨b, .failed count first, u, x, before, course, after, stageEq, rfl⟩⟩
        simp only [Action.perform_bind, ended, Action.perform_throw]
    | refused f =>
        exact ⟨.error f, x, rfl, .inr ⟨b, .refused f, u, x, before, course, logged_passage.stay x, stageEq, rfl⟩⟩

theorem logged_errors (w v : World) (logged : Logged w v) : v.errors = w.errors := by
  obtain ⟨_, _, rfl⟩ := logged
  rfl

theorem course_lines (site : Site) (send : Sender) (quiet : ∀ r, Action.Within Quiet (send r)) (n : Nat)
    (ops : List Operation) (resetCache : Bool) (b : Batch Operation) (w u x v : World) (before : Logged w u)
    (course : Trade.Course (importTrade site send n) (start n ops resetCache) u b x) (after : Logged x v) :
    Lines w.errors b v := by
  have fresh : Lines w.errors (start n ops resetCache) u := logged_errors w u before
  have kept : Lines w.errors b x :=
    Trade.course_keeps _ _ (import_lines site send quiet n w.errors) _ b u x fresh course
  exact (logged_errors x v after).trans kept

theorem import_ends (site : Site) (d : Diff) (resetCache : Bool) (send : Sender) (n : Nat) (positive : 1 ≤ n)
    (w : World) : ∃ r v, (importAssets site d resetCache send n).perform w = (r, v) ∧
      (r = .error .interrupted ∨ ∃ b e, Run (start n (Operation.ofDiff d) resetCache) b ∧
        (∃ u x, Logged w u ∧
          Trade.Course (importTrade site send n) (start n (Operation.ofDiff d) resetCache) u b x ∧ Logged x v) ∧
        b.stage = .ended e ∧ r = e.outcome ∧
        ((∀ request, Action.Within Quiet (send request)) → Lines w.errors b v)) := by
  obtain ⟨r, v, performed, ⟨interrupted, _⟩ | ⟨b, e, u, x, before, course, after, stageEq, result⟩⟩ :=
    import_concludes site d resetCache send n positive w
  · exact ⟨r, v, performed, .inl interrupted⟩
  · refine ⟨r, v, performed, .inr ⟨b, e, Trade.course_run _ _ b u x course, ⟨u, x, before, course, after⟩, stageEq,
      result, fun quiet => ?_⟩⟩
    exact course_lines site send quiet n _ resetCache b w u x v before course after

-- For every number of workers and every order of moves an import settles its
-- operations. The schedule that runs here is such an order, in which an operation is
-- finished with the complaint that carrying it out has led to, and it never stalls.
theorem import_settles (n : Nat) (positive : 1 ≤ n) (d : Diff) (resetCache : Bool) :
    (∀ b, Run (start n (Operation.ofDiff d) resetCache) b →
      (b.forgotten ≠ [] → (b.pool.finished.map Prod.fst).Perm (Operation.ofDiff d) ∧ b.failures = []) ∧
      (∀ e, b.stage = .ended e → Settled (Operation.ofDiff d) resetCache b e) ∧
      ((∀ e, b.stage ≠ .ended e) → ∃ m c, b.step m = some c)) ∧
    ∀ site send w, ∃ r v, (importAssets site d resetCache send n).perform w = (r, v) ∧
      (r = .error .interrupted ∨ ∃ b e, Run (start n (Operation.ofDiff d) resetCache) b ∧
        (∃ u x, Logged w u ∧
          Trade.Course (importTrade site send n) (start n (Operation.ofDiff d) resetCache) u b x ∧ Logged x v) ∧
        b.stage = .ended e ∧ r = e.outcome ∧
        ((∀ request, Action.Within Quiet (send request)) → Lines w.errors b v)) := by
  refine ⟨?_, ?_⟩
  · intro b run
    have account := run_account n (Operation.ofDiff d) resetCache b run
    refine ⟨forgotten_after_all n _ resetCache b positive run, ?_, ?_⟩
    · intro e stageEq
      exact ended_settled n _ resetCache b e positive run stageEq
    · intro running
      obtain ⟨task, _, fits⟩ := next_exists n (Operation.ofDiff d) b positive account running
      obtain ⟨c, m, moved⟩ := task_moves b task fits
      exact ⟨m, c, moved⟩
  · intro site send w
    exact import_ends site d resetCache send n positive w

-- Two workers, one asset to add and two to delete, of which one can be. The complaint
-- about the last one comes first.
theorem import_settles_refusal :
    let a : Asset := ⟨"", "/a", "x", 1, [], 0, ""⟩
    let d : Diff := ⟨[a], [⟨"", "/b", "", 0, [], 0, ""⟩, ⟨"", "/c", "", 0, [], 0, ""⟩], []⟩
    ∃ b, b.failures = [.delete ⟨"", "/c", "", 0, [], 0, ""⟩, .add a] ∧
      b.reported = [⟨"/c", "refused"⟩, ⟨"/a", "too large"⟩] ∧ b.forgotten = [] ∧
      Settled (Operation.ofDiff d) true b (.failed 2 ⟨"/c", "refused"⟩) := by
  intro a d
  have both : Run (start 2 (Operation.ofDiff d) true) _ :=
    .move _ _ (.take 1) (.move _ _ (.take 0) (.move _ _ .put (.move _ _ .put .rest rfl) rfl) rfl) rfl
  have refused := Run.move _ _ (.finish 1 (some ⟨"/c", "refused"⟩)) (.move _ _ (.take 1) (.move _ _ .put
    (.move _ _ (.finish 1 none) both rfl) rfl) rfl) rfl
  have failed := Run.move _ _ (.finish 0 (some ⟨"/a", "too large"⟩)) (.move _ _ .collect refused rfl) rfl
  have stopped := Run.move _ _ (.take 0) (.move _ _ (.take 1) (.move _ _ .put (.move _ _ .put failed rfl) rfl) rfl) rfl
  have run := Run.move _ _ .conclude (.move _ _ .collect (.move _ _ .collect (.move _ _ .join stopped rfl) rfl) rfl) rfl
  exact ⟨_, rfl, rfl, rfl, ((import_settles 2 (by decide) d true).1 _ run).2.1 _ rfl⟩

end HostingAdmin.Hosting
