import HostingAdmin.Hosting.Batch
import HostingAdmin.Proofs.PoolTally

set_option autoImplicit false

namespace HostingAdmin.Hosting.Batch

variable {α : Type}

-- The batches that some order of moves leads to.
inductive Run (b : Batch α) : Batch α → Prop where
  | rest : Run b b
  | move (c d : Batch α) (m : Move) (before : Run b c) (moved : c.step m = some d) : Run b d

def Drained (b : Batch α) : Prop :=
  b.pool.isOver = true ∧ b.collecting = false ∧ b.waiting = []

-- The collector has the mark of the end before it, after what it still has to tell.
def Closing (b : Batch α) : Prop :=
  b.pool.isOver = true ∧ b.collecting = true ∧
    ∃ untold : List Pool.Complaint, b.waiting = untold.map some ++ [none]

def Ended (b : Batch α) : Ending → Prop
  | .clean => b.reported = [] ∧ b.forgotten = if b.resetCache then [allPaths] else []
  | .failed count first =>
      b.reported.head? = some first ∧ count = b.reported.length ∧ b.forgotten = []
  | .refused _ => b.reported = [] ∧ b.resetCache = true ∧ b.forgotten = [allPaths]

def Staged (b : Batch α) : Stage → Prop
  | .working => b.collecting = true ∧ none ∉ b.waiting ∧ b.forgotten = []
  | .draining => (Closing b ∨ Drained b) ∧ b.forgotten = []
  | .clearing => Drained b ∧ b.reported = [] ∧ b.resetCache = true ∧ b.forgotten = [allPaths]
  | .ended e => Drained b ∧ Ended b e

structure Account (n : Nat) (jobs : List α) (b : Batch α) : Prop where
  tally : Pool.Tally n jobs b.pool
  steady : ∀ w ∈ b.pool.workers, w ≠ .crashed
  told : b.reported ++ b.waiting.filterMap id = b.pool.complaints
  staged : Staged b b.stage

theorem over_no_take (p t : Pool.State α) (i : Nat) (allOver : p.isOver = true)
    (moved : p.take i = some t) : False := by
  obtain ⟨idle, _⟩ := Pool.pool_take_cases p t i moved
  simp only [Pool.State.isOver, Bool.and_eq_true, List.all_eq_true] at allOver
  have stuck := allOver.2 .idle (List.mem_of_getElem? idle)
  simp [Pool.Worker.isOver] at stuck

theorem over_no_finish (p t : Pool.State α) (i : Nat) (v : Pool.Verdict) (allOver : p.isOver = true)
    (moved : p.finish i v = some t) : False := by
  obtain ⟨job, atWork, _⟩ := Pool.pool_finish_cases p t i v moved
  simp only [Pool.State.isOver, Bool.and_eq_true, List.all_eq_true] at allOver
  have stuck := allOver.2 (.busy job) (List.mem_of_getElem? atWork)
  simp [Pool.Worker.isOver] at stuck

theorem staged_working_or_over (b : Batch α) (staged : Staged b b.stage) :
    b.stage = .working ∨ b.pool.isOver = true := by
  cases stageEq : b.stage with
  | working => exact .inl rfl
  | draining =>
      rw [stageEq] at staged
      rcases staged.1 with closing | drained
      · exact .inr closing.1
      · exact .inr drained.1
  | clearing =>
      rw [stageEq] at staged
      exact .inr staged.1.1
  | ended e =>
      rw [stageEq] at staged
      exact .inr staged.1.1

theorem start_account (n : Nat) (jobs : List α) (resetCache : Bool) :
    Account n jobs (start n jobs resetCache) where
  tally := Pool.start_tally n jobs
  steady := by
    intro w member
    rw [List.eq_of_mem_replicate member]
    simp
  told := rfl
  staged := ⟨rfl, by simp [start], rfl⟩

theorem put_account (n : Nat) (jobs : List α) (b c : Batch α) (account : Account n jobs b)
    (moved : b.put = some c) : Account n jobs c := by
  rw [put] at moved
  split at moved
  · rename_i stageEq
    obtain ⟨p, putEq, rfl⟩ := Option.map_eq_some_iff.mp moved
    obtain ⟨x, rest, _, _, rfl⟩ := Pool.pool_put_cases b.pool p putEq
    have staged := account.staged
    rw [stageEq] at staged
    exact ⟨Pool.put_tally n jobs b.pool _ account.tally putEq, account.steady, account.told,
      by simp only [stageEq]; exact staged⟩
  · cases moved

theorem take_account (n : Nat) (jobs : List α) (b c : Batch α) (i : Nat) (account : Account n jobs b)
    (moved : b.take i = some c) : Account n jobs c := by
  obtain ⟨p, takeEq, rfl⟩ := Option.map_eq_some_iff.mp moved
  rcases staged_working_or_over b account.staged with stageEq | allOver
  · have staged := account.staged
    rw [stageEq] at staged
    have tally := Pool.take_tally n jobs b.pool p i account.tally takeEq
    obtain ⟨_, rest, ⟨_, rfl⟩ | ⟨job, _, rfl⟩⟩ := Pool.pool_take_cases b.pool p i takeEq
    all_goals
      refine ⟨tally, ?_, account.told, by simp only [stageEq]; exact staged⟩
      intro w member
      rcases List.mem_or_eq_of_mem_set member with old | fresh
      · exact account.steady w old
      · simp [fresh]
  · exact (over_no_take b.pool p i allOver takeEq).elim

theorem verdict_complaint (job : α) (complaint : Option Pool.Complaint) :
    [(job, Pool.Verdict.ofComplaint complaint)].filterMap (fun x => x.2.complaint?) = complaint.toList := by
  cases complaint <;> rfl

theorem finish_account (n : Nat) (jobs : List α) (b c : Batch α) (i : Nat)
    (complaint : Option Pool.Complaint) (account : Account n jobs b)
    (moved : b.finish i complaint = some c) : Account n jobs c := by
  obtain ⟨p, finishEq, rfl⟩ := Option.map_eq_some_iff.mp moved
  rcases staged_working_or_over b account.staged with stageEq | allOver
  · have staged := account.staged
    rw [stageEq] at staged
    have tally := Pool.finish_tally n jobs b.pool p i _ account.tally finishEq
    obtain ⟨job, _, rfl⟩ := Pool.pool_finish_cases b.pool p i _ finishEq
    refine ⟨tally, ?_, ?_, ?_⟩
    · intro w member
      rcases List.mem_or_eq_of_mem_set member with old | fresh
      · exact account.steady w old
      · rw [fresh]
        cases complaint <;> simp [Pool.Verdict.ofComplaint, Pool.Verdict.worker]
    · have passed : ((complaint.map some).toList : List (Option Pool.Complaint)).filterMap id =
          complaint.toList := by
        cases complaint <;> rfl
      simp only [Pool.State.complaints, List.filterMap_append, verdict_complaint, passed]
      rw [← List.append_assoc, account.told, Pool.State.complaints]
    · simp only [stageEq]
      refine ⟨staged.1, ?_, staged.2.2⟩
      cases complaint <;> simpa using staged.2.1
  · exact (over_no_finish b.pool p i _ allOver finishEq).elim

theorem collect_account (n : Nat) (jobs : List α) (b c : Batch α) (account : Account n jobs b)
    (moved : b.collect = some c) : Account n jobs c := by
  have told := account.told
  have staged := account.staged
  rw [collect] at moved
  split at moved
  · rename_i complaint rest collecting waitingEq
    cases moved
    refine ⟨account.tally, account.steady, by simpa [waitingEq] using told, ?_⟩
    cases stageEq : b.stage with
    | working =>
        rw [stageEq] at staged
        have unmarked := staged.2.1
        rw [waitingEq, List.mem_cons, not_or] at unmarked
        exact ⟨collecting, unmarked.2, staged.2.2⟩
    | draining =>
        rw [stageEq] at staged
        obtain ⟨allOver, _, untold, queueEq⟩ | ⟨_, stopped, _⟩ := staged.1
        · refine ⟨.inl ⟨allOver, collecting, ?_⟩, staged.2⟩
          rw [waitingEq] at queueEq
          cases untold with
          | nil => simp at queueEq
          | cons first more => exact ⟨more, by simpa using (List.cons.inj queueEq).2⟩
        · rw [collecting] at stopped
          cases stopped
    | clearing =>
        rw [stageEq, Staged, Drained, collecting] at staged
        cases staged.1.2.1
    | ended e =>
        rw [stageEq, Staged, Drained, collecting] at staged
        cases staged.1.2.1
  · rename_i rest collecting waitingEq
    cases moved
    refine ⟨account.tally, account.steady, by simpa [waitingEq] using told, ?_⟩
    cases stageEq : b.stage with
    | working =>
        rw [stageEq] at staged
        exact (staged.2.1 (by simp [waitingEq])).elim
    | draining =>
        rw [stageEq] at staged
        obtain ⟨allOver, _, untold, queueEq⟩ | ⟨_, stopped, _⟩ := staged.1
        · rw [waitingEq] at queueEq
          cases untold with
          | nil => exact ⟨.inr ⟨allOver, rfl, by simpa using (List.cons.inj queueEq).2⟩, staged.2⟩
          | cons first more => simp at queueEq
        · rw [collecting] at stopped
          cases stopped
    | clearing =>
        rw [stageEq, Staged, Drained, collecting] at staged
        cases staged.1.2.1
    | ended e =>
        rw [stageEq, Staged, Drained, collecting] at staged
        cases staged.1.2.1
  · cases moved

theorem unmarked_complaints (waiting : List (Option Pool.Complaint)) (unmarked : none ∉ waiting) :
    waiting = (waiting.filterMap id).map some := by
  induction waiting with
  | nil => rfl
  | cons head tail ih =>
      rw [List.mem_cons, not_or] at unmarked
      cases head with
      | none => exact (unmarked.1 rfl).elim
      | some complaint => simpa using ih unmarked.2

theorem join_account (n : Nat) (jobs : List α) (b c : Batch α) (account : Account n jobs b)
    (moved : b.join = some c) : Account n jobs c := by
  rw [join] at moved
  split at moved
  · rename_i stageEq
    by_cases allOver : b.pool.isOver = true
    · rw [if_pos allOver] at moved
      cases moved
      have staged := account.staged
      rw [stageEq] at staged
      refine ⟨account.tally, account.steady, by simpa using account.told, ?_⟩
      exact ⟨.inl ⟨allOver, staged.1, b.waiting.filterMap id,
        by rw [← unmarked_complaints b.waiting staged.2.1]⟩, staged.2.2⟩
    · rw [if_neg allOver] at moved
      cases moved
  · cases moved

theorem conclude_account (n : Nat) (jobs : List α) (b c : Batch α) (account : Account n jobs b)
    (moved : b.conclude = some c) : Account n jobs c := by
  rw [conclude] at moved
  split at moved
  · rename_i stageEq stopped
    have staged := account.staged
    rw [stageEq] at staged
    have drained : Drained b := by
      rcases staged.1 with ⟨_, collecting, _⟩ | drained
      · rw [stopped] at collecting
        cases collecting
      · exact drained
    split at moved
    · rename_i first rest reportedEq
      cases moved
      exact ⟨account.tally, account.steady, account.told, drained, by simp [reportedEq],
        by simp [reportedEq], staged.2⟩
    · rename_i reportedEq
      by_cases wished : b.resetCache = true
      · rw [if_pos wished] at moved
        cases moved
        exact ⟨account.tally, account.steady, account.told, drained, reportedEq, wished,
          by simp [staged.2]⟩
      · rw [if_neg wished] at moved
        cases moved
        exact ⟨account.tally, account.steady, account.told, drained, reportedEq,
          by rw [if_neg wished]; exact staged.2⟩
  · cases moved

theorem answer_account (n : Nat) (jobs : List α) (b c : Batch α) (outcome : Except Failure Unit)
    (account : Account n jobs b) (moved : b.answer outcome = some c) : Account n jobs c := by
  unfold answer at moved
  split at moved
  · rename_i stageEq
    cases moved
    have staged := account.staged
    rw [stageEq] at staged
    obtain ⟨drained, silent, wished, forgotten⟩ := staged
    exact ⟨account.tally, account.steady, account.told, drained, silent,
      by rw [if_pos wished]; exact forgotten⟩
  · rename_i f stageEq
    cases moved
    have staged := account.staged
    rw [stageEq] at staged
    exact ⟨account.tally, account.steady, account.told, staged⟩
  · cases moved

theorem step_account (n : Nat) (jobs : List α) (b c : Batch α) (m : Move) (account : Account n jobs b)
    (moved : b.step m = some c) : Account n jobs c := by
  cases m with
  | put => exact put_account n jobs b c account moved
  | take i => exact take_account n jobs b c i account moved
  | finish i complaint => exact finish_account n jobs b c i complaint account moved
  | collect => exact collect_account n jobs b c account moved
  | join => exact join_account n jobs b c account moved
  | conclude => exact conclude_account n jobs b c account moved
  | answer outcome => exact answer_account n jobs b c outcome account moved

theorem run_account (n : Nat) (jobs : List α) (resetCache : Bool) (b : Batch α)
    (run : Run (start n jobs resetCache) b) : Account n jobs b := by
  induction run with
  | rest => exact start_account n jobs resetCache
  | move c d m _ moved ih => exact step_account n jobs c d m ih moved

end HostingAdmin.Hosting.Batch
