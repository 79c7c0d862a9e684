import HostingAdmin.Proofs.ImportAccounts

set_option autoImplicit false

namespace HostingAdmin.Hosting

namespace Batch

variable {α : Type}

inductive Party where
  | owner
  | worker (i : Nat)
  | collector

-- The party has a move, whatever comes of the job it does or of the request it waits
-- for.
def Ready (b : Batch α) : Party → Prop
  | .owner =>
      (∃ c, b.put = some c) ∨ (∃ c, b.join = some c) ∨ (∃ c, b.conclude = some c) ∨
        ∀ outcome, ∃ c, b.answer outcome = some c
  | .worker i => (∃ c, b.take i = some c) ∨ ∀ complaint, ∃ c, b.finish i complaint = some c
  | .collector => ∃ c, b.collect = some c

-- Where the moves lead if each of them is possible when its turn comes.
def follow (b : Batch α) : List Move → Option (Batch α)
  | [] => some b
  | m :: rest => (b.step m).bind fun c => c.follow rest

theorem follow_run (b c : Batch α) (moves : List Move) (followed : b.follow moves = some c) : Run b c := by
  induction moves generalizing b with
  | nil =>
      cases followed
      exact .rest
  | cons m rest ih =>
      obtain ⟨d, moved, further⟩ := Option.bind_eq_some_iff.mp followed
      exact step_run b d c m moved (ih d further)

theorem run_follows (b c : Batch α) (run : Run b c) : ∃ moves, b.follow moves = some c := by
  have extend : ∀ (moves : List Move) (b d e : Batch α) (m : Move), b.follow moves = some d →
      d.step m = some e → b.follow (moves ++ [m]) = some e := by
    intro moves
    induction moves with
    | nil =>
        intro b d e m followed moved
        cases followed
        simp [follow, moved]
    | cons first rest ih =>
        intro b d e m followed moved
        obtain ⟨x, begun, further⟩ := Option.bind_eq_some_iff.mp followed
        simp only [List.cons_append, follow, begun, Option.bind_some]
        exact ih x d e m further moved
  induction run with
  | rest => exact ⟨[], rfl⟩
  | move d e m _ moved ih =>
      obtain ⟨moves, followed⟩ := ih
      exact ⟨moves ++ [m], extend moves b d e m followed moved⟩

theorem follow_spends (b c : Batch α) (moves : List Move) (followed : b.follow moves = some c) :
    moves.length + c.size ≤ b.size := by
  induction moves generalizing b with
  | nil =>
      cases followed
      simp
  | cons m rest ih =>
      obtain ⟨d, moved, further⟩ := Option.bind_eq_some_iff.mp followed
      have smaller := step_smaller b d m moved
      have spent := ih d further
      rw [List.length_cons]
      omega

-- Six moves for each job and each mark of the end, and the four of the owner.
theorem start_size (n : Nat) (jobs : List α) (resetCache : Bool) :
    (start n jobs resetCache).size = 6 * (jobs.length + n) + 4 := by
  have idle : (List.replicate n (Pool.Worker.idle (α := α))).countP (fun w => w.job?.isSome) = 0 := by
    rw [List.countP_eq_zero]
    intro w member
    rw [List.eq_of_mem_replicate member]
    simp [Pool.Worker.job?]
  simp only [size, start, Pool.State.size, Pool.State.start, Stage.distance, idle, List.length_append,
    List.length_map, List.length_replicate, List.length_nil]
  omega

theorem task_ready (b : Batch α) (task : Task α) (fits : Fits b task) : ∃ party, b.Ready party := by
  cases task with
  | move m =>
      obtain ⟨c, moved⟩ := fits
      cases m with
      | put => exact ⟨.owner, .inl ⟨c, moved⟩⟩
      | take i => exact ⟨.worker i, .inl ⟨c, moved⟩⟩
      | finish i complaint =>
          -- Who can end a job with one complaint can end it with any other.
          obtain ⟨p, finished, _⟩ := Option.map_eq_some_iff.mp moved
          obtain ⟨job, atWork, _⟩ := Pool.pool_finish_cases b.pool p i _ finished
          refine ⟨.worker i, .inr ?_⟩
          intro other
          simp only [finish, Pool.State.finish, atWork, Option.map_some]
          exact ⟨_, rfl⟩
      | collect => exact ⟨.collector, ⟨c, moved⟩⟩
      | join => exact ⟨.owner, .inr (.inl ⟨c, moved⟩)⟩
      | conclude => exact ⟨.owner, .inr (.inr (.inl ⟨c, moved⟩))⟩
      | answer outcome =>
          have clearing : b.stage = .clearing := by
            simp only [step, answer] at moved
            split at moved
            · assumption
            · assumption
            · cases moved
          refine ⟨.owner, .inr (.inr (.inr ?_))⟩
          intro other
          rcases other with f | ⟨⟩ <;> simp [answer, clearing]
  | work i job => exact ⟨.worker i, .inr fits⟩
  | forget => exact ⟨.owner, .inr (.inr (.inr fits))⟩

theorem ready_moves (b : Batch α) (party : Party) (ready : b.Ready party) : ∃ m c, b.step m = some c := by
  cases party with
  | owner =>
      rcases ready with ⟨c, moved⟩ | ⟨c, moved⟩ | ⟨c, moved⟩ | answered
      · exact ⟨.put, c, moved⟩
      · exact ⟨.join, c, moved⟩
      · exact ⟨.conclude, c, moved⟩
      · obtain ⟨c, moved⟩ := answered (.ok ())
        exact ⟨.answer (.ok ()), c, moved⟩
  | worker i =>
      rcases ready with ⟨c, moved⟩ | finished
      · exact ⟨.take i, c, moved⟩
      · obtain ⟨c, moved⟩ := finished none
        exact ⟨.finish i none, c, moved⟩
  | collector =>
      obtain ⟨c, moved⟩ := ready
      exact ⟨.collect, c, moved⟩

theorem running_ready (n : Nat) (jobs : List α) (b : Batch α) (positive : 1 ≤ n) (account : Account n jobs b)
    (running : ∀ e, b.stage ≠ .ended e) : ∃ party, b.Ready party := by
  obtain ⟨task, _, fits⟩ := next_exists n jobs b positive account running
  exact task_ready b task fits

theorem ended_still (n : Nat) (jobs : List α) (b : Batch α) (e : Ending) (account : Account n jobs b)
    (ended : b.stage = .ended e) (m : Move) : b.step m = none := by
  have staged := account.staged
  rw [ended] at staged
  obtain ⟨⟨allOver, stopped, _⟩, _⟩ := staged
  rw [Option.eq_none_iff_forall_ne_some]
  intro c moved
  cases m with
  | put => simp [step, put, ended] at moved
  | take i =>
      obtain ⟨p, taken, _⟩ := Option.map_eq_some_iff.mp moved
      exact over_no_take b.pool p i allOver taken
  | finish i complaint =>
      obtain ⟨p, finished, _⟩ := Option.map_eq_some_iff.mp moved
      exact over_no_finish b.pool p i _ allOver finished
  | collect => simp [step, collect, stopped] at moved
  | join => simp [step, join, ended] at moved
  | conclude => simp [step, conclude, ended] at moved
  | answer outcome => simp [step, answer, ended] at moved

theorem walk_follows (visit : Nat → Batch α) (walks : ∀ k, ∃ m, (visit k).step m = some (visit (k + 1)))
    (length start : Nat) : ∃ moves, moves.length = length ∧
      (visit start).follow moves = some (visit (start + length)) := by
  induction length generalizing start with
  | zero => exact ⟨[], rfl, rfl⟩
  | succ length ih =>
      obtain ⟨m, moved⟩ := walks start
      obtain ⟨moves, count, followed⟩ := ih (start + 1)
      refine ⟨m :: moves, by rw [List.length_cons, count], ?_⟩
      rw [follow, moved, Option.bind_some, followed]
      congr 2
      omega

theorem no_endless_walk (visit : Nat → Batch α)
    (walks : ∀ k, ∃ m, (visit k).step m = some (visit (k + 1))) : False := by
  obtain ⟨moves, count, followed⟩ := walk_follows visit walks ((visit 0).size + 1) 0
  have spent := follow_spends _ _ moves followed
  omega

end Batch

open Batch

-- An import with at least one worker never gets stuck: in whatever order its parties
-- move, one of them can go on until the end, and the number of moves is bounded by the
-- number of operations and workers. So it comes to an end, whatever its operations
-- come to.
theorem import_never_stuck (n : Nat) (positive : 1 ≤ n) (resetCache : Bool) :
    (∀ (ops : List Operation) moves b, (start n ops resetCache).follow moves = some b →
      moves.length + b.size ≤ 6 * (ops.length + n) + 4 ∧
      ((∀ e, b.stage ≠ .ended e) → ∃ party, b.Ready party) ∧
      ((∃ e, b.stage = .ended e) ↔ ∀ m, b.step m = none)) ∧
    (∀ ops : List Operation, ¬ ∃ visit : Nat → Batch Operation, visit 0 = start n ops resetCache ∧
      ∀ k, ∃ m, (visit k).step m = some (visit (k + 1))) ∧
    ∀ (site : Site) (send : Sender) (d : Diff),
      (∀ op ∈ Operation.ofDiff d, ∀ u, ((op.effect.perform site send).perform u).1 ≠ .error .interrupted) →
      ∀ w, ∃ moves b e, (start n (Operation.ofDiff d) resetCache).follow moves = some b ∧
        b.stage = .ended e ∧ ((importAssets site d resetCache send n).perform w).1 = e.outcome := by
  refine ⟨?_, ?_, ?_⟩
  · intro ops moves b followed
    have account := run_account n ops resetCache b (follow_run _ b moves followed)
    have spent := follow_spends _ b moves followed
    rw [start_size] at spent
    refine ⟨spent, running_ready n ops b positive account, ?_, ?_⟩
    · intro ended
      obtain ⟨e, stageEq⟩ := ended
      exact ended_still n ops b e account stageEq
    · intro still
      by_cases ended : ∃ e, b.stage = .ended e
      · exact ended
      · obtain ⟨party, ready⟩ := running_ready n ops b positive account (not_exists.mp ended)
        obtain ⟨m, c, moved⟩ := ready_moves b party ready
        rw [still m] at moved
        cases moved
  · intro ops endless
    obtain ⟨visit, _, walks⟩ := endless
    exact no_endless_walk visit walks
  · intro site send d steady w
    obtain ⟨r, v, performed, ⟨_, _, op, member, u, interrupted⟩ | ⟨b, e, u, x, _, course, _, stageEq, rfl⟩⟩ :=
      import_concludes site d resetCache send n positive w
    · exact (steady op member u interrupted).elim
    · obtain ⟨moves, followed⟩ := run_follows _ b (Trade.course_run _ _ b u x course)
      exact ⟨moves, b, e, followed, stageEq, by rw [performed]⟩

-- One worker, three assets to delete, and a queue that is full: the owner has to wait,
-- the worker can go on. When all three fail, the import ends all the same.
theorem import_never_stuck_full :
    (∃ b, (start 1 (["/a", "/b", "/c"].map fun p => Operation.delete ⟨"", p, "", 0, [], 0, ""⟩) true).follow [.put] =
      some b ∧ b.put.isNone = true ∧ b.collect.isNone = true ∧ ∃ party, b.Ready party) ∧
    ∃ moves b e, (start 1 (Operation.ofDiff ⟨[], ["/a", "/b", "/c"].map fun p => ⟨"", p, "", 0, [], 0, ""⟩, []⟩)
        true).follow moves = some b ∧ b.stage = .ended e ∧
      ((importAssets ⟨"", "", ⟨0, []⟩⟩ ⟨[], ["/a", "/b", "/c"].map fun p => ⟨"", p, "", 0, [], 0, ""⟩, []⟩ true
        (fun _ => throw .stalled) 1).perform (World.start ⟨.folder [], []⟩ fun _ _ => .error .interrupt)).1 =
        e.outcome := by
  have never := import_never_stuck 1 (by decide) true
  refine ⟨⟨_, rfl, rfl, rfl, ?_⟩, never.2.2 _ _ _ ?_ _⟩
  · exact (never.1 (["/a", "/b", "/c"].map fun p => Operation.delete ⟨"", p, "", 0, [], 0, ""⟩) [.put] _ rfl).2.1
      fun e ended => by cases ended
  · intro op member u
    simp only [Operation.ofDiff, List.map_cons, List.map_nil, List.mem_append, List.mem_cons, List.not_mem_nil,
      or_false, false_or] at member
    rcases member with rfl | rfl | rfl
    all_goals
      intro interrupted
      cases interrupted

end HostingAdmin.Hosting
