import HostingAdmin.Proofs.RetrievalSteps

set_option autoImplicit false

namespace HostingAdmin.Hosting.Retrieval

-- What some order of steps leads to.
inductive Run (b : Retrieval) : Retrieval → Prop where
  | rest : Run b b
  | move (c d : Retrieval) (m : Move) (before : Run b c) (lawful : m.Lawful) (moved : c.step m = some d) : Run b d

-- Runs with the contents that came on the way, the latest first.
inductive Delivered (b : Retrieval) : List (Asset × Bytes) → Retrieval → Prop where
  | rest : Delivered b [] b
  | move (given : List (Asset × Bytes)) (c d : Retrieval) (m : Move) (before : Delivered b given c)
      (lawful : m.Lawful) (moved : c.step m = some d) : Delivered b (c.delivery m ++ given) d

theorem delivered_run (b c : Retrieval) (given : List (Asset × Bytes)) (delivered : Delivered b given c) : Run b c := by
  induction delivered with
  | rest => exact .rest
  | move given c d m _ lawful moved ih => exact .move c d m ih lawful moved

theorem delivered_further (b c d : Retrieval) (early late : List (Asset × Bytes)) (before : Delivered b early c)
    (after : Delivered c late d) : Delivered b (late ++ early) d := by
  induction after with
  | rest => exact before
  | move given x y m _ lawful moved ih =>
      rw [List.append_assoc]
      exact .move _ x y m ih lawful moved

theorem delivered_first (b c d : Retrieval) (given : List (Asset × Bytes)) (m : Move) (lawful : m.Lawful)
    (moved : b.step m = some c) (after : Delivered c given d) : Delivered b (given ++ b.delivery m) d := by
  have first : Delivered b (b.delivery m ++ []) c := .move [] b c m .rest lawful moved
  rw [List.append_nil] at first
  exact delivered_further b c d _ given first after

structure Account (n : Nat) (assets : List Asset) (b : Retrieval) : Prop where
  tally : Pool.Tally n assets b.pool
  missed : Pool.Missed b.pool
  legs : b.legs.length = n
  reported : b.reported = b.pool.complaints
  saved : b.saved.map Copy.asset = b.pool.successes
  blamed : ∀ x ∈ b.pool.finished, Blames x

theorem start_accounted (root : Path) (files : FileTree) (n : Nat) (assets : List Asset) :
    Account n assets (start root files n assets) where
  tally := Pool.start_tally n assets
  missed lost := by
    have idle := List.eq_of_mem_replicate lost
    cases idle
  legs := List.length_replicate
  reported := rfl
  saved := rfl
  blamed x member := by cases member

theorem error_undone (a : Asset) (f : Failure) : (exportVerdict a (.error f)).isDone = false := by
  cases f <;> rfl

theorem advance_accounted (n : Nat) (assets : List Asset) (b c : Retrieval) (given : List (Asset × Bytes))
    (account : Account n assets b) (advance : Advance b given c) : Account n assets c := by
  cases advance with
  | put p pooled =>
      have tally := Pool.put_tally n assets b.pool p account.tally pooled
      have missed := Pool.put_missed b.pool p pooled account.missed
      obtain ⟨_, _, _, _, rfl⟩ := Pool.pool_put_cases b.pool p pooled
      exact ⟨tally, missed, account.legs, account.reported, account.saved, account.blamed⟩
  | take i p pooled =>
      have tally := Pool.take_tally n assets b.pool p i account.tally pooled
      have missed := Pool.take_missed b.pool p i pooled account.missed
      obtain ⟨_, _, ⟨_, rfl⟩ | ⟨_, _, rfl⟩⟩ := Pool.pool_take_cases b.pool p i pooled
      all_goals exact ⟨tally, missed, account.legs, account.reported, account.saved, account.blamed⟩
  | aimed i a p busy leg real within =>
      exact ⟨account.tally, account.missed, by simpa [reach] using account.legs, account.reported, account.saved,
        account.blamed⟩
  | fetched i a p body busy leg =>
      exact ⟨account.tally, account.missed, by simpa [reach] using account.legs, account.reported, account.saved,
        account.blamed⟩
  | housed i a p body files busy leg made =>
      exact ⟨account.tally, account.missed, by simpa [reach] using account.legs, account.reported, account.saved,
        account.blamed⟩
  | stored i a p body modified files q busy leg written pooled =>
      have tally := Pool.finish_tally n assets b.pool q i .done account.tally pooled
      have missed := Pool.finish_missed b.pool q i .done pooled account.missed
      obtain ⟨job, atWork, rfl⟩ := Pool.pool_finish_cases b.pool q i .done pooled
      have same : job = a := by simpa [job?, atWork, Pool.Worker.job?] using busy
      subst same
      refine ⟨tally, missed, by simpa using account.legs, ?_, ?_, ?_⟩
      · simp [account.reported, Pool.State.complaints, Pool.Verdict.complaint?]
      · simp [account.saved, Pool.State.successes, Pool.Verdict.isDone]
      · intro x member
        rcases List.mem_append.mp member with before | last
        · exact account.blamed x before
        · rw [List.mem_singleton.mp last]
          trivial
  | failed i a f leg q busy reached trouble pooled =>
      have tally := Pool.finish_tally n assets b.pool q i _ account.tally pooled
      have missed := Pool.finish_missed b.pool q i _ pooled account.missed
      obtain ⟨job, atWork, rfl⟩ := Pool.pool_finish_cases b.pool q i _ pooled
      have same : job = a := by simpa [job?, atWork, Pool.Worker.job?] using busy
      subst same
      refine ⟨tally, missed, by simpa using account.legs, ?_, ?_, ?_⟩
      · simp only [account.reported, Pool.State.complaints, List.filterMap_append, List.filterMap_cons,
          List.filterMap_nil]
        cases (exportVerdict job (.error f)).complaint? <;> simp
      · simp [account.saved, Pool.State.successes, error_undone]
      · intro x member
        rcases List.mem_append.mp member with before | last
        · exact account.blamed x before
        · rw [List.mem_singleton.mp last]
          exact trouble_blames job f trouble

theorem run_accounted (root : Path) (files : FileTree) (n : Nat) (assets : List Asset) (b : Retrieval)
    (run : Run (start root files n assets) b) : Account n assets b := by
  induction run with
  | rest => exact start_accounted root files n assets
  | move c d m _ lawful moved ih => exact advance_accounted n assets c d _ ih (step_advance c d m lawful moved)

theorem leg_distance (leg : Leg) : leg.distance ≤ 3 := by
  cases leg <;> simp [Leg.distance]

theorem advance_smaller (b c : Retrieval) {given : List (Asset × Bytes)} (advance : Advance b given c) :
    c.size < b.size := by
  cases advance with
  | put p pooled =>
      have smaller := Pool.put_smaller b.pool p pooled
      simp only [size]
      omega
  | take i p pooled =>
      have smaller := Pool.take_smaller b.pool p i pooled
      simp only [size]
      omega
  | aimed i a p busy leg real within =>
      have nearer := set_sum Leg.distance b.legs i _ (.aimed p) leg
      simp only [Leg.distance] at nearer
      simp only [size, reach]
      omega
  | fetched i a p body busy leg =>
      have nearer := set_sum Leg.distance b.legs i _ (.fetched p body) leg
      simp only [Leg.distance] at nearer
      simp only [size, reach]
      omega
  | housed i a p body files busy leg made =>
      have nearer := set_sum Leg.distance b.legs i _ (.housed p body) leg
      simp only [Leg.distance] at nearer
      simp only [size, reach]
      omega
  | stored i a p body modified files q busy leg written pooled =>
      have smaller := Pool.finish_smaller b.pool q i _ pooled
      have nearer := set_sum Leg.distance b.legs i _ .fresh leg
      simp only [Leg.distance] at nearer
      simp only [size]
      omega
  | failed i a f leg q busy reached trouble pooled =>
      have smaller := Pool.finish_smaller b.pool q i _ pooled
      have nearer := set_sum Leg.distance b.legs i _ .fresh reached
      have few := leg_distance leg
      simp only [Leg.distance] at nearer
      simp only [size]
      omega

theorem settle_possible (b : Retrieval) (i : Nat) (a : Asset) (v : Pool.Verdict) (busy : b.job? i = some a) :
    ∃ c, b.settle i v = some c := by
  rw [job?] at busy
  cases found : b.pool.workers[i]? with
  | none =>
      rw [found] at busy
      cases busy
  | some worker =>
      rw [found] at busy
      cases worker with
      | busy job => simp [settle, Pool.State.finish, found]
      | _ => cases busy

theorem busy_goes (b : Retrieval) (i : Nat) (a : Asset) (leg : Leg) (busy : b.job? i = some a)
    (reached : b.legs[i]? = some leg) : ∃ m c, m.Lawful ∧ b.step m = some c := by
  cases leg with
  | fresh =>
      refine ⟨.aim i, ?_⟩
      simp only [step, aim, busy, reached]
      cases aimed b.files b.root a.path with
      | ok p => exact ⟨_, trivial, rfl⟩
      | error f =>
          obtain ⟨c, moved⟩ := settle_possible b i a (exportVerdict a (.error f)) busy
          exact ⟨c, trivial, moved⟩
  | aimed p =>
      refine ⟨.answer i (.ok []), b.reach i (.fetched p []), ?_, ?_⟩
      · intro f failed
        cases failed
      · simp only [step, answer, busy, reached]
  | fetched p body =>
      refine ⟨.house i, ?_⟩
      simp only [step, house, busy, reached]
      cases changed b.files p.parent fun t => t.makeFolders p.parent with
      | ok files => exact ⟨_, trivial, rfl⟩
      | error f =>
          obtain ⟨c, moved⟩ := settle_possible b i a (exportVerdict a (.error f)) busy
          exact ⟨c, trivial, moved⟩
  | housed p body =>
      refine ⟨.store i 0, ?_⟩
      simp only [step, store, busy, reached]
      cases changed b.files p fun t => t.write p body 0 with
      | ok files =>
          obtain ⟨c, moved⟩ := settle_possible { b with files, saved := b.saved ++ [⟨a, p, body⟩] } i a .done busy
          exact ⟨c, trivial, moved⟩
      | error f =>
          obtain ⟨c, moved⟩ := settle_possible b i a (exportVerdict a (.error f)) busy
          exact ⟨c, trivial, moved⟩

theorem steady_workers (n : Nat) (assets : List Asset) (b : Retrieval) (account : Account n assets b)
    (steady : b.pool.crash? = none) : ∀ w ∈ b.pool.workers, w ≠ .crashed := by
  rintro w member rfl
  exact account.missed member steady

-- While no worker was lost, something can be done until all workers have stopped.
theorem step_possible (n : Nat) (assets : List Asset) (b : Retrieval) (positive : 1 ≤ n)
    (account : Account n assets b) (steady : b.pool.crash? = none) (running : b.pool.isOver = false) :
    ∃ m c, m.Lawful ∧ b.step m = some c := by
  cases next : b.pool.next? with
  | none =>
      have stopped := Pool.stuck_pool_stopped n assets b.pool positive account.tally
        (steady_workers n assets b account steady) next
      obtain ⟨_, empty, _⟩ := Pool.all_stopped_done n assets b.pool positive account.tally stopped
      rw [Batch.stopped_over b.pool stopped empty] at running
      cases running
  | some task =>
      have fits := Pool.next_fits b.pool task next
      cases task with
      | put =>
          obtain ⟨p, pooled⟩ := fits
          exact ⟨.put, { b with pool := p }, trivial, by simp [step, pooled]⟩
      | take i =>
          obtain ⟨p, pooled⟩ := fits
          exact ⟨.take i, { b with pool := p }, trivial, by simp [step, pooled]⟩
      | work i a =>
          have atWork : b.pool.workers[i]? = some (.busy a) := fits
          have busy : b.job? i = some a := by simp [job?, atWork, Pool.Worker.job?]
          obtain ⟨bound, _⟩ := List.getElem?_eq_some_iff.mp atWork
          have within : i < b.legs.length := by rwa [account.legs, ← account.tally.crew]
          exact busy_goes b i a b.legs[i] busy (List.getElem?_eq_getElem within)

theorem over_accounted (n : Nat) (assets : List Asset) (b : Retrieval) (positive : 1 ≤ n)
    (account : Account n assets b) (steady : b.pool.crash? = none) (allOver : b.pool.isOver = true) :
    b.pool.taken = assets ∧ (b.pool.finished.map Prod.fst).Perm assets ∧
      (b.pool.failures ++ b.saved.map Copy.asset).Perm assets := by
  have stopped : ∀ w ∈ b.pool.workers, w = .stopped := by
    intro w member
    simp only [Pool.State.isOver, Bool.and_eq_true, List.all_eq_true] at allOver
    have halted := allOver.2 w member
    cases w with
    | stopped => rfl
    | crashed => exact (steady_workers n assets b account steady _ member rfl).elim
    | idle => cases halted
    | busy job => cases halted
  obtain ⟨taken, _, finished⟩ := Pool.all_stopped_done n assets b.pool positive account.tally stopped
  refine ⟨taken, finished, List.Perm.trans ?_ finished⟩
  rw [account.saved, Pool.State.failures, Pool.State.successes, ← List.map_append]
  apply List.Perm.map
  have either : b.pool.finished.filter (fun x => x.2.isDone) =
      b.pool.finished.filter fun x => !x.2.complaint?.isSome := by
    apply List.filter_congr
    intro x member
    have whole := (Pool.crash_none b.pool).mp steady x member
    obtain ⟨a, v⟩ := x
    cases v with
    | done => rfl
    | failed c => rfl
    | crashed f => cases whole
  rw [either]
  exact List.filter_append_perm _ _

-- Everything that was reported is what has failed, in the same order.
theorem reported_failures (n : Nat) (assets : List Asset) (b : Retrieval) (account : Account n assets b) :
    b.reported.map Pool.Complaint.path = b.pool.failures.map Asset.path := by
  rw [account.reported, Pool.State.complaints, Pool.State.failures]
  have blamed := account.blamed
  generalize b.pool.finished = finished at blamed ⊢
  induction finished with
  | nil => rfl
  | cons x rest ih =>
      have further := ih fun y member => blamed y (List.mem_cons_of_mem x member)
      have own := blamed x List.mem_cons_self
      obtain ⟨a, v⟩ := x
      cases v with
      | done => simpa [Pool.Verdict.complaint?] using further
      | crashed f => simpa [Pool.Verdict.complaint?] using further
      | failed c =>
          have named : c.path = a.path := own
          simpa [Pool.Verdict.complaint?, named] using further

end HostingAdmin.Hosting.Retrieval
