import HostingAdmin.Proofs.PoolTally

set_option autoImplicit false

namespace HostingAdmin.Pool

variable {α : Type}

theorem idle_worker (w : Worker α) (idle : w.isIdle = true) : w = .idle := by
  cases w <;> simp [Worker.isIdle] at idle ⊢

theorem taker_idle (s : State α) (i : Nat) (found : s.taker? = some i) : s.workers[i]? = some .idle := by
  unfold State.taker? at found
  dsimp only at found
  split at found
  · rename_i turn
    cases found
    cases workerEq : s.workers[s.taken.length % s.workers.length]? with
    | none => simp [workerEq] at turn
    | some w =>
        have idle : w.isIdle = true := by simpa [workerEq] using turn
        rw [idle_worker w idle]
  · obtain ⟨bound, idle, _⟩ := List.findIdx?_eq_some_iff_getElem.mp found
    rw [List.getElem?_eq_getElem bound, idle_worker _ idle]

theorem taker_none (s : State α) (none_free : s.taker? = none) : ∀ w ∈ s.workers, w.isIdle = false := by
  unfold State.taker? at none_free
  dsimp only at none_free
  split at none_free
  · cases none_free
  · exact List.findIdx?_eq_none_iff.mp none_free

-- What has to hold for a task to be possible.
def Fits (s : State α) : Task α → Prop
  | .put => ∃ t, s.put = some t
  | .take i => ∃ t, s.take i = some t
  | .work i job => s.workers[i]? = some (.busy job)

theorem next_fits (s : State α) (task : Task α) (next : s.next? = some task) : Fits s task := by
  rw [State.next?] at next
  split at next
  · rename_i i found
    obtain ⟨bound, busy, _⟩ := List.findIdx?_eq_some_iff_getElem.mp found
    rw [List.getElem?_eq_getElem bound] at next
    cases workerEq : s.workers[i] with
    | busy job =>
        simp only [workerEq, Option.bind_some, Worker.job?, Option.map_some, Option.some.injEq] at next
        subst next
        rw [Fits, List.getElem?_eq_getElem bound, workerEq]
    | idle => simp [workerEq, Worker.job?] at busy
    | stopped => simp [workerEq, Worker.job?] at busy
    | crashed => simp [workerEq, Worker.job?] at busy
  · split at next
    · rename_i i first rest taker queueEq
      cases next
      have idle := taker_idle s i taker
      cases first <;> simp [Fits, State.take, idle, queueEq]
    · split at next
      · cases next
      · rename_i pendingEq
        by_cases room : s.hasRoom = true
        · rw [if_pos room] at next
          cases next
          cases listEq : s.pending with
          | nil => exact (pendingEq listEq).elim
          | cons x rest => simp [Fits, State.put, listEq, room]
        · rw [if_neg room] at next
          cases next

theorem next_none (s : State α) (stuck : s.next? = none) :
    (∀ w ∈ s.workers, w.job? = none) ∧ (s.queue = [] ∨ ∀ w ∈ s.workers, w.isIdle = false) ∧
      (s.pending = [] ∨ s.hasRoom = false) := by
  rw [State.next?] at stuck
  split at stuck
  · rename_i i found
    obtain ⟨bound, busy, _⟩ := List.findIdx?_eq_some_iff_getElem.mp found
    rw [List.getElem?_eq_getElem bound] at stuck
    simp only [Option.bind_some, Option.map_eq_none_iff] at stuck
    rw [stuck] at busy
    cases busy
  · rename_i nobody
    have free : ∀ w ∈ s.workers, w.job? = none := by
      intro w member
      simpa using List.findIdx?_eq_none_iff.mp nobody w member
    split at stuck
    · cases stuck
    · rename_i neither
      have waiting : s.queue = [] ∨ ∀ w ∈ s.workers, w.isIdle = false := by
        cases takerEq : s.taker? with
        | none => exact .inr (taker_none s takerEq)
        | some i =>
            cases queueEq : s.queue with
            | nil => exact .inl rfl
            | cons first rest => exact (neither i first rest takerEq queueEq).elim
      refine ⟨free, waiting, ?_⟩
      split at stuck
      · rename_i pendingEq
        exact .inl pendingEq
      · by_cases room : s.hasRoom = true
        · rw [if_pos room] at stuck
          cases stuck
        · exact .inr (Bool.eq_false_iff.mpr room)

-- The queue has room for as many entries as there are workers. So if the owner
-- waits for room, the queue is not empty, and some worker could take from it.
theorem stuck_pool_stopped (n : Nat) (jobs : List α) (s : State α) (positive : 1 ≤ n)
    (tally : Tally n jobs s) (steady : ∀ w ∈ s.workers, w ≠ .crashed) (stuck : s.next? = none) :
    ∀ w ∈ s.workers, w = .stopped := by
  obtain ⟨free, waiting, full⟩ := next_none s stuck
  have stopped_unless_idle : ∀ w ∈ s.workers, w.isIdle = false → w = .stopped := by
    intro w member active
    cases w with
    | idle => cases active
    | busy job => cases free _ member
    | stopped => rfl
    | crashed => exact (steady _ member rfl).elim
  rcases waiting with empty | active
  · have pendingEq : s.pending = [] := by
      rcases full with done | full
      · exact done
      · simp only [State.hasRoom, empty, tally.bound, List.length_nil, Bool.or_eq_false_iff,
          decide_eq_false_iff_not] at full
        omega
    obtain ⟨ahead, marks, line, _, count, _⟩ := tally.line
    rw [empty, pendingEq] at line
    have unmarked : marks = 0 := by
      cases marks with
      | zero => rfl
      | succ fewer => simp [List.replicate_succ] at line
    have all : s.workers.countP Worker.isStopped = s.workers.length := by
      rw [tally.crew, ← count, unmarked, Nat.zero_add]
      rfl
    intro w member
    have halted := List.countP_eq_length.mp all w member
    cases w <;> simp [Worker.isStopped] at halted ⊢
  · intro w member
    exact stopped_unless_idle w member (active w member)

theorem put_smaller (s t : State α) (moved : s.put = some t) : t.size < s.size := by
  obtain ⟨x, rest, pendingEq, _, rfl⟩ := pool_put_cases s t moved
  simp only [State.size, pendingEq, List.length_append, List.length_cons, List.length_nil]
  omega

theorem take_smaller (s t : State α) (i : Nat) (moved : s.take i = some t) : t.size < s.size := by
  obtain ⟨idle, rest, ⟨queueEq, rfl⟩ | ⟨job, queueEq, rfl⟩⟩ := pool_take_cases s t i moved
  · have counted : (s.workers.set i .stopped).countP (fun w => w.job?.isSome) + 0 =
        s.workers.countP (fun w => w.job?.isSome) + 0 :=
      set_count (fun w => w.job?.isSome) s.workers i .idle .stopped idle
    simp only [State.size, queueEq, List.length_cons]
    omega
  · have counted : (s.workers.set i (.busy job)).countP (fun w => w.job?.isSome) + 0 =
        s.workers.countP (fun w => w.job?.isSome) + 1 :=
      set_count (fun w => w.job?.isSome) s.workers i .idle (.busy job) idle
    simp only [State.size, queueEq, List.length_cons]
    omega

theorem finish_smaller (s t : State α) (i : Nat) (v : Verdict) (moved : s.finish i v = some t) :
    t.size < s.size := by
  obtain ⟨job, atWork, rfl⟩ := pool_finish_cases s t i v moved
  have free : (v.worker : Worker α).job? = none := by cases v <;> rfl
  have counted := set_count (fun w => w.job?.isSome) s.workers i (.busy job) v.worker atWork
  rw [if_pos (show (Worker.busy job).job?.isSome = true from rfl), free] at counted
  simp only [Option.isSome_none, Bool.false_eq_true, if_false] at counted
  simp only [State.size]
  omega

theorem spent_none (s : State α) (spent : s.size = 0) : s.next? = none := by
  cases next : s.next? with
  | none => rfl
  | some task =>
      have fits := next_fits s task next
      cases task with
      | put =>
          obtain ⟨t, moved⟩ := fits
          have smaller := put_smaller s t moved
          omega
      | take i =>
          obtain ⟨t, moved⟩ := fits
          have smaller := take_smaller s t i moved
          omega
      | work i job =>
          have atWork : s.workers[i]? = some (.busy job) := fits
          have finished : ∃ t, s.finish i .done = some t := by
            rw [State.finish, atWork]
            exact ⟨_, rfl⟩
          obtain ⟨t, moved⟩ := finished
          have smaller := finish_smaller s t i .done moved
          omega

end HostingAdmin.Pool
