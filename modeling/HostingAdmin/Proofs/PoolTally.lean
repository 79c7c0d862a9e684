import HostingAdmin.Pool
import HostingAdmin.Proofs.ListUpdates

set_option autoImplicit false

namespace HostingAdmin.Pool

variable {α : Type}

def Worker.isStopped : Worker α → Bool
  | .stopped => true
  | _ => false

def State.busy (s : State α) : List α := s.workers.filterMap Worker.job?

def State.stoppedCount (s : State α) : Nat := s.workers.countP Worker.isStopped

-- `ahead` are the jobs that nobody has taken yet. As the marks follow them,
-- a worker that has stopped has seen a mark, and then no job is ahead.
structure Tally (n : Nat) (jobs : List α) (s : State α) : Prop where
  bound : s.bound = n
  crew : s.workers.length = n
  line : ∃ ahead marks, s.queue ++ s.pending = ahead.map some ++ List.replicate marks none ∧
    s.taken ++ ahead = jobs ∧ marks + s.stoppedCount = n ∧ (0 < s.stoppedCount → ahead = [])
  accounted : (s.finished.map Prod.fst ++ s.busy).Perm s.taken

theorem pool_put_cases (s t : State α) (moved : s.put = some t) :
    ∃ x rest, s.pending = x :: rest ∧ s.hasRoom = true ∧
      t = { s with pending := rest, queue := s.queue ++ [x] } := by
  rw [State.put] at moved
  cases pendingEq : s.pending with
  | nil => simp [pendingEq] at moved
  | cons x rest =>
      by_cases room : s.hasRoom = true
      · exact ⟨x, rest, rfl, room, by simpa [pendingEq, room] using moved.symm⟩
      · simp [pendingEq, room] at moved

theorem pool_take_cases (s t : State α) (i : Nat) (moved : s.take i = some t) :
    s.workers[i]? = some .idle ∧ ∃ rest,
      (s.queue = none :: rest ∧ t = { s with queue := rest, workers := s.workers.set i .stopped }) ∨
      (∃ job, s.queue = some job :: rest ∧ t = { s with
        queue := rest, workers := s.workers.set i (.busy job), taken := s.taken ++ [job] }) := by
  rw [State.take] at moved
  split at moved
  · rename_i rest idle queueEq
    exact ⟨idle, rest, .inl ⟨queueEq, (Option.some.inj moved).symm⟩⟩
  · rename_i job rest idle queueEq
    exact ⟨idle, rest, .inr ⟨job, queueEq, (Option.some.inj moved).symm⟩⟩
  · cases moved

theorem pool_finish_cases (s t : State α) (i : Nat) (v : Verdict) (moved : s.finish i v = some t) :
    ∃ job, s.workers[i]? = some (.busy job) ∧ t = { s with
      workers := s.workers.set i v.worker, finished := s.finished ++ [(job, v)] } := by
  rw [State.finish] at moved
  split at moved
  · rename_i job atWork
    exact ⟨job, atWork, (Option.some.inj moved).symm⟩
  · cases moved

theorem start_tally (n : Nat) (jobs : List α) : Tally n jobs (State.start n jobs) where
  bound := rfl
  crew := by simp [State.start]
  line := ⟨jobs, n, by simp [State.start], by simp [State.start],
    by simp [State.start, State.stoppedCount, List.countP_replicate, Worker.isStopped],
    by simp [State.start, State.stoppedCount, List.countP_replicate, Worker.isStopped]⟩
  accounted := by simp [State.start, State.busy, List.filterMap_replicate, Worker.job?]

theorem put_tally (n : Nat) (jobs : List α) (s t : State α) (tally : Tally n jobs s)
    (moved : s.put = some t) : Tally n jobs t := by
  obtain ⟨x, rest, pendingEq, _, rfl⟩ := pool_put_cases s t moved
  obtain ⟨ahead, marks, line, others⟩ := tally.line
  refine ⟨tally.bound, tally.crew, ⟨ahead, marks, ?_, others⟩, tally.accounted⟩
  simpa [pendingEq] using line

theorem mark_first (ahead : List α) (marks : Nat) (rest : List (Option α))
    (line : none :: rest = ahead.map some ++ List.replicate marks none) :
    ahead = [] ∧ ∃ fewer, marks = fewer + 1 ∧ rest = List.replicate fewer none := by
  cases ahead with
  | cons job more => simp at line
  | nil =>
      cases marks with
      | zero => simp at line
      | succ fewer => exact ⟨rfl, fewer, rfl, by simpa [List.replicate_succ] using line⟩

theorem job_first (ahead : List α) (marks : Nat) (job : α) (rest : List (Option α))
    (line : some job :: rest = ahead.map some ++ List.replicate marks none) :
    ∃ more, ahead = job :: more ∧ rest = more.map some ++ List.replicate marks none := by
  cases ahead with
  | nil => cases marks <;> simp [List.replicate_succ] at line
  | cons first more =>
      have parts : job = first ∧ rest = more.map some ++ List.replicate marks none := by
        simpa using line
      exact ⟨more, by rw [parts.1], parts.2⟩

theorem take_tally (n : Nat) (jobs : List α) (s t : State α) (i : Nat) (tally : Tally n jobs s)
    (moved : s.take i = some t) : Tally n jobs t := by
  obtain ⟨idle, rest, ⟨queueEq, rfl⟩ | ⟨job, queueEq, rfl⟩⟩ := pool_take_cases s t i moved
  · obtain ⟨ahead, marks, line, whole, full, _⟩ := tally.line
    rw [queueEq, List.cons_append] at line
    obtain ⟨rfl, fewer, rfl, remaining⟩ := mark_first ahead marks (rest ++ s.pending) line
    have counted := set_count Worker.isStopped s.workers i .idle .stopped idle
    have values := set_values Worker.job? s.workers i .idle .stopped idle
    refine ⟨tally.bound, by simpa using tally.crew, ⟨[], fewer, by simpa using remaining, whole, ?_, fun _ => rfl⟩, ?_⟩
    · simp only [State.stoppedCount, Worker.isStopped] at full counted ⊢
      simp at counted
      omega
    · simp only [Worker.job?, Option.toList_none, List.append_nil] at values
      exact (List.Perm.append_left _ values).trans tally.accounted
  · obtain ⟨ahead, marks, line, whole, full, empty⟩ := tally.line
    rw [queueEq, List.cons_append] at line
    obtain ⟨more, rfl, remaining⟩ := job_first ahead marks job (rest ++ s.pending) line
    have counted := set_count Worker.isStopped s.workers i .idle (.busy job) idle
    have values := set_values Worker.job? s.workers i .idle (.busy job) idle
    simp only [Worker.isStopped, Bool.false_eq_true, if_false, Nat.add_zero] at counted
    refine ⟨tally.bound, by simpa using tally.crew, ⟨more, marks, remaining, by simpa using whole, ?_, ?_⟩, ?_⟩
    · simpa only [State.stoppedCount, counted] using full
    · intro stopped
      have impossible := empty (by simpa only [State.stoppedCount, counted] using stopped)
      cases impossible
    · simp only [Worker.job?, Option.toList_none, Option.toList_some, List.append_nil] at values
      have more := tally.accounted.append_right [job]
      rw [List.append_assoc] at more
      exact (List.Perm.append_left _ values).trans more

theorem finish_tally (n : Nat) (jobs : List α) (s t : State α) (i : Nat) (v : Verdict)
    (tally : Tally n jobs s) (moved : s.finish i v = some t) : Tally n jobs t := by
  obtain ⟨job, atWork, rfl⟩ := pool_finish_cases s t i v moved
  obtain ⟨ahead, marks, line, whole, full, empty⟩ := tally.line
  have left : (v.worker : Worker α).isStopped = false ∧ (v.worker : Worker α).job? = none := by
    cases v <;> exact ⟨rfl, rfl⟩
  have counted := set_count Worker.isStopped s.workers i (.busy job) v.worker atWork
  have values := set_values Worker.job? s.workers i (.busy job) v.worker atWork
  rw [left.1] at counted
  rw [left.2] at values
  simp only [Worker.isStopped, Bool.false_eq_true, if_false, Nat.add_zero] at counted
  simp only [Worker.job?, Option.toList_some, Option.toList_none, List.append_nil] at values
  refine ⟨tally.bound, by simpa using tally.crew, ⟨ahead, marks, line, whole, ?_, ?_⟩, ?_⟩
  · simpa only [State.stoppedCount, counted] using full
  · simpa only [State.stoppedCount, counted] using empty
  · refine List.Perm.trans ?_ tally.accounted
    simp only [List.map_append, List.map_cons, List.map_nil, List.append_assoc]
    refine List.Perm.append_left _ (List.Perm.trans ?_ values)
    exact (List.perm_append_singleton _ _).symm

theorem job_planned (n : Nat) (jobs : List α) (s : State α) (tally : Tally n jobs s) (i : Nat) (job : α)
    (atWork : s.workers[i]? = some (.busy job)) : job ∈ jobs := by
  have busy : job ∈ s.busy := List.mem_filterMap.mpr ⟨.busy job, List.mem_of_getElem? atWork, rfl⟩
  have taken : job ∈ s.taken := tally.accounted.mem_iff.mp (List.mem_append_right _ busy)
  obtain ⟨ahead, marks, _, whole, _⟩ := tally.line
  exact whole ▸ List.mem_append_left ahead taken

theorem all_stopped_done (n : Nat) (jobs : List α) (s : State α) (positive : 1 ≤ n)
    (tally : Tally n jobs s) (stopped : ∀ w ∈ s.workers, w = .stopped) :
    s.taken = jobs ∧ s.queue ++ s.pending = [] ∧ (s.finished.map Prod.fst).Perm jobs := by
  have all : s.stoppedCount = n := by
    rw [← tally.crew, State.stoppedCount, List.countP_eq_length]
    intro w member
    rw [stopped w member]
    rfl
  obtain ⟨ahead, marks, line, whole, full, empty⟩ := tally.line
  have nothing : ahead = [] := empty (by omega)
  have unmarked : marks = 0 := by omega
  subst nothing unmarked
  have idle : s.busy = [] := by
    rw [State.busy, List.filterMap_eq_nil_iff]
    intro w member
    rw [stopped w member]
    rfl
  have taken : s.taken = jobs := by simpa using whole
  refine ⟨taken, by simpa using line, ?_⟩
  simpa [idle, taken] using tally.accounted

end HostingAdmin.Pool
