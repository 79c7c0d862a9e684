import Mathlib.Data.List.Nodup
import HostingAdmin.Proofs.SessionInvariant

set_option autoImplicit false

namespace HostingAdmin.Session

namespace State

-- The answer to a refresh, if that is what a move brings.
def refreshReply (s : State) (i : Nat) : Event → List (Except Failure Response)
  | .answer reply _ => if (s.calls[i]?).any fun c => c.phase.isRefreshing then [reply] else []
  | _ => []

-- The states that moves lead to in some order, with the answers that the
-- refreshes got on the way, the latest first.
inductive Run (s : State) : List (Except Failure Response) → State → Prop where
  | rest : Run s [] s
  | move (replies : List (Except Failure Response)) (t u : State) (i : Nat) (e : Event)
      (before : Run s replies t) (moved : t.step i e = some u) : Run s (t.refreshReply i e ++ replies) u

end State

theorem start_coherent (p : Profile) (requests : List Request) :
    Coherent p requests (State.start p requests) where
  profile := rfl
  single := by
    have none_busy : (State.start p requests).calls.countP (fun c => c.phase.isRefreshing) = 0 := by
      rw [List.countP_eq_zero]
      intro c member
      obtain ⟨r, _, rfl⟩ := List.mem_map.mp member
      simp [Phase.isRefreshing]
    omega
  asked := by
    rw [State.start, List.map_map]
    exact List.map_id' requests
  placed := by
    intro i c found
    obtain ⟨r, _, rfl⟩ := List.mem_map.mp (List.mem_of_getElem? found)
    rfl
  lawful := trivial

theorem step_coherent (p : Profile) (requests : List Request) (s t : State) (i : Nat) (e : Event)
    (coherent : Coherent p requests s) (moved : s.step i e = some t) : Coherent p requests t := by
  obtain ⟨c, m, found, reacts, rfl, free⟩ := session_step_cases s t i e moved
  exact reacts_coherent p requests s i c e m coherent found reacts free

theorem run_coherent (p : Profile) (requests : List Request) (replies : List (Except Failure Response)) (s : State)
    (run : (State.start p requests).Run replies s) : Coherent p requests s := by
  induction run with
  | rest => exact start_coherent p requests
  | move replies t u i e _ moved ih => exact step_coherent p requests t u i e ih moved

theorem lawful_split (p : Profile) (requests : List Request) (later earlier : History) (i : Nat) (n : Note)
    (lawful : Lawful p requests (later ++ (i, n) :: earlier)) : Justified p requests i earlier n := by
  induction later with
  | nil => exact lawful.1
  | cons first rest ih => exact ih lawful.2

theorem replaced_tokens (p : Profile) (requests : List Request) (log : History) (lawful : Lawful p requests log) :
    log.renewals.map Prod.fst = (log.answered.map Tokens.access ++ [p.accessToken]).tail := by
  induction log with
  | nil => rfl
  | cons entry earlier ih =>
      obtain ⟨i, n⟩ := entry
      have before := ih lawful.2
      cases n with
      | renewed stale t =>
          have replaced : stale = latestAccess p (History.answered earlier) := lawful.1
          change stale :: (History.renewals earlier).map Prod.fst =
            (History.answered earlier).map Tokens.access ++ [p.accessToken]
          rw [before, replaced]
          cases History.answered earlier <;> rfl
      | _ =>
          rw [renewals_cons, answered_cons]
          exact before

theorem single_flight (p : Profile) (requests : List Request) (replies : List (Except Failure Response)) (s : State)
    (run : (State.start p requests).Run replies s) :
    s.calls.countP (fun c => c.phase.isRefreshing) ≤ 1 ∧
    s.profile.accessToken = latestAccess p (History.answered s.notes) ∧
    s.profile.refreshToken = latestRefresh p (History.answered s.notes) ∧
    (∀ later i r earlier, s.notes = later ++ (i, .asked r) :: earlier →
      r = (Request.plain "POST" "/auth/session").authorized (latestRefresh p (History.answered earlier)) ∧
      ((History.own earlier i).head?.bind Note.rejection?) = some (latestAccess p (History.answered earlier))) ∧
    (∀ later i r earlier, s.notes = later ++ (i, .sent r) :: earlier →
      ∃ q, requests[i]? = some q ∧ r = q.authorized (latestAccess p (History.answered earlier)) ∧
        ∀ token ∈ History.refusals earlier i, latestAccess p (History.answered earlier) = token →
          ∃ t, (token, t) ∈ History.renewals earlier ∧ t.access = token) ∧
    ((p.accessToken :: (History.answered s.notes).map Tokens.access).Nodup →
      ∀ token, ((History.renewals s.notes).map Prod.fst).count token ≤ 1) := by
  have coherent := run_coherent p requests replies s run
  obtain ⟨access, refresh⟩ := coherent_tokens p requests s coherent
  refine ⟨coherent.single, access, refresh, ?_, ?_, ?_⟩
  · intro later i r earlier split
    exact lawful_split p requests later earlier i (.asked r) (split ▸ coherent.lawful)
  · intro later i r earlier split
    exact lawful_split p requests later earlier i (.sent r) (split ▸ coherent.lawful)
  · intro fresh token
    rw [replaced_tokens p requests s.notes coherent.lawful]
    have seen : ((History.answered s.notes).map Tokens.access ++ [p.accessToken]).Nodup :=
      (List.perm_append_singleton _ _).nodup_iff.mpr fresh
    exact List.nodup_iff_count_le_one.mp (List.Nodup.sublist (List.tail_sublist _) seen) token

-- Two calls are refused with the same token, and the first one asks for another.
theorem single_flight_two_refused : ∃ replies s,
    (State.start ⟨"", "", "", "t0", "r0"⟩ [.plain "GET" "/a", .plain "GET" "/b"]).Run replies s ∧
      s.calls.countP (fun c => c.phase.isRefreshing) ≤ 1 ∧ s.isBusy = true ∧ s.profile.accessToken = "t0" := by
  have run : (State.start ⟨"", "", "", "t0", "r0"⟩ [.plain "GET" "/a", .plain "GET" "/b"]).Run _ _ :=
    .move _ _ _ 0 .enter (.move _ _ _ 1 (.answer (.ok ⟨401, [], []⟩) (.ok ()))
      (.move _ _ _ 0 (.answer (.ok ⟨401, [], []⟩) (.ok ())) (.move _ _ _ 1 (.start 0)
        (.move _ _ _ 0 (.start 0) .rest rfl) rfl) rfl) rfl) rfl
  have flight := single_flight _ _ _ _ run
  exact ⟨_, _, run, flight.1, rfl, flight.2.1⟩

end HostingAdmin.Session
