import HostingAdmin.Proofs.ListUpdates
import HostingAdmin.Proofs.SessionHistory

set_option autoImplicit false

namespace HostingAdmin.Session

-- Why a call may do what it notes, in view of all that was noted before.
def Justified (p : Profile) (requests : List Request) (i : Nat) (earlier : History) : Note → Prop
  | .asked r =>
      r = (Request.plain "POST" "/auth/session").authorized (latestRefresh p earlier.answered) ∧
        (earlier.own i).head?.bind Note.rejection? = some (latestAccess p earlier.answered)
  | .sent r => ∃ q, requests[i]? = some q ∧ r = q.authorized (latestAccess p earlier.answered) ∧
      ∀ token ∈ earlier.refusals i, latestAccess p earlier.answered = token →
        ∃ t, (token, t) ∈ earlier.renewals ∧ t.access = token
  | .renewed stale _ => stale = latestAccess p earlier.answered
  | .saving q => q = afterRenewals p earlier.answered
  | _ => True

def Lawful (p : Profile) (requests : List Request) : History → Prop
  | [] => True
  | (i, n) :: earlier => Justified p requests i earlier n ∧ Lawful p requests earlier

-- What the notes of a call tell about where it stands. A request is refused
-- at most once, before it is sent again.
def Placed (p : Profile) (log : History) (i : Nat) : Phase → Prop
  | .new => log.own i = []
  | .queued stale again => (log.own i).head?.bind Note.rejection? = some stale ∧
      log.refusals i = if again then [stale] else []
  | .refreshing stale again => latestAccess p log.answered = stale ∧
      log.refusals i = if again then [stale] else []
  | .sending _ again => again = false → log.refusals i = []
  | .done _ => True

structure Coherent (p : Profile) (requests : List Request) (s : State) : Prop where
  profile : s.profile = afterRenewals p (History.answered s.notes)
  single : s.calls.countP (fun c => c.phase.isRefreshing) ≤ 1
  asked : s.calls.map Call.request = requests
  placed : ∀ (i : Nat) (c : Call), s.calls[i]? = some c → Placed p s.notes i c.phase
  lawful : Lawful p requests s.notes

-- The ways in which a call can move.
inductive Reacts (c : Call) (p : Profile) : Event → Move → Prop where
  | expires (now : Rat) (phase : c.phase = .new) (old : p.isExpired now = true) : Reacts c p (.start now)
      ⟨⟨c.request, .queued p.accessToken false⟩, p, [.expired c.request.path p.accessToken]⟩
  | sends (now : Rat) (phase : c.phase = .new) (fresh : p.isExpired now = false) :
      Reacts c p (.start now) (c.transmit p false [])
  | asks (stale : String) (again : Bool) (phase : c.phase = .queued stale again) (same : p.accessToken = stale) :
      Reacts c p .enter ⟨⟨c.request, .refreshing stale again⟩, p, [.asked (refreshRequest p)]⟩
  | overtaken (stale : String) (again : Bool) (phase : c.phase = .queued stale again)
      (other : p.accessToken ≠ stale) : Reacts c p .enter (c.transmit p again [.replacedBefore])
  | fails (stale : String) (again : Bool) (phase : c.phase = .refreshing stale again)
      (reply : Except Failure Response) (saved : Except Failure Unit) (f : Failure)
      (refused : granted reply = .error f) : Reacts c p (.answer reply saved) (c.finish p (.error f) [])
  | unsaved (stale : String) (again : Bool) (phase : c.phase = .refreshing stale again)
      (reply : Except Failure Response) (t : Tokens) (f : Failure) (ok : granted reply = .ok t) :
      Reacts c p (.answer reply (.error f))
        (c.finish (p.renewed t) (.error f) [.renewed stale t, .saving (p.renewed t)])
  | renews (stale : String) (again : Bool) (phase : c.phase = .refreshing stale again)
      (reply : Except Failure Response) (t : Tokens) (ok : granted reply = .ok t) :
      Reacts c p (.answer reply (.ok ()))
        (c.transmit (p.renewed t) again [.renewed stale t, .saving (p.renewed t), .completed])
  | refused (token : String) (phase : c.phase = .sending token false) (r : Response)
      (saved : Except Failure Unit) (status : r.status = Status.unauthorized) : Reacts c p (.answer (.ok r) saved)
      ⟨⟨c.request, .queued token true⟩, p, [.refused c.request.method c.request.path token]⟩
  | ends (token : String) (again : Bool) (phase : c.phase = .sending token again)
      (reply : Except Failure Response) (saved : Except Failure Unit)
      (final : ∀ r, reply = .ok r → r.status = Status.unauthorized → again = true) :
      Reacts c p (.answer reply saved) (c.finish p reply [])

theorem react_cases (c : Call) (p : Profile) (e : Event) (m : Move) (moved : c.react p e = some m) :
    Reacts c p e m := by
  unfold Call.react at moved
  split at moved
  · rename_i now phase
    cases moved
    rw [Call.start]
    by_cases old : p.isExpired now = true
    · rw [if_pos old]
      exact .expires now phase old
    · rw [if_neg old]
      exact .sends now phase (Bool.eq_false_iff.mpr old)
  · rename_i stale again phase
    cases moved
    rw [Call.enter]
    split
    · rename_i same
      exact .asks stale again phase same
    · rename_i other
      exact .overtaken stale again phase other
  · rename_i stale again reply saved phase
    cases moved
    rw [Call.refreshed]
    split
    · rename_i f refused
      exact .fails stale again phase reply saved f refused
    · rename_i t ok
      cases saved with
      | error f => exact .unsaved stale again phase reply t f ok
      | ok done => exact .renews stale again phase reply t ok
  · rename_i token again reply saved phase
    cases moved
    unfold Call.answered
    split
    · exact .ends token again phase _ saved (fun r same => by cases same)
    · rename_i r
      by_cases first : r.status = Status.unauthorized ∧ again = false
      · rw [if_pos first]
        rw [first.2] at phase
        exact .refused token phase r saved first.1
      · rw [if_neg first]
        refine .ends token again phase _ saved ?_
        intro other same status
        cases same
        cases again with
        | true => rfl
        | false => exact (first ⟨status, rfl⟩).elim
  · cases moved

theorem react_request (c : Call) (p : Profile) (e : Event) (m : Move) (moved : c.react p e = some m) :
    m.call.request = c.request := by
  cases react_cases c p e m moved <;> rfl

theorem session_step_cases (s t : State) (i : Nat) (e : Event) (moved : s.step i e = some t) :
    ∃ c m, s.calls[i]? = some c ∧ Reacts c s.profile e m ∧ t = s.after i m ∧ (e = .enter → s.isBusy = false) := by
  rw [State.step] at moved
  split at moved
  · cases moved
  · rename_i c found
    split at moved
    · split at moved
      · cases moved
      · rename_i free
        obtain ⟨m, reacted, rfl⟩ := Option.map_eq_some_iff.mp moved
        exact ⟨c, m, found, react_cases c s.profile _ m reacted, rfl, fun _ => Bool.eq_false_iff.mpr free⟩
    · rename_i other
      obtain ⟨m, reacted, rfl⟩ := Option.map_eq_some_iff.mp moved
      exact ⟨c, m, found, react_cases c s.profile e m reacted, rfl, fun enters => (other enters).elim⟩

theorem grown_answered (log : History) (i : Nat) (notes : List Note) (silent : notes.filterMap Note.renewal? = []) :
    (log.grown i notes).answered = log.answered := by
  rw [History.answered, grown_renewals, List.filterMap_reverse, silent]
  rfl

theorem placed_other (p : Profile) (log : History) (i j : Nat) (notes : List Note) (phase : Phase) (other : j ≠ i)
    (turn : notes.filterMap Note.renewal? ≠ [] → phase.isRefreshing = false)
    (placed : Placed p log j phase) : Placed p (log.grown i notes) j phase := by
  have same : (log.grown i notes).own j = log.own j := by rw [grown_own, if_neg other]
  have refusals : (log.grown i notes).refusals j = log.refusals j := by rw [History.refusals, History.refusals, same]
  cases phase with
  | new => exact same.trans placed
  | queued stale again => exact ⟨by rw [same]; exact placed.1, refusals.trans placed.2⟩
  | refreshing stale again =>
      have silent : notes.filterMap Note.renewal? = [] := by
        by_cases silent : notes.filterMap Note.renewal? = []
        · exact silent
        · cases turn silent
      exact ⟨by rw [grown_answered log i notes silent]; exact placed.1, refusals.trans placed.2⟩
  | sending token again => exact fun first => refusals.trans (placed first)
  | done outcome => trivial

theorem new_unrefused (p : Profile) (log : History) (i : Nat) (placed : Placed p log i .new) :
    log.refusals i = [] := by
  rw [History.refusals, show log.own i = [] from placed]
  rfl

theorem among_stale (token stale : String) (again : Bool) (listed : token ∈ if again then [stale] else []) :
    token = stale := by
  cases again with
  | true => simpa using listed
  | false => cases listed

section

variable (p : Profile) (requests : List Request) (s : State) (i : Nat) (c : Call)

-- What a move has to show for itself; the other calls are not concerned.
theorem after_coherent (m : Move) (coherent : Coherent p requests s) (found : s.calls[i]? = some c)
    (request : m.call.request = c.request)
    (profile : m.profile = afterRenewals p (History.grown s.notes i m.notes).answered)
    (lawful : Lawful p requests (History.grown s.notes i m.notes))
    (placed : Placed p (History.grown s.notes i m.notes) i m.call.phase)
    (alone : m.call.phase.isRefreshing = true → s.isBusy = false)
    (turn : m.notes.filterMap Note.renewal? ≠ [] → c.phase.isRefreshing = true) :
    Coherent p requests (s.after i m) where
  profile := profile
  single := by
    have counted := set_count (fun c => c.phase.isRefreshing) s.calls i c m.call found
    have before := coherent.single
    cases refreshing : m.call.phase.isRefreshing with
    | false =>
        simp only [refreshing, Bool.false_eq_true, if_false] at counted
        simp only [State.after]
        omega
    | true =>
        have free : s.calls.countP (fun c => c.phase.isRefreshing) = 0 := by
          rw [List.countP_eq_zero]
          intro d member busy
          have idle := alone refreshing
          rw [State.isBusy, List.any_eq_false] at idle
          exact idle d member busy
        simp only [refreshing, if_true] at counted
        simp only [State.after]
        omega
  asked := by
    rw [← coherent.asked]
    simp only [State.after]
    refine List.ext_getElem? ?_
    intro j
    by_cases here : j = i
    · subst here
      obtain ⟨bound, atJ⟩ := List.getElem?_eq_some_iff.mp found
      simp [bound, request, atJ]
    · rw [List.getElem?_map, List.getElem?_map, List.getElem?_set_ne (fun same => here same.symm)]
  placed := by
    intro j d atJ
    by_cases here : j = i
    · subst here
      have bound : j < s.calls.length := (List.getElem?_eq_some_iff.mp found).1
      rw [State.after, List.getElem?_set_self bound, Option.some.injEq] at atJ
      rw [← atJ]
      exact placed
    · rw [State.after, List.getElem?_set_ne (fun same => here same.symm)] at atJ
      refine placed_other p s.notes i j m.notes d.phase here ?_ (coherent.placed j d atJ)
      intro renews
      cases busy : d.phase.isRefreshing with
      | false => rfl
      | true => exact (here (one_at_most _ s.calls j i d c coherent.single atJ found busy (turn renews))).elim
  lawful := lawful

theorem coherent_tokens (coherent : Coherent p requests s) :
    s.profile.accessToken = latestAccess p (History.answered s.notes) ∧
      s.profile.refreshToken = latestRefresh p (History.answered s.notes) := by
  rw [coherent.profile, after_renewals]
  exact ⟨rfl, rfl⟩

theorem coherent_request (coherent : Coherent p requests s) (found : s.calls[i]? = some c) :
    requests[i]? = some c.request := by
  rw [← coherent.asked, List.getElem?_map, found, Option.map_some]

theorem reacts_coherent (e : Event) (m : Move) (coherent : Coherent p requests s) (found : s.calls[i]? = some c)
    (reacts : Reacts c s.profile e m) (free : e = .enter → s.isBusy = false) :
    Coherent p requests (s.after i m) := by
  obtain ⟨access, refresh⟩ := coherent_tokens p requests s coherent
  have request := coherent_request p requests s i c coherent found
  have placed := coherent.placed i c found
  cases reacts with
  | expires now phase old =>
      rw [phase] at placed
      have silent := new_unrefused p s.notes i placed
      refine after_coherent p requests s i c _ coherent found rfl ?_ ⟨trivial, coherent.lawful⟩ ?_
        (fun refreshing => by cases refreshing) (fun renews => (renews rfl).elim)
      · simpa [Note.renewal?] using coherent.profile
      · simp [Placed, Note.rejection?, Note.refusal?, silent]
  | sends now phase fresh =>
      rw [phase] at placed
      have silent := new_unrefused p s.notes i placed
      refine after_coherent p requests s i c _ coherent found rfl ?_ ⟨?_, coherent.lawful⟩ ?_
        (fun refreshing => by cases refreshing) (fun renews => (renews rfl).elim)
      · simpa [Call.transmit, Note.renewal?] using coherent.profile
      · refine ⟨c.request, request, congrArg c.request.authorized access, ?_⟩
        intro token refused
        simp [silent] at refused
      · simp [Call.transmit, Placed, Note.refusal?, silent]
  | asks stale again phase same =>
      rw [phase] at placed
      have asked : Justified p requests i s.notes (.asked (refreshRequest s.profile)) := by
        refine ⟨by rw [refreshRequest, refresh], ?_⟩
        rw [placed.1, ← same, access]
      refine after_coherent p requests s i c _ coherent found rfl ?_ ⟨asked, coherent.lawful⟩ ?_
        (fun _ => free rfl) (fun renews => (renews rfl).elim)
      · simpa [Note.renewal?] using coherent.profile
      · refine ⟨?_, by simpa [Note.refusal?] using placed.2⟩
        rw [← same, access]
        simp [Note.renewal?]
  | overtaken stale again phase other =>
      rw [phase] at placed
      have sent : Justified p requests i ((i, Note.replacedBefore) :: s.notes)
          (.sent (c.request.authorized s.profile.accessToken)) := by
        refine ⟨c.request, request, by simp [access, Note.renewal?], ?_⟩
        intro token refused same
        have before : token ∈ (if again then [stale] else []) := by
          rw [← placed.2]
          simpa [Note.refusal?] using refused
        have staleEq := among_stale token stale again before
        rw [staleEq] at same
        exact (other (access.trans (by simpa [Note.renewal?] using same))).elim
      refine after_coherent p requests s i c _ coherent found rfl ?_ ⟨sent, trivial, coherent.lawful⟩ ?_
        (fun refreshing => by cases refreshing) (fun renews => (renews rfl).elim)
      · simpa [Call.transmit, Note.renewal?] using coherent.profile
      · intro first
        simpa [Call.transmit, Note.refusal?, first] using placed.2
  | fails stale again phase reply saved f refused =>
      exact after_coherent p requests s i c _ coherent found rfl coherent.profile coherent.lawful trivial
        (fun refreshing => by cases refreshing) (fun renews => (renews rfl).elim)
  | unsaved stale again phase reply t f ok =>
      rw [phase] at placed
      have profile : s.profile.renewed t = afterRenewals p (t :: History.answered s.notes) := by
        rw [coherent.profile]
        rfl
      refine after_coherent p requests s i c _ coherent found rfl profile ?_ trivial
        (fun refreshing => by cases refreshing) (fun _ => by rw [phase]; rfl)
      exact ⟨profile, placed.1.symm, coherent.lawful⟩
  | renews stale again phase reply t ok =>
      rw [phase] at placed
      have profile : s.profile.renewed t = afterRenewals p (t :: History.answered s.notes) := by
        rw [coherent.profile]
        rfl
      have taken : (s.profile.renewed t).accessToken = t.access := by rw [renewed_tokens]
      refine after_coherent p requests s i c _ coherent found rfl profile ?_ ?_
        (fun refreshing => by cases refreshing) (fun _ => by rw [phase]; rfl)
      · refine ⟨⟨c.request, request, by rw [taken]; rfl, ?_⟩, trivial, profile, placed.1.symm, coherent.lawful⟩
        intro token refused same
        have before : token ∈ (if again then [stale] else []) := by
          rw [← placed.2]
          simpa [Note.refusal?] using refused
        rw [among_stale token stale again before] at same ⊢
        exact ⟨t, by simp [Note.renewal?], same⟩
      · intro first
        simpa [Call.transmit, Note.refusal?, first] using placed.2
  | refused token phase r saved status =>
      rw [phase] at placed
      refine after_coherent p requests s i c _ coherent found rfl ?_ ⟨trivial, coherent.lawful⟩ ?_
        (fun refreshing => by cases refreshing) (fun renews => (renews rfl).elim)
      · simpa [Note.renewal?] using coherent.profile
      · simp [Placed, Note.rejection?, Note.refusal?, placed rfl]
  | ends token again phase reply saved final =>
      exact after_coherent p requests s i c _ coherent found rfl coherent.profile coherent.lawful trivial
        (fun refreshing => by cases refreshing) (fun renews => (renews rfl).elim)

end

end HostingAdmin.Session
