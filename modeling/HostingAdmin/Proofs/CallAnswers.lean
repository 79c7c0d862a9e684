import HostingAdmin.Proofs.CallTraffic

set_option autoImplicit false

namespace HostingAdmin.Session

open Exchange

-- A request that was sent for another one, with some token, got this answer.
def Obtained (base : Url) (r : Request) (w v : World) (response : Response) : Prop :=
  ∃ token request earlier, Wire.build base client (r.authorized token) = .ok request ∧ w.exchanges <:+ earlier ∧
    .sent request :: earlier <:+ v.exchanges ∧ w.server earlier (.sent request) = .ok response

theorem answered_around (base : Url) (r : Request) (t w v u : World) (response : Response)
    (answered : Obtained base r w v response) (before : Grows t w) (after : Grows v u) :
    Obtained base r t u response := by
  obtain ⟨token, request, earlier, built, first, last, given⟩ := answered
  exact ⟨token, request, earlier, built, before.2.trans first, last.trans after.2, before.1 ▸ given⟩

section

variable (base : Url) (save : Profile → Action Unit)

theorem event_answered (p : Profile) (c : Call) (e : Event) (m : Move) (w u : World) (response : Response)
    (happened : (Channel.nextEvent ⟨.wire base, save⟩ p c).perform w = (.ok e, u)) (moved : c.react p e = some m)
    (ended : m.call.phase = .done (.ok response)) : Obtained base c.request w u response := by
  cases react_cases c p e m moved with
  | ends token again phase reply saved final =>
      cases ended
      obtain ⟨result, x, performed, _, sending⟩ := link_sends base (c.request.authorized token) w
      simp only [Channel.nextEvent, phase, Action.perform_bind, Action.perform_outcome, performed,
        Action.perform_pure] at happened
      cases happened
      cases sending with
      | kept same f failed => cases failed
      | sent request built added given =>
          exact ⟨token, request, w.exchanges, built, List.suffix_rfl, added ▸ List.suffix_rfl, given response rfl⟩
  | _ => cases ended

theorem advance_answered (c d : Call) (w v : World) (response : Response)
    (running : ∀ outcome, c.phase ≠ .done outcome)
    (advanced : (Channel.advance ⟨.wire base, save⟩ c).perform w = (.ok d, v))
    (ended : d.phase = .done (.ok response)) : Obtained base c.request w v response := by
  rw [Channel.advance] at advanced
  obtain ⟨_, _, got, advanced⟩ := Action.bind_ok _ _ w v d advanced
  cases got
  obtain ⟨e, u, happened, advanced⟩ := Action.bind_ok _ _ w v d advanced
  split at advanced
  · cases advanced
    exact (running _ ended).elim
  · rename_i m moved
    obtain ⟨_, x, brought, advanced⟩ := Action.bind_ok _ _ u v d advanced
    cases brought
    obtain ⟨_, y, logged, advanced⟩ := Action.bind_ok _ _ _ v d advanced
    cases advanced
    have answered := event_answered base save w.profile c e m w u response happened moved ended
    have quiet := Action.within_each grows_passage m.notes Note.log (fun n _ => within_log grows_passage n)
      { u with profile := m.profile }
    rw [show (m.notes.forM Note.log).perform { u with profile := m.profile } = (.ok (), v) from logged] at quiet
    exact answered_around base c.request w w u v response answered (grows_passage.stay w) quiet

variable (saves : ∀ p, Action.Within Grows (save p))

include saves

-- What a call comes to is what the server answered to its own request.
theorem drive_answered (fuel : Nat) (c : Call) (w v : World) (response : Response)
    (running : ∀ outcome, c.phase ≠ .done outcome)
    (driven : (Channel.drive ⟨.wire base, save⟩ fuel c).perform w = (.ok response, v)) :
    Obtained base c.request w v response := by
  induction fuel generalizing c w with
  | zero => cases driven
  | succ fuel ih =>
      rw [Channel.drive] at driven
      split at driven
      · rename_i outcome ended
        exact (running outcome ended).elim
      · obtain ⟨d, x, advanced, driven⟩ := Action.bind_ok _ _ w v response driven
        by_cases done_ : ∃ outcome, d.phase = .done outcome
        · obtain ⟨outcome, ended⟩ := done_
          cases fuel with
          | zero => cases driven
          | succ fuel =>
              rw [Channel.drive, ended] at driven
              cases outcome with
              | error f => cases driven
              | ok answer =>
                  cases driven
                  exact advance_answered base save c d w _ _ running advanced ended
        · have further := ih d x (fun outcome ended => done_ ⟨outcome, ended⟩) driven
          rw [advance_request _ c d w x advanced] at further
          have grows := advance_kept grows_passage grows_sends (fun _ _ _ => ⟨rfl, List.suffix_rfl⟩)
            ⟨.wire base, save⟩ saves c w
          rw [advanced] at grows
          exact answered_around base c.request w x v v response further grows (grows_passage.stay v)

theorem send_answered (r : Request) (w v : World) (response : Response)
    (sent : (Channel.send ⟨.wire base, save⟩ r).perform w = (.ok response, v)) : Obtained base r w v response :=
  drive_answered base save saves Channel.maxMoves ⟨r, .new⟩ w v response (fun _ same => by cases same) sent

end

end HostingAdmin.Session
