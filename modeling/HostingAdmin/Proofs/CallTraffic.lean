import HostingAdmin.Proofs.CallFailures
import HostingAdmin.Proofs.SessionFile

set_option autoImplicit false

namespace HostingAdmin

-- Nothing is sent.
def Silent (w v : World) : Prop := v.exchanges = w.exchanges ∧ v.server = w.server

theorem silent_passage : Action.Passage Silent where
  stay _ := ⟨rfl, rfl⟩
  chain _ _ _ first second := ⟨second.1.trans first.1, second.2.trans first.2⟩
  book _ _ _ := ⟨rfl, rfl⟩

namespace Exchange

-- An exchange carries a request, with some access token, to its address below a base.
def Bears (base : Url) (r : Request) (e : Exchange) : Prop :=
  ∃ token sent, Wire.build base client (r.authorized token) = .ok sent ∧ e = .sent sent

-- An exchange asks for new tokens.
def Renews (base : Url) (e : Exchange) : Prop :=
  ∃ p sent, Wire.build base client (Session.refreshRequest p) = .ok sent ∧ e = .sent sent

end Exchange

open Exchange

-- The server does not accept the token of an exchange.
def Refused (server : Server) (before : List Exchange) (e : Exchange) : Prop :=
  ∃ response, server before e = .ok response ∧ response.status = Status.unauthorized

-- What one call sends, the latest first, on top of what was sent before.
inductive Traffic (base : Url) (server : Server) (r : Request) (before : List Exchange) : List Exchange → Prop where
  | unsent (early : List Exchange) (renewing : ∀ e ∈ early, Renews base e) : Traffic base server r before early
  | once (early late : List Exchange) (e : Exchange) (renewing : ∀ e ∈ late ++ early, Renews base e)
      (bears : Bears base r e) : Traffic base server r before (late ++ e :: early)
  | twice (early late : List Exchange) (e again : Exchange) (renewing : ∀ e ∈ late ++ early, Renews base e)
      (bears : Bears base r e) (refused : Refused server (early ++ before) e) (repeats : Bears base r again) :
      Traffic base server r before (again :: late ++ e :: early)

theorem traffic_members (base : Url) (server : Server) (r : Request) (before sent : List Exchange)
    (traffic : Traffic base server r before sent) (e : Exchange) (member : e ∈ sent) :
    Bears base r e ∨ Renews base e := by
  cases traffic with
  | unsent _ renewing => exact .inr (renewing e member)
  | once early late x renewing bears =>
      simp only [List.mem_append, List.mem_cons] at member renewing
      rcases member with after | rfl | before
      · exact .inr (renewing e (.inl after))
      · exact .inl bears
      · exact .inr (renewing e (.inr before))
  | twice early late x again renewing bears _ repeats =>
      simp only [List.mem_append, List.mem_cons] at member renewing
      rcases member with (rfl | after) | rfl | before
      · exact .inl repeats
      · exact .inr (renewing e (.inl after))
      · exact .inl bears
      · exact .inr (renewing e (.inr before))

theorem renews_post (base : Url) (e : Exchange) (renews : Renews base e) : e.method = "POST" := by
  obtain ⟨p, sent, built, rfl⟩ := renews
  exact (Wire.build_parts base _ _ sent built).1.trans Text.upper_post

theorem bears_get (base : Url) (r : Request) (e : Exchange) (get : r.method = "GET") (bears : Bears base r e) :
    e.method = "GET" := by
  obtain ⟨token, sent, built, rfl⟩ := bears
  have same := (Wire.build_parts base _ _ sent built).1
  rw [show (r.authorized token).method = r.method from rfl, get] at same
  exact same.trans Text.upper_get

-- What one exchange came to: nothing was sent, or the reply is the one of the server.
inductive Sending (base : Url) (r : Request) (w v : World) (result : Except Failure Response) : Prop where
  | kept (same : v.exchanges = w.exchanges) (f : Failure) (failed : result = .error f)
  | sent (request : WireRequest) (built : Wire.build base client r = .ok request)
      (added : v.exchanges = .sent request :: w.exchanges)
      (given : ∀ response, result = .ok response → w.server w.exchanges (.sent request) = .ok response)

theorem link_sends (base : Url) (r : Request) (w : World) : ∃ result v,
    ((Link.wire base).send r).perform w = (result, v) ∧ v.server = w.server ∧ Sending base r w v result := by
  let about : Members Json := [("method", .str r.method), ("path", .str r.path)]
  obtain ⟨u, recorded, quiet⟩ := Action.record_within silent_passage .debug "Making Realm API request" about w
  simp only [Link.send, Action.perform_bind, about] at recorded ⊢
  rw [recorded]
  dsimp only
  cases built : Wire.build base [("User-Agent", Program.agent)] r with
  | error f => exact ⟨.error f, u, rfl, quiet.2, .kept quiet.1 f rfl⟩
  | ok request =>
      obtain ⟨result, v, performed, server, added, given⟩ := Wire.once_sends request u
      rw [quiet.1, quiet.2] at given
      rw [quiet.1] at added
      simp only [Action.ofExcept, Action.perform_pure, performed]
      cases result with
      | error f =>
          exact ⟨.error f, v, rfl, server.trans quiet.2, .sent request built added fun _ same => by cases same⟩
      | ok x =>
          let after : Members Json := about ++ [("status", .int x.1.status)]
          obtain ⟨z, logged, still⟩ := Action.record_within silent_passage .debug "Realm API response" after v
          simp only [after, about] at logged
          dsimp only
          rw [logged]
          refine ⟨.ok x.1, z, rfl, still.2.trans (server.trans quiet.2), .sent request built (still.1.trans added) ?_⟩
          rintro response same
          cases same
          exact (given x rfl).1

namespace Session

-- What a call that is not over has sent: refreshes only, or its request as well, once,
-- and that was refused.
def Begun (base : Url) (server : Server) (r : Request) (before sent : List Exchange) : Bool → Prop
  | false => ∀ e ∈ sent, Renews base e
  | true => ∃ early late e, sent = late ++ e :: early ∧ (∀ x ∈ late ++ early, Renews base x) ∧ Bears base r e ∧
      Refused server (early ++ before) e

def Progress (base : Url) (server : Server) (r : Request) (before sent : List Exchange) : Phase → Prop
  | .new => Begun base server r before sent false
  | .queued _ again | .refreshing _ again | .sending _ again => Begun base server r before sent again
  | .done _ => Traffic base server r before sent

section

variable {base : Url} {server : Server} {r : Request} {before sent : List Exchange} {again : Bool}
  (begun : Begun base server r before sent again)

include begun

theorem begun_traffic : Traffic base server r before sent := by
  cases again with
  | false => exact .unsent sent begun
  | true =>
      obtain ⟨early, late, e, rfl, renewing, bears, _⟩ := begun
      exact .once early late e renewing bears

theorem begun_renewed (e : Exchange) (renews : Renews base e) : Begun base server r before (e :: sent) again := by
  cases again with
  | false =>
      intro x member
      rcases List.mem_cons.mp member with rfl | older
      · exact renews
      · exact begun x older
  | true =>
      obtain ⟨early, late, first, rfl, renewing, bears, refused⟩ := begun
      refine ⟨early, e :: late, first, rfl, ?_, bears, refused⟩
      intro x member
      rcases List.mem_cons.mp member with rfl | older
      · exact renews
      · exact renewing x older

theorem begun_sent (e : Exchange) (bears : Bears base r e) : Traffic base server r before (e :: sent) := by
  cases again with
  | false => exact .once sent [] e begun bears
  | true =>
      obtain ⟨early, late, first, rfl, renewing, firstBears, refused⟩ := begun
      exact .twice early late first e renewing firstBears refused bears

end

theorem begun_refused (base : Url) (server : Server) (r : Request) (before sent : List Exchange) (e : Exchange)
    (begun : Begun base server r before sent false) (bears : Bears base r e)
    (refused : Refused server (sent ++ before) e) : Begun base server r before (e :: sent) true :=
  ⟨sent, [], e, rfl, begun, bears, refused⟩

theorem progress_traffic (base : Url) (server : Server) (r : Request) (before sent : List Exchange) (phase : Phase)
    (progress : Progress base server r before sent phase) : Traffic base server r before sent := by
  cases phase with
  | done outcome => exact progress
  | new =>
      have begun : Begun base server r before sent false := progress
      exact begun_traffic begun
  | queued stale again =>
      have begun : Begun base server r before sent again := progress
      exact begun_traffic begun
  | refreshing stale again =>
      have begun : Begun base server r before sent again := progress
      exact begun_traffic begun
  | sending token again =>
      have begun : Begun base server r before sent again := progress
      exact begun_traffic begun

-- A world in which a call has come so far.
structure Sent (server : Server) (before sent : List Exchange) (w : World) : Prop where
  server : w.server = server
  exchanges : w.exchanges = sent ++ before

theorem sent_silent (server : Server) (before sent : List Exchange) (w v : World) (reached : Sent server before sent w)
    (silent : Silent w v) : Sent server before sent v :=
  ⟨silent.2.trans reached.server, silent.1.trans reached.exchanges⟩

-- What an event leads to.
def Follows (base : Url) (server : Server) (before : List Exchange) (p : Profile) (c : Call) (e : Event)
    (v : World) : Prop :=
  ∃ m sent, c.react p e = some m ∧ m.call.request = c.request ∧ Sent server before sent v ∧
    Progress base server c.request before sent m.call.phase

theorem answered_request (c : Call) (p : Profile) (token : String) (again : Bool) (reply : Except Failure Response) :
    (c.answered p token again reply).call.request = c.request := by
  unfold Call.answered
  split
  · rfl
  · split <;> rfl

section

variable (server : Server) (before sent : List Exchange) (base : Url) (r : Request) (w : World)
  (reached : Sent server before sent w)

include reached

-- The answer to the request of a call ends it, or it was refused for the first time.
theorem sending_follows (p : Profile) (token : String) (again : Bool) (begun : Begun base server r before sent again) :
    ∃ reply v, ((Link.wire base).send (r.authorized token)).perform w = (reply, v) ∧
      Follows base server before p ⟨r, .sending token again⟩ (.answer reply (.ok ())) v := by
  obtain ⟨reply, v, performed, sameServer, sending⟩ := link_sends base (r.authorized token) w
  refine ⟨reply, v, performed, (Call.answered ⟨r, .sending token again⟩ p token again reply), ?_⟩
  have same := sameServer.trans reached.server
  cases sending with
  | kept silent f failed =>
      subst failed
      exact ⟨sent, rfl, rfl, ⟨same, silent.trans reached.exchanges⟩, begun_traffic begun⟩
  | sent request built added given =>
      have bears : Bears base r (.sent request) := ⟨token, request, built, rfl⟩
      refine ⟨.sent request :: sent, rfl, answered_request _ _ _ _ _, ⟨same, ?_⟩, ?_⟩
      · rw [added, reached.exchanges]
        rfl
      · cases reply with
        | error f => exact begun_sent begun _ bears
        | ok response =>
            simp only [Call.answered]
            split
            · rename_i refusal
              obtain ⟨unauthorized, rfl⟩ := refusal
              refine begun_refused base server r before sent _ begun bears ⟨response, ?_, unauthorized⟩
              rw [← reached.server, ← reached.exchanges]
              exact given response rfl
            · exact begun_sent begun _ bears

theorem refresh_sends (p : Profile) (again : Bool) (begun : Begun base server r before sent again) :
    ∃ reply v fresh, ((Link.wire base).send (refreshRequest p)).perform w = (reply, v) ∧ Sent server before fresh v ∧
      Begun base server r before fresh again := by
  obtain ⟨reply, v, performed, sameServer, sending⟩ := link_sends base (refreshRequest p) w
  have same := sameServer.trans reached.server
  cases sending with
  | kept silent f failed => exact ⟨reply, v, sent, performed, ⟨same, silent.trans reached.exchanges⟩, begun⟩
  | sent request built added given =>
      refine ⟨reply, v, .sent request :: sent, performed, ⟨same, ?_⟩, ?_⟩
      · rw [added, reached.exchanges]
        rfl
      · exact begun_renewed begun _ ⟨p, request, built, rfl⟩

end

theorem refreshed_progress (base : Url) (server : Server) (before sent : List Exchange) (r : Request) (p : Profile)
    (stale : String) (again : Bool) (reply : Except Failure Response) (saved : Except Failure Unit)
    (begun : Begun base server r before sent again) :
    let m := Call.refreshed ⟨r, .refreshing stale again⟩ p stale again reply saved
    m.call.request = r ∧ Progress base server r before sent m.call.phase := by
  rw [Call.refreshed]
  cases granted reply with
  | error f => exact ⟨rfl, begun_traffic begun⟩
  | ok t =>
      cases saved with
      | error f => exact ⟨rfl, begun_traffic begun⟩
      | ok done => exact ⟨rfl, begun⟩

-- The session stands as it did.
def Idle (w v : World) : Prop := v.server = w.server ∧ v.exchanges = w.exchanges ∧ v.profile = w.profile

theorem idle_passage : Action.Passage Idle where
  stay _ := ⟨rfl, rfl, rfl⟩
  chain _ _ _ first second :=
    ⟨second.1.trans first.1, second.2.1.trans first.2.1, second.2.2.trans first.2.2⟩
  book _ _ _ := ⟨rfl, rfl, rfl⟩

-- After its event, a move brings the profile, and is logged.
theorem advance_moved {R : World → World → Prop} (passage : Action.Passage R) (ch : Channel) (c : Call) (e : Event)
    (m : Move) (w u : World) (happened : (ch.nextEvent w.profile c).perform w = (.ok e, u))
    (moved : c.react w.profile e = some m) :
    ∃ v, (ch.advance c).perform w = (.ok m.call, v) ∧ R { u with profile := m.profile } v := by
  let x : World := { u with profile := m.profile }
  have logged := Action.within_each passage m.notes Note.log (fun n _ => within_log passage n) x
  obtain ⟨v, done⟩ := notes_logged m.notes x
  rw [done] at logged
  refine ⟨v, ?_, logged⟩
  rw [Channel.advance, Action.perform_bind, Action.perform_get]
  dsimp only
  rw [Action.perform_bind, happened]
  dsimp only
  rw [moved]
  simp only [Action.perform_bind, Action.perform_modify]
  rw [show (m.notes.forM Note.log).perform { u with profile := m.profile } = (.ok (), v) from done]
  rfl

section

variable (base : Url) (save : Profile → Action Unit) (saves : ∀ p, Action.Within Silent (save p))

include saves

theorem event_follows (server : Server) (before sent : List Exchange) (p : Profile) (c : Call) (w : World)
    (running : ∀ outcome, c.phase ≠ .done outcome) (reached : Sent server before sent w)
    (progress : Progress base server c.request before sent c.phase) :
    ∃ e v, (Channel.nextEvent ⟨.wire base, save⟩ p c).perform w = (.ok e, v) ∧ Follows base server before p c e v := by
  obtain ⟨r, phase⟩ := c
  cases phase with
  | new =>
      refine ⟨_, _, rfl, _, sent, rfl, ?_, reached, ?_⟩
      · rw [Call.start]
        split <;> rfl
      · rw [Call.start]
        split <;> exact progress
  | queued stale again =>
      refine ⟨_, _, rfl, _, sent, rfl, ?_, reached, ?_⟩
      · rw [Call.enter]
        split <;> rfl
      · rw [Call.enter]
        split <;> exact progress
  | sending token again =>
      obtain ⟨reply, v, performed, follows⟩ :=
        sending_follows server before sent base r w reached p token again progress
      refine ⟨.answer reply (.ok ()), v, ?_, follows⟩
      simp only [Channel.nextEvent, Action.perform_bind, Action.perform_outcome, performed, Action.perform_pure]
  | done outcome => exact (running outcome rfl).elim
  | refreshing stale again =>
      obtain ⟨reply, u, fresh, performed, after, begun⟩ :=
        refresh_sends server before sent base r w reached p again progress
      cases grantedEq : granted reply with
      | error f =>
          refine ⟨.answer reply (.ok ()), u, ?_, _, fresh, rfl, ?_⟩
          · simp only [Channel.nextEvent, Action.perform_bind, Action.perform_outcome, performed, grantedEq,
              Action.perform_pure]
          · obtain ⟨same, further⟩ := refreshed_progress base server before fresh r p stale again reply (.ok ()) begun
            exact ⟨same, after, further⟩
      | ok t =>
          let x : World := { u with profile := p.renewed t, renewals := t :: u.renewals }
          have still := saves (p.renewed t) x
          rcases saved : (save (p.renewed t)).perform x with ⟨outcome, v⟩
          rw [saved] at still
          refine ⟨.answer reply outcome, v, ?_, _, fresh, rfl, ?_⟩
          · simp only [Channel.nextEvent, Action.perform_bind, Action.perform_outcome, performed, grantedEq,
              Action.perform_modify, Action.perform_pure]
            rw [show (save (p.renewed t)).perform { u with profile := p.renewed t, renewals := t :: u.renewals } =
              (outcome, v) from saved]
          · obtain ⟨same, further⟩ := refreshed_progress base server before fresh r p stale again reply outcome begun
            exact ⟨same, sent_silent server before fresh x v ⟨after.server, after.exchanges⟩ still, further⟩

theorem advance_progress (server : Server) (before sent : List Exchange) (c : Call) (w : World)
    (running : ∀ outcome, c.phase ≠ .done outcome) (reached : Sent server before sent w)
    (progress : Progress base server c.request before sent c.phase) : ∃ d v fresh,
      (Channel.advance ⟨.wire base, save⟩ c).perform w = (.ok d, v) ∧ d.request = c.request ∧
      Sent server before fresh v ∧ Progress base server c.request before fresh d.phase := by
  obtain ⟨e, u, happened, m, fresh, moved, same, after, further⟩ :=
    event_follows base save saves server before sent w.profile c w running reached progress
  obtain ⟨v, advanced, silent⟩ := advance_moved silent_passage _ c e m w u happened moved
  exact ⟨m.call, v, fresh, advanced, same,
    sent_silent server before fresh _ v ⟨after.server, after.exchanges⟩ silent, further⟩

theorem drive_progress (server : Server) (before sent : List Exchange) (fuel : Nat) (c : Call) (w : World)
    (reached : Sent server before sent w) (progress : Progress base server c.request before sent c.phase) :
    ∃ fresh, Sent server before fresh ((Channel.drive ⟨.wire base, save⟩ fuel c).perform w).2 ∧
      Traffic base server c.request before fresh := by
  induction fuel generalizing c w sent with
  | zero => exact ⟨sent, reached, progress_traffic base server c.request before sent c.phase progress⟩
  | succ fuel ih =>
      rw [Channel.drive]
      split
      · rename_i outcome ended
        refine ⟨sent, ?_, progress_traffic base server c.request before sent c.phase progress⟩
        cases outcome <;> exact reached
      · rename_i running
        obtain ⟨d, v, fresh, performed, same, after, further⟩ :=
          advance_progress base save saves server before sent c w running reached progress
        rw [Action.perform_bind, performed]
        dsimp only
        rw [← same] at further ⊢
        exact ih fresh d v after further

-- What a call sends is a request, once or twice, and refreshes.
theorem send_traffic (r : Request) (w : World) :
    ∃ sent, ((Channel.send ⟨.wire base, save⟩ r).perform w).2.exchanges = sent ++ w.exchanges ∧
      ((Channel.send ⟨.wire base, save⟩ r).perform w).2.server = w.server ∧
      Traffic base w.server r w.exchanges sent := by
  have fresh : Progress base w.server r w.exchanges [] Phase.new := fun e member => by cases member
  obtain ⟨sent, reached, traffic⟩ :=
    drive_progress base save saves w.server w.exchanges [] Channel.maxMoves ⟨r, .new⟩ w ⟨rfl, rfl⟩ fresh
  exact ⟨sent, reached.exchanges, reached.server, traffic⟩

end

-- What a call asks for: what it is meant for, with a token, or new tokens.
inductive Seeks (r : Request) : Request → Prop where
  | own (token : String) : Seeks r (r.authorized token)
  | renewal (p : Profile) : Seeks r (refreshRequest p)

section

variable {R : World → World → Prop} (passage : Action.Passage R)
  (renews : ∀ w profile renewals, R w { w with profile, renewals }) (ch : Channel)
  (saves : ∀ p, Action.Within R (ch.save p))

include passage renews saves

theorem advance_within (c : Call) (asks : ∀ q, Seeks c.request q → Action.Within R (ch.link.send q)) :
    Action.Within R (ch.advance c) := by
  have asked : ∀ q, Seeks c.request q → Action.Within R (Action.outcome (ch.link.send q)) := fun q among =>
    Action.within_outcome _ (asks q among)
  have happened : ∀ p, Action.Within R (ch.nextEvent p c) := by
    intro p
    rw [Channel.nextEvent]
    split
    · exact Action.within_bind passage _ _ (Action.within_bind passage get (fun w => pure w.clock)
        (Action.within_get passage) fun _ => Action.within_pure passage _) fun _ => Action.within_pure passage _
    · exact Action.within_pure passage _
    · refine Action.within_bind passage _ _ (asked _ (.renewal p)) (fun reply => ?_)
      split
      · exact Action.within_pure passage _
      · refine Action.within_bind passage _ _ (Action.within_modify _ fun w => renews w _ _) (fun _ => ?_)
        exact Action.within_bind passage _ _ (Action.within_outcome _ (saves _)) fun _ => Action.within_pure passage _
    · exact Action.within_bind passage _ _ (asked _ (.own _)) fun _ => Action.within_pure passage _
    · exact Action.within_pure passage _
  refine Action.within_bind passage _ _ (Action.within_get passage) (fun w => ?_)
  refine Action.within_bind passage _ _ (happened _) (fun e => ?_)
  split
  · exact Action.within_pure passage _
  · rename_i m _
    refine Action.within_bind passage _ _ (Action.within_modify _ fun v => renews v m.profile v.renewals) (fun _ => ?_)
    exact Action.within_bind passage _ _ (Action.within_each passage m.notes _ fun n _ => within_log passage n)
      fun _ => Action.within_pure passage _

omit passage renews saves in
theorem advance_request (c d : Call) (w v : World) (advanced : (ch.advance c).perform w = (.ok d, v)) :
    d.request = c.request := by
  rw [Channel.advance] at advanced
  obtain ⟨u, _, _, advanced⟩ := Action.bind_ok _ _ w v d advanced
  obtain ⟨e, x, _, advanced⟩ := Action.bind_ok _ _ _ v d advanced
  split at advanced
  · cases advanced
    rfl
  · rename_i m moved
    obtain ⟨_, y, _, advanced⟩ := Action.bind_ok _ _ x v d advanced
    obtain ⟨_, z, _, advanced⟩ := Action.bind_ok _ _ y v d advanced
    cases advanced
    exact react_request c _ e m moved

theorem drive_seeks (fuel : Nat) (c : Call) (asks : ∀ q, Seeks c.request q → Action.Within R (ch.link.send q)) :
    Action.Within R (ch.drive fuel c) := by
  induction fuel generalizing c with
  | zero => exact Action.within_throw passage _
  | succ fuel ih =>
      rw [Channel.drive]
      split
      · exact Action.within_except passage id _
      · refine Action.within_then passage _ _ (advance_within passage renews ch saves c asks) ?_
        intro w d v advanced
        have same := advance_request ch c d w v advanced
        exact ih d (by rw [same]; exact asks) v

theorem send_seeks (r : Request) (asks : ∀ q, Seeks r q → Action.Within R (ch.link.send q)) :
    Action.Within R (ch.send r) :=
  drive_seeks passage renews ch saves Channel.maxMoves ⟨r, .new⟩ asks

end

theorem advance_kept {R : World → World → Prop} (passage : Action.Passage R)
    (sends : ∀ w e, R w { w with exchanges := e :: w.exchanges })
    (renews : ∀ w profile renewals, R w { w with profile, renewals }) (ch : Channel)
    (saves : ∀ p, Action.Within R (ch.save p)) (c : Call) : Action.Within R (ch.advance c) :=
  advance_within passage renews ch saves c fun q _ => Action.within_link passage ch.link q fun w e _ => sends w e

end Session

end HostingAdmin
