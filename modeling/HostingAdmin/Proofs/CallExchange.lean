import HostingAdmin.Proofs.CallTraffic
import HostingAdmin.Proofs.CredentialHistory
import HostingAdmin.Proofs.MemberLists

set_option autoImplicit false

namespace HostingAdmin.Session

def replied (server : Server) (sent : List Exchange) (r : Request) : Except Failure Response :=
  (server sent (.asked r)).mapError Refusal.failure

-- A call so far: what was handed over, the latest first, the credentials, and what came
-- of it: a failure, or the answer to the request sent last.
structure Talk where
  sent : List Exchange
  profile : Profile
  last : Except Failure (Option Response)

namespace Talk

def refresh (server : Server) (k : Talk) : Talk :=
  let q := refreshRequest k.profile
  match granted (replied server k.sent q) with
  | .error f => ⟨.asked q :: k.sent, k.profile, .error f⟩
  | .ok t => ⟨.asked q :: k.sent, k.profile.renewed t, .ok none⟩

def request (server : Server) (r : Request) (k : Talk) : Talk :=
  let q := r.authorized k.profile.accessToken
  ⟨.asked q :: k.sent, k.profile, (replied server k.sent q).map some⟩

-- Nothing follows a failure.
def andThen (k : Talk) (next : Talk → Talk) : Talk :=
  match k.last with
  | .error _ => k
  | .ok _ => next k

def isRefused (k : Talk) : Bool :=
  match k.last with
  | .ok (some answer) => answer.status = Status.unauthorized
  | _ => false

-- Another request follows a refusal, after a refresh.
def retried (server : Server) (r : Request) (k : Talk) : Talk :=
  if k.isRefused then (k.refresh server).andThen (request server r) else k

def whole (server : Server) (r : Request) (p : Profile) (now : Rat) (before : List Exchange) : Talk :=
  let start : Talk := ⟨before, p, .ok none⟩
  let ready := if p.isExpired now then start.refresh server else start
  (ready.andThen (request server r)).retried server r

-- A world in which a call has come so far.
structure Reached (server : Server) (k : Talk) (w : World) : Prop where
  server : w.server = server
  exchanges : w.exchanges = k.sent
  profile : w.profile = k.profile

theorem idle_reached (server : Server) (k : Talk) (w v : World) (here : k.Reached server w) (idle : Idle w v) :
    k.Reached server v :=
  ⟨idle.1.trans here.server, idle.2.1.trans here.exchanges, idle.2.2.trans here.profile⟩

theorem retried_failed (server : Server) (r : Request) (k : Talk) (f : Failure) (failed : k.last = .error f) :
    k.retried server r = k := by
  simp [retried, isRefused, failed]

theorem retried_answered (server : Server) (r : Request) (k : Talk) (answer : Response)
    (answered : k.last = .ok (some answer)) : k.retried server r =
      if answer.status = Status.unauthorized then (k.refresh server).andThen (request server r) else k := by
  simp [retried, isRefused, answered]

theorem retried_after (server : Server) (r : Request) (k : Talk) :
    k.andThen (fun j => (j.request server r).retried server r) = (k.andThen (request server r)).retried server r := by
  cases last : k.last with
  | error f =>
      have failed : k.andThen (request server r) = k := by simp [andThen, last]
      rw [failed, retried_failed server r k f last]
      simp [andThen, last]
  | ok answer => simp [andThen, last]

end Talk

open Talk

theorem direct_asks (r : Request) (w : World) : (Link.direct.send r).perform w =
    (replied w.server w.exchanges r, { w with exchanges := .asked r :: w.exchanges }) := by
  simp only [Link.send, Action.exchange, Action.perform_bind, Action.perform_get, Action.perform_set, replied]
  cases w.server w.exchanges (.asked r) <;> rfl

theorem reached_asks (server : Server) (k : Talk) (w : World) (here : k.Reached server w) (q : Request) :
    (Link.direct.send q).perform w = (replied server k.sent q, { w with exchanges := .asked q :: k.sent }) := by
  rw [direct_asks, ← here.server, ← here.exchanges]

section

variable (server : Server) (save : Profile → Action Unit)
  (saves : ∀ q u, ∃ v, (save q).perform u = (.ok (), v) ∧ Idle u v) (r : Request)

theorem start_advances (k : Talk) (w : World) (here : k.Reached server w) : ∃ v,
    (Channel.advance ⟨.direct, save⟩ ⟨r, .new⟩).perform w = (.ok ⟨r, if k.profile.isExpired w.clock then
      .queued k.profile.accessToken false else .sending k.profile.accessToken false⟩, v) ∧ k.Reached server v := by
  have moved : (Call.mk r .new).react w.profile (.start w.clock) = some ((Call.mk r .new).start w.profile w.clock) := rfl
  obtain ⟨v, advanced, idle⟩ := advance_moved idle_passage ⟨.direct, save⟩ _ _ _ w w rfl moved
  rw [start_profile] at idle
  refine ⟨v, ?_, idle_reached server k w v here idle⟩
  rw [advanced, Call.start, here.profile]
  split <;> rfl

theorem enter_advances (k : Talk) (w : World) (here : k.Reached server w) (again : Bool) : ∃ v,
    (Channel.advance ⟨.direct, save⟩ ⟨r, .queued k.profile.accessToken again⟩).perform w =
      (.ok ⟨r, .refreshing k.profile.accessToken again⟩, v) ∧ k.Reached server v := by
  have moved : (Call.mk r (.queued k.profile.accessToken again)).react w.profile .enter =
      some ⟨⟨r, .refreshing k.profile.accessToken again⟩, w.profile, [.asked (refreshRequest w.profile)]⟩ := by
    simp [Call.react, Call.enter, here.profile]
  obtain ⟨v, advanced, idle⟩ := advance_moved idle_passage ⟨.direct, save⟩ _ _ _ w w rfl moved
  exact ⟨v, advanced, idle_reached server k w v here idle⟩

include saves in
theorem refresh_advances (k : Talk) (w : World) (here : k.Reached server w) (stale : String) (again : Bool) : ∃ v,
    (Channel.advance ⟨.direct, save⟩ ⟨r, .refreshing stale again⟩).perform w =
      (.ok ⟨r, match (k.refresh server).last with
        | .error f => .done (.error f)
        | .ok _ => .sending (k.refresh server).profile.accessToken again⟩, v) ∧ (k.refresh server).Reached server v := by
  have asks := reached_asks server k w here (refreshRequest k.profile)
  rw [Talk.refresh]
  cases grantedEq : granted (replied server k.sent (refreshRequest k.profile)) with
  | error f =>
      have happened : (Channel.nextEvent ⟨.direct, save⟩ w.profile ⟨r, .refreshing stale again⟩).perform w =
          (.ok (.answer (replied server k.sent (refreshRequest k.profile)) (.ok ())),
            { w with exchanges := .asked (refreshRequest k.profile) :: k.sent }) := by
        simp only [Channel.nextEvent, here.profile, Action.perform_bind, Action.perform_outcome, asks, grantedEq,
          Action.perform_pure]
      have moved : (Call.mk r (.refreshing stale again)).react w.profile
          (.answer (replied server k.sent (refreshRequest k.profile)) (.ok ())) =
            some ⟨⟨r, .done (.error f)⟩, w.profile, []⟩ := by
        simp [Call.react, Call.refreshed, Call.finish, grantedEq]
      obtain ⟨v, advanced, idle⟩ := advance_moved idle_passage ⟨.direct, save⟩ _ _ _ w _ happened moved
      exact ⟨v, advanced, idle.1.trans here.server, idle.2.1, idle.2.2.trans here.profile⟩
  | ok t =>
      let u : World := { w with
        exchanges := .asked (refreshRequest k.profile) :: k.sent, profile := k.profile.renewed t
        renewals := t :: w.renewals }
      obtain ⟨x, saved, calm⟩ := saves (k.profile.renewed t) u
      have happened : (Channel.nextEvent ⟨.direct, save⟩ w.profile ⟨r, .refreshing stale again⟩).perform w =
          (.ok (.answer (replied server k.sent (refreshRequest k.profile)) (.ok ())), x) := by
        simp only [Channel.nextEvent, here.profile, Action.perform_bind, Action.perform_outcome, asks, grantedEq,
          Action.perform_modify, Action.perform_pure]
        rw [show (save (k.profile.renewed t)).perform _ = (.ok (), x) from saved]
      have moved : (Call.mk r (.refreshing stale again)).react w.profile
          (.answer (replied server k.sent (refreshRequest k.profile)) (.ok ())) =
            some ((Call.mk r (.refreshing stale again)).transmit (k.profile.renewed t) again
              [.renewed stale t, .saving (k.profile.renewed t), .completed]) := by
        simp [Call.react, Call.refreshed, here.profile, grantedEq]
      obtain ⟨v, advanced, idle⟩ := advance_moved idle_passage ⟨.direct, save⟩ _ _ _ w _ happened moved
      exact ⟨v, advanced, idle.1.trans (calm.1.trans here.server), idle.2.1.trans calm.2.1, idle.2.2⟩

theorem request_advances (k : Talk) (w : World) (here : k.Reached server w) (again : Bool) : ∃ v,
    (Channel.advance ⟨.direct, save⟩ ⟨r, .sending k.profile.accessToken again⟩).perform w =
      (.ok ⟨r, match replied server k.sent (r.authorized k.profile.accessToken) with
        | .error f => .done (.error f)
        | .ok answer =>
          if answer.status = Status.unauthorized ∧ again = false then .queued k.profile.accessToken true
          else .done (.ok answer)⟩, v) ∧ (k.request server r).Reached server v := by
  have asks := reached_asks server k w here (r.authorized k.profile.accessToken)
  have happened : (Channel.nextEvent ⟨.direct, save⟩ w.profile ⟨r, .sending k.profile.accessToken again⟩).perform w =
      (.ok (.answer (replied server k.sent (r.authorized k.profile.accessToken)) (.ok ())),
        { w with exchanges := .asked (r.authorized k.profile.accessToken) :: k.sent }) := by
    simp only [Channel.nextEvent, Action.perform_bind, Action.perform_outcome, asks, Action.perform_pure]
  have moved : (Call.mk r (.sending k.profile.accessToken again)).react w.profile
      (.answer (replied server k.sent (r.authorized k.profile.accessToken)) (.ok ())) =
        some ((Call.mk r _).answered w.profile k.profile.accessToken again
          (replied server k.sent (r.authorized k.profile.accessToken))) := rfl
  obtain ⟨v, advanced, idle⟩ := advance_moved idle_passage ⟨.direct, save⟩ _ _ _ w _ happened moved
  rw [answered_profile] at idle
  refine ⟨v, ?_, idle.1.trans here.server, idle.2.1, idle.2.2.trans here.profile⟩
  rw [advanced]
  unfold Call.answered
  cases replied server k.sent (r.authorized k.profile.accessToken) with
  | error f => rfl
  | ok answer =>
      dsimp only
      split <;> rfl

-- From a world on, a call comes to the end of a talk.
def Comes (fuel : Nat) (c : Call) (w : World) (k : Talk) : Prop :=
  ∃ outcome v, (Channel.drive ⟨.direct, save⟩ fuel c).perform w = (outcome, v) ∧ k.Reached server v ∧
    k.last = outcome.map some

theorem done_comes (fuel : Nat) (outcome : Except Failure Response) (w : World) (k : Talk) (here : k.Reached server w)
    (last : k.last = outcome.map some) : Comes server save (fuel + 1) ⟨r, .done outcome⟩ w k := by
  refine ⟨outcome, w, ?_, here, last⟩
  rw [Channel.drive]
  cases outcome <;> rfl

theorem more_comes (fuel : Nat) (c d : Call) (w v : World) (k : Talk) (running : ∀ outcome, c.phase ≠ .done outcome)
    (advanced : (Channel.advance ⟨.direct, save⟩ c).perform w = (.ok d, v)) (after : Comes server save fuel d v k) :
    Comes server save (fuel + 1) c w k := by
  obtain ⟨outcome, x, driven, ends⟩ := after
  refine ⟨outcome, x, ?_, ends⟩
  rw [Channel.drive]
  split
  · rename_i ended
    exact (running _ ended).elim
  · rw [Action.perform_bind, advanced]
    exact driven

theorem again_comes (fuel : Nat) (k : Talk) (w : World) (here : k.Reached server w) :
    Comes server save (fuel + 2) ⟨r, .sending k.profile.accessToken true⟩ w (k.request server r) := by
  obtain ⟨v, advanced, there⟩ := request_advances server save r k w here true
  refine more_comes server save _ _ _ w v _ (fun _ same => by cases same) advanced ?_
  have last : (k.request server r).last = (replied server k.sent (r.authorized k.profile.accessToken)).map some := rfl
  cases reply : replied server k.sent (r.authorized k.profile.accessToken) with
  | error f => exact done_comes server save r fuel (.error f) v _ there (by rw [last, reply])
  | ok answer =>
      dsimp only
      rw [if_neg fun refused => Bool.noConfusion refused.2]
      exact done_comes server save r fuel (.ok answer) v _ there (by rw [last, reply])

include saves in
theorem queued_comes (fuel : Nat) (again : Bool) (next : Talk → Talk) (k : Talk) (w : World) (here : k.Reached server w)
    (goes : ∀ j v, j.Reached server v →
      Comes server save (fuel + 1) ⟨r, .sending j.profile.accessToken again⟩ v (next j)) :
    Comes server save (fuel + 3) ⟨r, .queued k.profile.accessToken again⟩ w ((k.refresh server).andThen next) := by
  obtain ⟨u, entered, waiting⟩ := enter_advances server save r k w here again
  obtain ⟨v, advanced, there⟩ := refresh_advances server save saves r k u waiting k.profile.accessToken again
  refine more_comes server save _ _ _ w u _ (fun _ same => by cases same) entered ?_
  refine more_comes server save _ _ _ u v _ (fun _ same => by cases same) advanced ?_
  rw [andThen]
  cases last : (k.refresh server).last with
  | error f => exact done_comes server save r fuel (.error f) v _ there last
  | ok answer => exact goes _ v there

include saves in
theorem sending_comes (fuel : Nat) (k : Talk) (w : World) (here : k.Reached server w) :
    Comes server save (fuel + 5) ⟨r, .sending k.profile.accessToken false⟩ w
      ((k.request server r).retried server r) := by
  obtain ⟨v, advanced, there⟩ := request_advances server save r k w here false
  refine more_comes server save _ _ _ w v _ (fun _ same => by cases same) advanced ?_
  have last : (k.request server r).last = (replied server k.sent (r.authorized k.profile.accessToken)).map some := rfl
  cases reply : replied server k.sent (r.authorized k.profile.accessToken) with
  | error f =>
      rw [reply] at last
      rw [retried_failed server r _ f last]
      exact done_comes server save r _ (.error f) v _ there last
  | ok answer =>
      rw [reply] at last
      rw [retried_answered server r _ answer last]
      dsimp only
      by_cases refused : answer.status = Status.unauthorized
      · rw [if_pos ⟨refused, rfl⟩, if_pos refused]
        exact queued_comes server save saves r _ true _ (k.request server r) v there (again_comes server save r fuel)
      · rw [if_neg fun both => refused both.1, if_neg refused]
        exact done_comes server save r _ (.ok answer) v _ there last

end

-- The exchanges of a call are those of the plain account, and so are its outcome and the
-- credentials. A request that is sent is the given one, but for the token it bears.
theorem call_exchange (save : Profile → Action Unit)
    (saves : ∀ q u, ∃ v, (save q).perform u = (.ok (), v) ∧ Idle u v) (r : Request) (w : World) :
    (∃ outcome v, (Channel.send ⟨.direct, save⟩ r).perform w = (outcome, v) ∧
      (whole w.server r w.profile w.clock w.exchanges).Reached w.server v ∧
      (whole w.server r w.profile w.clock w.exchanges).last = outcome.map some) ∧
    ∀ token, (r.authorized token).method = r.method ∧ (r.authorized token).path = r.path ∧
      (r.authorized token).params = r.params ∧ (r.authorized token).body = r.body ∧
      ∀ name, ((r.authorized token).headers.getD []).lookup name =
        if name = "Authorization" then some ("Bearer " ++ token) else (r.headers.getD []).lookup name := by
  refine ⟨?_, fun token => ⟨rfl, rfl, rfl, rfl, fun name => Members.lookup_put _ name _ _⟩⟩
  have here : Reached w.server ⟨w.exchanges, w.profile, .ok none⟩ w := ⟨rfl, rfl, rfl⟩
  obtain ⟨v, advanced, there⟩ := start_advances w.server save r _ w here
  refine more_comes w.server save 8 _ _ w v _ (fun _ same => by cases same) advanced ?_
  rw [whole, ← retried_after]
  dsimp only
  by_cases expired : w.profile.isExpired w.clock = true
  · rw [if_pos expired, if_pos expired]
    exact queued_comes w.server save saves r 5 false _ ⟨w.exchanges, w.profile, .ok none⟩ v there
      (sending_comes w.server save saves r 1)
  · rw [if_neg expired, if_neg expired]
    exact sending_comes w.server save saves r 3 ⟨w.exchanges, w.profile, .ok none⟩ v there

-- Replies in the order in which requests come.
def scripted (replies : List Reply) : Server := fun sent _ => replies.getD sent.length (.error .interrupt)

-- The token is refused, and the new one as well.
theorem call_exchange_refused : ∃ v,
    (Channel.send ⟨.direct, fun _ => pure ()⟩ (.plain "GET" "/a")).perform
      { World.start ⟨.folder [], []⟩ (scripted [.ok ⟨401, [], []⟩, .ok ⟨Status.created, [], Text.utf8
          (Json.obj [("access_token", .str "t1"), ("refresh_token", .str "r1")]).indented⟩, .ok ⟨401, [], [0x78]⟩])
        with profile := ⟨"me", "", "", "t0", "r0"⟩ } = (.ok ⟨401, [], [0x78]⟩, v) ∧
    v.profile = ⟨"me", "", "", "t1", "r1"⟩ ∧
    v.exchanges = [.asked ((Request.plain "GET" "/a").authorized "t1"),
      .asked (refreshRequest ⟨"me", "", "", "t0", "r0"⟩), .asked ((Request.plain "GET" "/a").authorized "t0")] := by
  let server := scripted [.ok ⟨401, [], []⟩, .ok ⟨Status.created, [], Text.utf8
    (Json.obj [("access_token", .str "t1"), ("refresh_token", .str "r1")]).indented⟩, .ok ⟨401, [], [0x78]⟩]
  let w : World := { World.start ⟨.folder [], []⟩ server with profile := ⟨"me", "", "", "t0", "r0"⟩ }
  have fresh : w.profile.isExpired w.clock = false := by decide
  let refused := (Talk.mk [] w.profile (.ok none)).request server (.plain "GET" "/a")
  have first : refused.last = .ok (some ⟨401, [], []⟩) := rfl
  have second : replied server refused.sent (refreshRequest refused.profile) = .ok ⟨Status.created, [], Text.utf8
    (Json.obj [("access_token", .str "t1"), ("refresh_token", .str "r1")]).indented⟩ := rfl
  have talk : whole w.server (.plain "GET" "/a") w.profile w.clock w.exchanges =
      ⟨[.asked ((Request.plain "GET" "/a").authorized "t1"), .asked (refreshRequest ⟨"me", "", "", "t0", "r0"⟩),
        .asked ((Request.plain "GET" "/a").authorized "t0")], ⟨"me", "", "", "t1", "r1"⟩,
        .ok (some ⟨401, [], [0x78]⟩)⟩ := by
    rw [whole, if_neg (by rw [fresh]; decide)]
    refine (retried_answered server _ refused _ first).trans ?_
    rw [if_pos (by rfl), refresh, second, both_granted]
    rfl
  obtain ⟨⟨outcome, v, performed, there, last⟩, _⟩ := call_exchange (fun _ => pure ())
    (fun _ u => ⟨u, rfl, idle_passage.stay u⟩) (.plain "GET" "/a") w
  rw [talk] at there last
  cases outcome with
  | error f => cases last
  | ok answer =>
      cases last
      exact ⟨v, performed, there.profile, there.exchanges⟩

end HostingAdmin.Session
