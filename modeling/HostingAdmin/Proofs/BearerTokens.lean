import HostingAdmin.Proofs.CallTraffic
import HostingAdmin.Proofs.ImportRequests

set_option autoImplicit false

namespace HostingAdmin

namespace Wire

theorem merged_bearer (token : String) : mergeHeaders Exchange.client [("Authorization", "Bearer " ++ token)] =
    [("User-Agent", Program.agent), ("Authorization", "Bearer " ++ token)] := by
  simp [mergeHeaders, Exchange.client]

theorem merged_typed (type token : String) :
    mergeHeaders Exchange.client [("Content-Type", type), ("Authorization", "Bearer " ++ token)] =
      [("User-Agent", Program.agent), ("Content-Type", type), ("Authorization", "Bearer " ++ token)] := by
  simp [mergeHeaders, Exchange.client]

end Wire

namespace Exchange

theorem authorized_wire (base : Url) (r : Request) (token : String) (sent : WireRequest) (modest : r.Modest)
    (built : Wire.build base client (r.authorized token) = .ok sent) :
    (Exchange.sent sent).authorization? = some ("Bearer " ++ token) := by
  have headers := (Wire.build_parts base client _ sent built).2.1
  cases modest with
  | bare none =>
      have own : ((r.authorized token).headers).getD [] = [("Authorization", "Bearer " ++ token)] := by
        simp [Request.authorized, none, Members.put]
      rw [own, Wire.merged_bearer] at headers
      simp [authorization?, WireRequest.header?, headers]
  | typed type some =>
      have other : ¬ "Content-Type" = "Authorization" := by decide
      have own : ((r.authorized token).headers).getD [] =
          [("Content-Type", type), ("Authorization", "Bearer " ++ token)] := by
        simp [Request.authorized, some, Members.put, other]
      rw [own, Wire.merged_typed] at headers
      simp [authorization?, WireRequest.header?, headers]

theorem modest_wire (base : Url) (r : Request) (sent : WireRequest) (modest : r.Modest)
    (built : Wire.build base client r = .ok sent) : (Exchange.sent sent).authorization? = none := by
  have headers := (Wire.build_parts base client _ sent built).2.1
  cases modest with
  | bare none =>
      rw [none] at headers
      simp [authorization?, WireRequest.header?, headers, Wire.mergeHeaders, client]
  | typed type some =>
      rw [some] at headers
      simp [authorization?, WireRequest.header?, headers, Wire.mergeHeaders, client]

theorem bare_wire (r : WireRequest) (bare : r.Bare) : (Exchange.sent r).authorization? = none := by
  simp [authorization?, WireRequest.header?, bare.2.1]

end Exchange

open Exchange

namespace Session

-- A refresh in the history was answered with tokens.
def Brings (server : Server) (history : List Exchange) (t : Tokens) : Prop :=
  ∃ e early r, e :: early <:+ history ∧ (∃ base, Renews base e) ∧ server early e = .ok r ∧ readTokens r = .ok t

-- A token of the profile, or of the answer to a refresh.
def Known (server : Server) (p : Profile) (history : List Exchange) (token : String) : Prop :=
  token = p.accessToken ∨ token = p.refreshToken ∨ ∃ t, Brings server history t ∧ t.Has token

-- Whatever token an exchange carries was known before.
def Signed (server : Server) (p : Profile) : List Exchange → Prop
  | [] => True
  | e :: early => (∀ token, e.authorization? = some ("Bearer " ++ token) → Known server p early token) ∧
      Signed server p early

-- A session that was opened with `p` sends and holds known tokens only.
structure Wary (server : Server) (p : Profile) (w : World) : Prop where
  serves : w.server = server
  signed : Signed server p w.exchanges
  access : Known server p w.exchanges w.profile.accessToken
  refresh : Known server p w.exchanges w.profile.refreshToken

def Vouched (server : Server) (p : Profile) (history : List Exchange) : Phase → Prop
  | .sending token _ => Known server p history token
  | _ => True

-- What an event leaves of a session, and of the call that it is for.
def Heeds (server : Server) (p : Profile) (w : World) (c : Call) (e : Event) (v : World) : Prop :=
  Wary server p v ∧ w.exchanges <:+ v.exchanges ∧ ∀ m, c.react w.profile e = some m →
    m.profile = v.profile ∧ m.call.request = c.request ∧ Vouched server p v.exchanges m.call.phase

section

variable (server : Server) (p : Profile)

theorem known_later (history more : List Exchange) (token : String) (later : history <:+ more)
    (known : Known server p history token) : Known server p more token := by
  rcases known with access | refresh | ⟨t, ⟨e, early, r, before, further⟩, has⟩
  · exact .inl access
  · exact .inr (.inl refresh)
  · exact .inr (.inr ⟨t, ⟨e, early, r, before.trans later, further⟩, has⟩)

theorem wary_same (w v : World) (serves : v.server = w.server) (exchanges : v.exchanges = w.exchanges)
    (profile : v.profile = w.profile) (wary : Wary server p w) : Wary server p v :=
  ⟨serves.trans wary.serves, exchanges ▸ wary.signed, by rw [exchanges, profile]; exact wary.access,
    by rw [exchanges, profile]; exact wary.refresh⟩

theorem wary_passage : Action.Passage fun w v => Wary server p w → Wary server p v where
  stay _ wary := wary
  chain _ _ _ first second wary := second (first wary)
  book w _ _ wary := wary_same server p w _ rfl rfl rfl wary

theorem wary_sends (w v : World) (e : Exchange) (wary : Wary server p w) (same : v.server = w.server)
    (profile : v.profile = w.profile) (added : v.exchanges = e :: w.exchanges)
    (known : ∀ token, e.authorization? = some ("Bearer " ++ token) → Known server p w.exchanges token) :
    Wary server p v := by
  have longer : w.exchanges <:+ e :: w.exchanges := List.suffix_cons _ _
  refine ⟨same.trans wary.serves, ?_, ?_, ?_⟩
  · rw [added]
    exact ⟨known, wary.signed⟩
  · rw [added, profile]
    exact known_later server p _ _ _ longer wary.access
  · rw [added, profile]
    exact known_later server p _ _ _ longer wary.refresh

theorem wary_renewed (w v : World) (t : Tokens) (wary : Wary server p w) (brings : Brings server w.exchanges t)
    (serves : v.server = w.server) (exchanges : v.exchanges = w.exchanges)
    (profile : v.profile = w.profile.renewed t) : Wary server p v := by
  refine ⟨serves.trans wary.serves, exchanges ▸ wary.signed, ?_, ?_⟩
  · rw [exchanges, profile, renewed_tokens]
    exact .inr (.inr ⟨t, brings, .inl rfl⟩)
  · rw [exchanges, profile, renewed_tokens]
    cases rotated : rotated? t with
    | none => exact wary.refresh
    | some token => exact .inr (.inr ⟨t, brings, .inr (Option.filter_eq_some_iff.mp rotated).1⟩)

variable (base : Url) (w : World)

theorem granted_wary (cfg : Path) (u : World) (x : Response) (t : Tokens) (after : Wary server p u)
    (profile : u.profile = w.profile) (grown : w.exchanges <:+ u.exchanges) (brings : Brings server u.exchanges t)
    (grantedEq : granted (.ok x) = .ok t) (r : Request) (stale : String) (again : Bool)
    (asked : ((Link.wire base).send (refreshRequest w.profile)).perform w = (.ok x, u)) :
    ∃ e v, (Channel.nextEvent ⟨.wire base, Profile.save cfg⟩ w.profile ⟨r, .refreshing stale again⟩).perform w =
        (.ok e, v) ∧ Heeds server p w ⟨r, .refreshing stale again⟩ e v := by
  have still := Action.save_within idle_passage (fun _ _ => ⟨rfl, rfl, rfl⟩) cfg (w.profile.renewed t)
    { u with profile := w.profile.renewed t, renewals := t :: u.renewals }
  rcases saved : (Profile.save cfg (w.profile.renewed t)).perform
    { u with profile := w.profile.renewed t, renewals := t :: u.renewals } with ⟨outcome, v⟩
  rw [saved] at still
  have renewed := still.2.2.trans (show w.profile.renewed t = u.profile.renewed t by rw [profile])
  have whole := wary_renewed server p u v t after brings still.1 still.2.1 renewed
  refine ⟨.answer (.ok x) outcome, v, ?_, whole, still.2.1 ▸ grown, ?_⟩
  · simp only [Channel.nextEvent, Action.perform_bind, Action.perform_outcome, asked, grantedEq,
      Action.perform_modify, saved, Action.perform_pure]
  · intro m moved
    cases moved
    refine ⟨?_, ?_⟩
    · rw [refreshed_profile, grantedEq]
      exact still.2.2.symm
    · rw [Call.refreshed, grantedEq]
      cases outcome with
      | error f => exact ⟨rfl, trivial⟩
      | ok done =>
          have access := whole.access
          rw [still.2.2] at access
          exact ⟨rfl, access⟩

variable (wary : Wary server p w)

include wary

theorem request_wary (r : Request) (modest : r.Modest) (token : String) (known : Known server p w.exchanges token) :
    ∃ reply v, ((Link.wire base).send (r.authorized token)).perform w = (reply, v) ∧ Wary server p v ∧
      v.profile = w.profile ∧ w.exchanges <:+ v.exchanges ∧
      ∀ x, reply = .ok x → ∃ sent, Wire.build base client (r.authorized token) = .ok sent ∧
        v.exchanges = .sent sent :: w.exchanges ∧ server w.exchanges (.sent sent) = .ok x := by
  obtain ⟨reply, v, performed, same, sending⟩ := link_sends base (r.authorized token) w
  have kept := sent_kept (.wire base) (r.authorized token) w
  rw [performed] at kept
  refine ⟨reply, v, performed, ?_⟩
  cases sending with
  | kept silent f failed =>
      refine ⟨wary_same server p w v same silent kept.1 wary, kept.1, silent ▸ List.suffix_rfl, ?_⟩
      intro x ok
      rw [failed] at ok
      cases ok
  | sent sent built added given =>
      refine ⟨?_, kept.1, added ▸ List.suffix_cons _ _, ?_⟩
      · apply wary_sends server p w v (.sent sent) wary same kept.1 added
        intro other shows
        rw [authorized_wire base r token sent modest built, Option.some.injEq, String.append_right_inj] at shows
        exact shows ▸ known
      · intro x ok
        exact ⟨sent, built, added, wary.serves ▸ given x ok⟩

theorem sending_wary (cfg : Path) (r : Request) (token : String) (again : Bool) (modest : r.Modest)
    (known : Known server p w.exchanges token) :
    ∃ e v, (Channel.nextEvent ⟨.wire base, Profile.save cfg⟩ w.profile ⟨r, .sending token again⟩).perform w = (.ok e, v) ∧
      Heeds server p w ⟨r, .sending token again⟩ e v := by
  obtain ⟨reply, v, performed, after, profile, grown, _⟩ := request_wary server p base w wary r modest token known
  refine ⟨.answer reply (.ok ()), v, ?_, after, grown, ?_⟩
  · simp only [Channel.nextEvent, Action.perform_bind, Action.perform_outcome, performed, Action.perform_pure]
  · intro m moved
    cases moved
    refine ⟨(answered_profile _ _ _ _ _).trans profile.symm, answered_request _ _ _ _ _, ?_⟩
    unfold Call.answered
    split
    · trivial
    · split <;> trivial

theorem refreshing_wary (cfg : Path) (r : Request) (stale : String) (again : Bool) :
    ∃ e v, (Channel.nextEvent ⟨.wire base, Profile.save cfg⟩ w.profile ⟨r, .refreshing stale again⟩).perform w =
        (.ok e, v) ∧ Heeds server p w ⟨r, .refreshing stale again⟩ e v := by
  obtain ⟨reply, u, performed, after, profile, grown, answered⟩ :=
    request_wary server p base w wary (.plain "POST" "/auth/session") (.bare rfl) _ wary.refresh
  have asked : ((Link.wire base).send (refreshRequest w.profile)).perform w = (reply, u) := performed
  cases grantedEq : granted reply with
  | error f =>
      refine ⟨.answer reply (.ok ()), u, ?_, after, grown, ?_⟩
      · simp only [Channel.nextEvent, Action.perform_bind, Action.perform_outcome, asked, grantedEq,
          Action.perform_pure]
      · intro m moved
        cases moved
        rw [Call.refreshed, grantedEq]
        exact ⟨profile.symm, rfl, trivial⟩
  | ok t =>
      cases reply with
      | error f => cases grantedEq
      | ok x =>
          obtain ⟨sent, built, added, given⟩ := answered x rfl
          have renews : Renews base (.sent sent) := ⟨w.profile, sent, built, rfl⟩
          have brings : Brings server u.exchanges t :=
            ⟨.sent sent, w.exchanges, x, added ▸ List.suffix_rfl, ⟨base, renews⟩, given, grantedEq⟩
          exact granted_wary server p base w cfg u x t after profile grown brings grantedEq r stale again asked

theorem event_wary (cfg : Path) (c : Call) (modest : c.request.Modest) (vouched : Vouched server p w.exchanges c.phase) :
    ∃ e v, (Channel.nextEvent ⟨.wire base, Profile.save cfg⟩ w.profile c).perform w = (.ok e, v) ∧
      Heeds server p w c e v := by
  obtain ⟨r, phase⟩ := c
  cases phase with
  | new =>
      refine ⟨.start w.clock, w, rfl, wary, List.suffix_rfl, ?_⟩
      intro m moved
      cases moved
      refine ⟨start_profile _ _ _, ?_⟩
      rw [Call.start]
      split
      · exact ⟨rfl, trivial⟩
      · exact ⟨rfl, wary.access⟩
  | queued stale again =>
      refine ⟨.enter, w, rfl, wary, List.suffix_rfl, ?_⟩
      intro m moved
      cases moved
      refine ⟨enter_profile _ _ _ _, ?_⟩
      rw [Call.enter]
      split
      · exact ⟨rfl, trivial⟩
      · exact ⟨rfl, wary.access⟩
  | done outcome =>
      refine ⟨.enter, w, rfl, wary, List.suffix_rfl, ?_⟩
      intro m moved
      cases moved
  | sending token again => exact sending_wary server p base w wary cfg r token again modest vouched
  | refreshing stale again => exact refreshing_wary server p base w wary cfg r stale again

end

section

variable (server : Server) (p : Profile) (base : Url) (cfg : Path)

theorem advance_wary (c : Call) (w : World) (wary : Wary server p w) (modest : c.request.Modest)
    (vouched : Vouched server p w.exchanges c.phase) :
    ∃ d v, (Channel.advance ⟨.wire base, Profile.save cfg⟩ c).perform w = (.ok d, v) ∧ Wary server p v ∧
      d.request = c.request ∧ Vouched server p v.exchanges d.phase := by
  obtain ⟨e, u, happened, after, grown, agrees⟩ := event_wary server p base w wary cfg c modest vouched
  cases moved : c.react w.profile e with
  | none =>
      have stays : (Channel.advance ⟨.wire base, Profile.save cfg⟩ c).perform w = (.ok c, u) := by
        simp only [Channel.advance, Action.perform_bind, Action.perform_get, happened, moved, Action.perform_pure]
      refine ⟨c, u, stays, after, rfl, ?_⟩
      cases phase : c.phase with
      | sending token again =>
          rw [phase] at vouched
          exact known_later server p _ _ token grown vouched
      | _ => trivial
  | some m =>
      obtain ⟨profile, request, further⟩ := agrees m moved
      obtain ⟨v, advanced, idle⟩ := advance_moved idle_passage _ c e m w u happened moved
      have same : ({ u with profile := m.profile } : World) = u := by rw [profile]
      rw [same] at idle
      exact ⟨m.call, v, advanced, wary_same server p u v idle.1 idle.2.1 idle.2.2 after, request,
        by rw [idle.2.1]; exact further⟩

theorem drive_wary (fuel : Nat) (c : Call) (w : World) (wary : Wary server p w) (modest : c.request.Modest)
    (vouched : Vouched server p w.exchanges c.phase) :
    Wary server p ((Channel.drive ⟨.wire base, Profile.save cfg⟩ fuel c).perform w).2 := by
  induction fuel generalizing c w with
  | zero => exact wary
  | succ fuel ih =>
      rw [Channel.drive]
      split
      · exact Action.within_except (wary_passage server p) id _ w wary
      · obtain ⟨d, v, performed, after, request, further⟩ := advance_wary server p base cfg c w wary modest vouched
        rw [Action.perform_bind, performed]
        exact ih d v after (request ▸ modest) further

theorem send_wary (r : Request) (modest : r.Modest) : Action.Within (fun w v => Wary server p w → Wary server p v)
    (Channel.send ⟨.wire base, Profile.save cfg⟩ r) :=
  fun w wary => drive_wary server p base cfg Channel.maxMoves ⟨r, .new⟩ w wary modest trivial

end

end Session

end HostingAdmin
