import HostingAdmin.Proofs.CredentialHistory
import HostingAdmin.Session

set_option autoImplicit false

namespace HostingAdmin.Session

namespace State

-- The states that moves lead to in some order while time goes by: a call that starts
-- reads the time at which it does.
inductive TimedRun (s : State) (now : Rat) : List (Except Failure Response) → Rat → State → Prop where
  | rest : TimedRun s now [] now s
  | wait (replies : List (Except Failure Response)) (time later : Rat) (t : State)
      (before : TimedRun s now replies time t) (forward : time ≤ later) : TimedRun s now replies later t
  | move (replies : List (Except Failure Response)) (time : Rat) (t u : State) (i : Nat) (e : Event)
      (before : TimedRun s now replies time t) (timely : ∀ read, e = .start read → read = time)
      (moved : t.step i e = some u) : TimedRun s now (t.refreshReply i e ++ replies) time u

theorem timed_run (s : State) (now time : Rat) (replies : List (Except Failure Response)) (t : State)
    (run : s.TimedRun now replies time t) : s.Run replies t ∧ now ≤ time := by
  induction run with
  | rest => exact ⟨.rest, Rat.le_refl⟩
  | wait replies time later t _ forward ih => exact ⟨ih.1, Rat.le_trans ih.2 forward⟩
  | move replies time t u i e _ _ moved ih => exact ⟨.move replies t u i e ih.1 moved, ih.2⟩

end State

theorem expired_later (token : String) (now later : Rat) (forward : now ≤ later)
    (expired : Token.isExpired token now = true) : Token.isExpired token later = true := by
  unfold Token.isExpired at expired ⊢
  split at expired
  · simp only [decide_eq_true_eq] at expired ⊢
    grind
  · cases expired

-- No request was sent before a refresh had succeeded.
def Renewed : History → Prop
  | [] => True
  | (_, .sent _) :: earlier => History.answered earlier ≠ [] ∧ Renewed earlier
  | _ :: earlier => Renewed earlier

-- A call that has not sent its request, and wants the token replaced that it began with.
def Phase.Awaits (stale : String) : Phase → Prop
  | .queued token _ => token = stale
  | .sending _ _ => False
  | _ => True

-- Nothing is sent with a token that is expired from the start: until a refresh succeeds
-- every call waits for one.
structure Holds (p : Profile) (s : State) : Prop where
  renewed : Renewed s.notes
  waiting : History.answered s.notes = [] → ∀ c ∈ s.calls, c.phase.Awaits p.accessToken

theorem renewed_split (later earlier : History) (i : Nat) (r : Request)
    (renewed : Renewed (later ++ (i, .sent r) :: earlier)) : History.answered earlier ≠ [] := by
  induction later with
  | nil => exact renewed.1
  | cons entry rest ih =>
      obtain ⟨j, n⟩ := entry
      cases n with
      | sent q => exact ih renewed.2
      | _ => exact ih renewed

theorem grown_unanswered (log : History) (i : Nat) (notes : List Note) (none : (log.grown i notes).answered = []) :
    log.answered = [] := by
  rw [History.answered, grown_renewals, List.map_append] at none
  exact (List.append_eq_nil_iff.mp none).2

section

variable (p : Profile) (requests : List Request) (s : State) (i : Nat) (c : Call)

theorem after_holds (m : Move) (holds : Holds p s) (renewed : Renewed (History.grown s.notes i m.notes))
    (waiting : History.answered s.notes = [] → (History.grown s.notes i m.notes).answered = [] →
      m.call.phase.Awaits p.accessToken) : Holds p (s.after i m) where
  renewed := renewed
  waiting := by
    intro none d member
    have before := grown_unanswered s.notes i m.notes none
    rcases List.mem_or_eq_of_mem_set member with old | rfl
    · exact holds.waiting before d old
    · exact waiting before none

theorem unanswered_token (coherent : Coherent p requests s) (none : History.answered s.notes = []) :
    s.profile.accessToken = p.accessToken := by
  rw [(coherent_tokens p requests s coherent).1, none]
  rfl

theorem reacts_holds (e : Event) (m : Move) (coherent : Coherent p requests s) (holds : Holds p s)
    (found : s.calls[i]? = some c) (reacts : Reacts c s.profile e m)
    (old : ∀ read, e = .start read → p.isExpired read = true) : Holds p (s.after i m) := by
  have token := unanswered_token p requests s coherent
  have waits := fun none => holds.waiting none c (List.mem_of_getElem? found)
  cases reacts with
  | expires now phase expired => exact after_holds p s i _ holds holds.renewed fun none _ => token none
  | sends now phase fresh =>
      have renewals : History.answered s.notes ≠ [] := by
        intro none
        rw [Profile.isExpired, token none] at fresh
        exact absurd (old now rfl) (by rw [Profile.isExpired, fresh]; decide)
      exact after_holds p s i _ holds ⟨renewals, holds.renewed⟩ fun none => (renewals none).elim
  | asks stale again phase same => exact after_holds p s i _ holds holds.renewed fun _ _ => trivial
  | overtaken stale again phase other =>
      have renewals : History.answered s.notes ≠ [] := by
        intro none
        have awaits := waits none
        rw [phase] at awaits
        exact other ((token none).trans (Eq.symm awaits))
      exact after_holds p s i _ holds ⟨renewals, holds.renewed⟩ fun none => (renewals none).elim
  | fails stale again phase reply saved f refused =>
      exact after_holds p s i _ holds holds.renewed fun _ _ => trivial
  | unsaved stale again phase reply t f ok => exact after_holds p s i _ holds holds.renewed fun _ _ => trivial
  | renews stale again phase reply t ok =>
      exact after_holds p s i _ holds ⟨List.cons_ne_nil t _, holds.renewed⟩
        fun _ none => (List.cons_ne_nil t _ none).elim
  | refused token phase r saved status =>
      have renewals : History.answered s.notes ≠ [] := by
        intro none
        have awaits := waits none
        rw [phase] at awaits
        exact awaits
      exact after_holds p s i _ holds holds.renewed fun none => (renewals none).elim
  | ends token again phase reply saved final => exact after_holds p s i _ holds holds.renewed fun _ _ => trivial

end

theorem start_holds (p : Profile) (requests : List Request) : Holds p (State.start p requests) where
  renewed := trivial
  waiting := by
    intro _ c member
    obtain ⟨r, _, rfl⟩ := List.mem_map.mp member
    trivial

theorem timed_holds (p : Profile) (requests : List Request) (now time : Rat)
    (replies : List (Except Failure Response)) (s : State) (expired : p.isExpired now = true)
    (run : (State.start p requests).TimedRun now replies time s) : Holds p s := by
  induction run with
  | rest => exact start_holds p requests
  | wait _ _ _ _ _ _ ih => exact ih
  | move replies time t u i e before timely moved ih =>
      obtain ⟨ran, forward⟩ := State.timed_run _ now time replies t before
      obtain ⟨c, m, found, reacts, rfl, _⟩ := session_step_cases t u i e moved
      refine reacts_holds p requests t i c e m (run_coherent p requests replies t ran) ih found reacts ?_
      intro read starts
      rw [timely read starts]
      exact expired_later p.accessToken now time forward expired

-- What a call waits for an answer to was noted when it was sent.
def Noted (s : State) : Prop :=
  ∀ (i : Nat) (c : Call) (r : Request), s.calls[i]? = some c → Channel.awaited? s.profile c = some r →
    (i, .sent r) ∈ s.notes ∨ (i, .asked r) ∈ s.notes

theorem after_noted (s : State) (i : Nat) (c : Call) (m : Move) (noted : Noted s) (found : s.calls[i]? = some c)
    (own : ∀ r, Channel.awaited? m.profile m.call = some r → .sent r ∈ m.notes ∨ .asked r ∈ m.notes)
    (others : ∀ j d, j ≠ i → s.calls[j]? = some d → d.phase.isRefreshing = true → m.profile = s.profile) :
    Noted (s.after i m) := by
  intro j d r atJ awaited
  simp only [State.after, List.mem_append, List.mem_reverse, List.mem_map, Prod.mk.injEq]
  by_cases here : j = i
  · subst here
    have bound := (List.getElem?_eq_some_iff.mp found).1
    rw [State.after, List.getElem?_set_self bound, Option.some.injEq] at atJ
    subst atJ
    rcases own r awaited with sent | asked
    · exact .inl (.inl ⟨_, sent, rfl, rfl⟩)
    · exact .inr (.inl ⟨_, asked, rfl, rfl⟩)
  · rw [State.after, List.getElem?_set_ne (fun same => here same.symm)] at atJ
    have before : Channel.awaited? s.profile d = some r := by
      rw [← awaited]
      unfold Channel.awaited?
      split
      · rename_i stale again phase
        rw [State.after, others j d here atJ (by rw [phase]; rfl)]
      · rfl
      · rfl
    rcases noted j d r atJ before with sent | asked
    · exact .inl (.inr sent)
    · exact .inr (.inr asked)

theorem run_noted (p : Profile) (requests : List Request) (replies : List (Except Failure Response)) (s : State)
    (run : (State.start p requests).Run replies s) : Noted s := by
  induction run with
  | rest =>
      intro i c r found awaited
      obtain ⟨q, _, rfl⟩ := List.mem_map.mp (List.mem_of_getElem? found)
      cases awaited
  | move replies t u i e before moved ih =>
      obtain ⟨c, m, found, reacts, rfl, _⟩ := session_step_cases t u i e moved
      have coherent := run_coherent p requests replies t before
      -- A refresh that changes the profile is the only one that goes on.
      have alone : c.phase.isRefreshing = true → ∀ j d, j ≠ i → t.calls[j]? = some d →
          d.phase.isRefreshing = true → m.profile = t.profile := by
        intro busy j d other atJ refreshing
        exact (other (one_at_most _ t.calls j i d c coherent.single atJ found refreshing busy)).elim
      cases reacts with
      | expires now phase old => exact after_noted t i c _ ih found (by simp [Channel.awaited?]) fun _ _ _ _ _ => rfl
      | sends now phase fresh =>
          exact after_noted t i c _ ih found (by simp [Channel.awaited?, Call.transmit]) fun _ _ _ _ _ => rfl
      | asks stale again phase same =>
          exact after_noted t i c _ ih found (by simp [Channel.awaited?]) fun _ _ _ _ _ => rfl
      | overtaken stale again phase other =>
          exact after_noted t i c _ ih found (by simp [Channel.awaited?, Call.transmit]) fun _ _ _ _ _ => rfl
      | fails stale again phase reply saved f refused =>
          exact after_noted t i c _ ih found (by simp [Channel.awaited?, Call.finish]) fun _ _ _ _ _ => rfl
      | unsaved stale again phase reply t f ok =>
          exact after_noted _ i c _ ih found (by simp [Channel.awaited?, Call.finish]) (alone (by rw [phase]; rfl))
      | renews stale again phase reply t ok =>
          exact after_noted _ i c _ ih found (by simp [Channel.awaited?, Call.transmit]) (alone (by rw [phase]; rfl))
      | refused token phase r saved status =>
          exact after_noted t i c _ ih found (by simp [Channel.awaited?]) fun _ _ _ _ _ => rfl
      | ends token again phase reply saved final =>
          exact after_noted t i c _ ih found (by simp [Channel.awaited?, Call.finish]) fun _ _ _ _ _ => rfl

theorem asked_renews (p : Profile) (requests : List Request) (s : State) (coherent : Coherent p requests s)
    (i : Nat) (r : Request) (member : (i, .asked r) ∈ s.notes) : r.method = "POST" ∧ r.path = "/auth/session" := by
  obtain ⟨later, earlier, split⟩ := List.append_of_mem member
  obtain ⟨rfl, _⟩ := lawful_split p requests later earlier i (.asked r) (split ▸ coherent.lawful)
  exact ⟨rfl, rfl⟩

theorem authorized_bearer (q : Request) (token : String) :
    (Exchange.asked (q.authorized token)).authorization? = some ("Bearer " ++ token) := by
  simp [Exchange.authorization?, Request.authorized, Members.lookup_put]

-- A token that is expired from the start is sent only if a refresh brought that very
-- token again, and before that. As long as no refresh succeeds, all that is sent is
-- refreshes.
theorem expired_unsent (p : Profile) (requests : List Request) (now time : Rat) (expiry : Int)
    (known : Token.expiry? p.accessToken = some expiry) (past : (expiry : Rat) < now)
    (replies : List (Except Failure Response)) (s : State)
    (run : (State.start p requests).TimedRun now replies time s) :
    History.answered s.notes = grants replies ∧
    (∀ later i r earlier, s.notes = later ++ (i, .sent r) :: earlier →
      (Exchange.asked r).authorization? = some ("Bearer " ++ p.accessToken) →
      ∃ t ∈ History.answered earlier, t.access = p.accessToken) ∧
    (∀ i r, (i, .asked r) ∈ s.notes → r.method = "POST" ∧ r.path = "/auth/session") ∧
    (grants replies = [] → ∀ i r, (i, .sent r) ∉ s.notes) ∧
    (∀ i c r, s.calls[i]? = some c → Channel.awaited? s.profile c = some r →
      (i, .sent r) ∈ s.notes ∨ (i, .asked r) ∈ s.notes) := by
  have expired : p.isExpired now = true := by simp [Profile.isExpired, Token.isExpired, known, past]
  have ran := (State.timed_run _ now time replies s run).1
  have coherent := run_coherent p requests replies s ran
  have answered := (run_recorded p requests replies s ran).answered
  have holds := timed_holds p requests now time replies s expired run
  refine ⟨answered, ?_, asked_renews p requests s coherent, ?_, run_noted p requests replies s ran⟩
  · intro later i r earlier split bears
    have renewals := renewed_split later earlier i r (split ▸ holds.renewed)
    obtain ⟨q, _, rfl, _⟩ := lawful_split p requests later earlier i (.sent r) (split ▸ coherent.lawful)
    rw [authorized_bearer, Option.some.injEq, String.append_right_inj] at bears
    obtain ⟨t, before, answers⟩ := List.exists_cons_of_ne_nil renewals
    rw [answers, latestAccess] at bears
    exact ⟨t, by rw [answers]; exact List.mem_cons_self, bears⟩
  · intro none i r member
    obtain ⟨later, earlier, split⟩ := List.append_of_mem member
    refine renewed_split later earlier i r (split ▸ holds.renewed) ?_
    have all : History.answered (later ++ (i, .sent r) :: earlier) = [] := by rw [← split, answered, none]
    have tail : History.answered ((i, .sent r) :: earlier) = [] := by
      rw [History.answered, History.renewals, List.filterMap_append, List.map_append] at all
      exact (List.append_eq_nil_iff.mp all).2
    exact tail

theorem start_waits (s : State) (i : Nat) (c : Call) (now : Rat) (found : s.calls[i]? = some c)
    (phase : c.phase = .new) (expired : s.profile.isExpired now = true) :
    s.step i (.start now) = some (s.after i ⟨⟨c.request, .queued s.profile.accessToken false⟩, s.profile,
      [.expired c.request.path s.profile.accessToken]⟩) := by
  simp only [State.step, found, Call.react, phase, Call.start, expired]
  rfl

theorem enter_asks (s : State) (i : Nat) (c : Call) (stale : String) (again : Bool) (found : s.calls[i]? = some c)
    (phase : c.phase = .queued stale again) (free : s.isBusy = false) (same : s.profile.accessToken = stale) :
    s.step i .enter = some (s.after i ⟨⟨c.request, .refreshing stale again⟩, s.profile,
      [.asked (refreshRequest s.profile)]⟩) := by
  simp only [State.step, found, Call.react, phase, Call.enter, free, same]
  rfl

theorem claimed_expiry : Token.expiry? "h.eyJleHAiOjF9.s" = some 1 := by
  have legible : Json.Legible .free 0 (.obj [("exp", .int 1)]) :=
    ⟨rfl, by decide, show (Nat.toDigits 10 1).length ≤ Json.maxDigits by decide, trivial⟩
  have chars : (Json.write .compact 0 (.obj [("exp", .int 1)])).toList = "\x7b\"exp\":1\x7d".toList := by decide
  have read := Json.bytes_read .compact Json.compact_regular _ legible _ _ _ chars (.inr rfl) (by decide)
  have payload : Base64.decode? (Base64.pad "eyJleHAiOjF9".toList) =
      some (Text.utf8 (Json.write .compact 0 (.obj [("exp", .int 1)]))) := by
    rw [Text.utf8, chars]
    decide
  have parts : Token.segments "h.eyJleHAiOjF9.s" = ["h".toList, "eyJleHAiOjF9".toList, "s".toList] := by decide
  simp only [Token.expiry?, Token.expiryClaim?, Token.claims?, parts, payload, Option.bind_some, read]
  rfl

-- A call begins with an expired token, and the refresh is refused: nothing else is sent.
theorem expired_unsent_refused : ∃ replies s,
    (State.start ⟨"me", "", "", "h.eyJleHAiOjF9.s", "r0"⟩ [.plain "GET" "/a"]).TimedRun 2 replies 3 s ∧
      s.notes.length = 2 ∧ ∀ i r, (i, .sent r) ∉ s.notes := by
  have expired : Profile.isExpired ⟨"me", "", "", "h.eyJleHAiOjF9.s", "r0"⟩ 2 = true := by
    simp only [Profile.isExpired, Token.isExpired, claimed_expiry]
    decide
  have started : (State.start ⟨"me", "", "", "h.eyJleHAiOjF9.s", "r0"⟩ [.plain "GET" "/a"]).TimedRun 2 _ 2 _ :=
    .move _ _ _ _ 0 (.start 2) .rest (fun read same => by cases same; rfl) (start_waits _ 0 _ 2 rfl rfl expired)
  have asked : (State.start ⟨"me", "", "", "h.eyJleHAiOjF9.s", "r0"⟩ [.plain "GET" "/a"]).TimedRun 2 _ 3 _ :=
    .move _ _ _ _ 0 .enter (.wait _ _ 3 _ started (by decide)) (fun read same => by cases same)
      (enter_asks _ 0 _ _ false rfl rfl rfl rfl)
  have run : (State.start ⟨"me", "", "", "h.eyJleHAiOjF9.s", "r0"⟩ [.plain "GET" "/a"]).TimedRun 2 _ 3 _ :=
    .move _ _ _ _ 0 _ asked (fun read same => by cases same)
      (refresh_fails _ 0 _ _ false rfl rfl (.ok ⟨401, [], []⟩) (.ok ()) _ rfl)
  have unsent := expired_unsent ⟨"me", "", "", "h.eyJleHAiOjF9.s", "r0"⟩ _ 2 3 1 claimed_expiry (by decide) _ _ run
  exact ⟨_, _, run, rfl, unsent.2.2.2.1 rfl⟩

end HostingAdmin.Session
