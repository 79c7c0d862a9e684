import HostingAdmin.Proofs.SingleFlight
import HostingAdmin.Proofs.TendedCommands

set_option autoImplicit false

namespace HostingAdmin.Session

open CommandLine

-- The tokens that some answers to refreshes grant.
def grants (replies : List (Except Failure Response)) : List Tokens :=
  replies.filterMap fun reply => (granted reply).toOption

structure Recorded (p : Profile) (replies : List (Except Failure Response)) (s : State) : Prop where
  answered : History.answered s.notes = grants replies
  saved : History.saved s.notes = stages p (History.answered s.notes)

theorem reply_other (s : State) (i : Nat) (e : Event) (c : Call) (found : s.calls[i]? = some c)
    (other : c.phase.isRefreshing = false) : s.refreshReply i e = [] := by
  cases e with
  | answer reply saved => simp [State.refreshReply, found, other]
  | _ => rfl

theorem reply_refreshing (s : State) (i : Nat) (reply : Except Failure Response) (saved : Except Failure Unit)
    (c : Call) (found : s.calls[i]? = some c) (refreshing : c.phase.isRefreshing = true) :
    s.refreshReply i (.answer reply saved) = [reply] := by
  simp [State.refreshReply, found, refreshing]

theorem silent_recorded (p : Profile) (replies : List (Except Failure Response)) (s : State) (i : Nat) (m : Move)
    (recorded : Recorded p replies s) (unrenewed : m.notes.filterMap Note.renewal? = [])
    (unsaved : m.notes.filterMap Note.saved? = []) : Recorded p replies (s.after i m) := by
  have answered := grown_answered s.notes i m.notes unrenewed
  have saved : (History.grown s.notes i m.notes).saved = History.saved s.notes := by
    rw [grown_saved, List.filterMap_reverse, unsaved]
    rfl
  exact ⟨answered.trans recorded.answered, by
    rw [show History.saved (s.after i m).notes = History.saved s.notes from saved, recorded.saved]
    rw [show History.answered (s.after i m).notes = History.answered s.notes from answered]⟩

theorem renewed_recorded (p : Profile) (requests : List Request) (reply : Except Failure Response)
    (replies : List (Except Failure Response)) (s : State) (i : Nat) (m : Move) (stale : String) (t : Tokens)
    (coherent : Coherent p requests s) (recorded : Recorded p replies s) (ok : granted reply = .ok t)
    (renewed : m.notes.filterMap Note.renewal? = [(stale, t)])
    (saved : m.notes.filterMap Note.saved? = [s.profile.renewed t]) :
    Recorded p (reply :: replies) (s.after i m) := by
  have answered : History.answered (s.after i m).notes = t :: History.answered s.notes := by
    rw [State.after, ← History.grown, History.answered, grown_renewals, List.filterMap_reverse, renewed]
    rfl
  have written : History.saved (s.after i m).notes = s.profile.renewed t :: History.saved s.notes := by
    rw [State.after, ← History.grown, grown_saved, List.filterMap_reverse, saved]
    rfl
  constructor
  · rw [answered, recorded.answered, grants, grants, List.filterMap_cons, ok]
    rfl
  · rw [written, answered, recorded.saved, coherent.profile]
    rfl

theorem step_recorded (p : Profile) (requests : List Request) (replies : List (Except Failure Response))
    (s t : State) (i : Nat) (e : Event) (coherent : Coherent p requests s) (recorded : Recorded p replies s)
    (moved : s.step i e = some t) : Recorded p (s.refreshReply i e ++ replies) t := by
  obtain ⟨c, m, found, reacts, rfl, _⟩ := session_step_cases s t i e moved
  have silent : c.phase.isRefreshing = false → m.notes.filterMap Note.renewal? = [] →
      m.notes.filterMap Note.saved? = [] → Recorded p (s.refreshReply i e ++ replies) (s.after i m) := by
    intro other unrenewed unsaved
    rw [reply_other s i e c found other]
    exact silent_recorded p replies s i m recorded unrenewed unsaved
  cases reacts with
  | expires now phase old => exact silent (by rw [phase]; rfl) rfl rfl
  | sends now phase fresh => exact silent (by rw [phase]; rfl) rfl rfl
  | asks stale again phase same => exact silent (by rw [phase]; rfl) rfl rfl
  | overtaken stale again phase other => exact silent (by rw [phase]; rfl) rfl rfl
  | refused token phase r saved status => exact silent (by rw [phase]; rfl) rfl rfl
  | ends token again phase reply saved final => exact silent (by rw [phase]; rfl) rfl rfl
  | fails stale again phase reply saved f refused =>
      rw [reply_refreshing s i reply saved c found (by rw [phase]; rfl)]
      have nothing : grants ([reply] ++ replies) = grants replies := by
        rw [grants, List.singleton_append, List.filterMap_cons, refused]
        rfl
      exact ⟨recorded.answered.trans nothing.symm, recorded.saved⟩
  | unsaved stale again phase reply t f ok =>
      rw [reply_refreshing s i reply (.error f) c found (by rw [phase]; rfl)]
      exact renewed_recorded p requests reply replies s i _ stale t coherent recorded ok rfl rfl
  | renews stale again phase reply t ok =>
      rw [reply_refreshing s i reply (.ok ()) c found (by rw [phase]; rfl)]
      exact renewed_recorded p requests reply replies s i _ stale t coherent recorded ok rfl rfl

theorem run_recorded (p : Profile) (requests : List Request) (replies : List (Except Failure Response)) (s : State)
    (run : (State.start p requests).Run replies s) : Recorded p replies s := by
  induction run with
  | rest => exact ⟨rfl, rfl⟩
  | move replies t u i e before moved ih =>
      exact step_recorded p requests replies t u i e (run_coherent p requests replies t before) ih moved

-- The state after a refresh that failed.
def State.failed (s : State) (i : Nat) (c : Call) (f : Failure) : State :=
  { s with calls := s.calls.set i ⟨c.request, .done (.error f)⟩ }

theorem refresh_fails (s : State) (i : Nat) (c : Call) (stale : String) (again : Bool)
    (found : s.calls[i]? = some c) (phase : c.phase = .refreshing stale again) (reply : Except Failure Response)
    (saved : Except Failure Unit) (f : Failure) (refused : granted reply = .error f) :
    s.step i (.answer reply saved) = some (s.failed i c f) := by
  simp only [State.step, found, Call.react, phase, Call.refreshed, refused]
  rfl

theorem refresh_renews (s : State) (i : Nat) (c : Call) (stale : String) (again : Bool)
    (found : s.calls[i]? = some c) (phase : c.phase = .refreshing stale again) (reply : Except Failure Response)
    (t : Tokens) (ok : granted reply = .ok t) : s.step i (.answer reply (.ok ())) = some (s.after i
      (c.transmit (s.profile.renewed t) again [.renewed stale t, .saving (s.profile.renewed t), .completed])) := by
  simp only [State.step, found, Call.react, phase, Call.refreshed, ok]
  rfl

theorem done_waits (c : Call) (p : Profile) (e : Event) (m : Move) (outcome : Except Failure Response)
    (phase : c.phase = .done outcome) : ¬ Reacts c p e m := by
  intro reacts
  cases reacts <;> simp_all only [reduceCtorEq]

theorem done_stays (s t : State) (replies : List (Except Failure Response)) (i : Nat) (c : Call)
    (outcome : Except Failure Response) (found : s.calls[i]? = some c) (phase : c.phase = .done outcome)
    (run : s.Run replies t) : t.calls[i]? = some c ∧ History.own t.notes i = History.own s.notes i := by
  induction run with
  | rest => exact ⟨found, rfl⟩
  | move replies t u j e _ moved ih =>
      obtain ⟨d, m, atJ, reacts, rfl, _⟩ := session_step_cases t u j e moved
      have other : i ≠ j := by
        intro same
        subst same
        rw [ih.1] at atJ
        cases atJ
        exact done_waits c t.profile e m outcome phase reacts
      refine ⟨?_, ?_⟩
      · rw [State.after, List.getElem?_set_ne (Ne.symm other)]
        exact ih.1
      · rw [State.after, ← History.grown, grown_own, if_neg other]
        exact ih.2

theorem stages_written (cfg : Path) (p : Profile) (renewals : List Tokens) (w : World)
    (readable : Profile.Readable cfg w.files) :
    ∃ v, ((stages p renewals).reverse.forM (Profile.save cfg)).perform w = (.ok (), v) ∧
      Profile.Readable cfg v.files ∧
      v.files.read cfg = if renewals = [] then w.files.read cfg else .ok (afterRenewals p renewals).fileText := by
  induction renewals with
  | nil => exact ⟨w, rfl, readable, rfl⟩
  | cons t earlier ih =>
      obtain ⟨u, before, still, _⟩ := ih
      obtain ⟨v, saved, written, _, _⟩ := Profile.save_written cfg (afterRenewals p (t :: earlier)) u still
      refine ⟨v, ?_, ⟨readable.1, readable.2.1, _, written⟩, ?_⟩
      · rw [List.forM_eq_forM] at before
        simp only [stages, List.reverse_cons, List.forM_eq_forM, List.forM_append, List.forM_cons, List.forM_nil,
          Action.perform_bind, before, saved, Action.perform_pure]
      · rw [if_neg (List.cons_ne_nil t earlier), written]

theorem credential_history (p : Profile) (requests : List Request) (replies : List (Except Failure Response))
    (s : State) (run : (State.start p requests).Run replies s) :
    History.answered s.notes = grants replies ∧
    s.profile = { p with
      accessToken := latestAccess p (History.answered s.notes)
      refreshToken := latestRefresh p (History.answered s.notes) } ∧
    History.saved s.notes = stages p (History.answered s.notes) ∧
    (∀ i c stale again reply saved f, s.calls[i]? = some c → c.phase = .refreshing stale again →
      granted reply = .error f →
      s.step i (.answer reply saved) = some (s.failed i c f) ∧
      ∀ later t, (s.failed i c f).Run later t →
        t.calls[i]? = some ⟨c.request, .done (.error f)⟩ ∧ History.own t.notes i = History.own s.notes i) ∧
    (∀ cfg w, Profile.Readable cfg w.files →
      ∃ v, ((History.saved s.notes).reverse.forM (Profile.save cfg)).perform w = (.ok (), v) ∧
        v.files.read cfg =
          if History.answered s.notes = [] then w.files.read cfg else .ok s.profile.fileText) ∧
    (∀ (α : Type) (settings : Settings) (body : Sender → Action α) (w : World), settings.configPath.parts ≠ [] →
      Confined settings.configPath body w →
      match (openSession settings).perform w with
      | (.error f, _) => (openSession settings >>= body).perform w = (.error f, w)
      | (.ok _, opened) => Left settings.configPath w opened ((openSession settings >>= body).perform w).2) ∧
    (∀ (settings : Settings) (c : Command) (w : World), settings.configPath.parts ≠ [] → Tended settings w c →
      match (openSession settings).perform w with
      | (.error f, _) => (c.run settings).perform w = (.error f, w)
      | (.ok _, opened) => Left settings.configPath w opened ((c.run settings).perform w).2) := by
  have coherent := run_coherent p requests replies s run
  have recorded := run_recorded p requests replies s run
  refine ⟨recorded.answered, ?_, recorded.saved, ?_, ?_, fun α => session_left, command_left⟩
  · rw [coherent.profile, after_renewals]
  · intro i c stale again reply saved f found phase refused
    refine ⟨refresh_fails s i c stale again found phase reply saved f refused, ?_⟩
    intro later t run
    have bound := (List.getElem?_eq_some_iff.mp found).1
    exact done_stays (s.failed i c f) t later i _ _ (List.getElem?_set_self bound) rfl run
  · intro cfg w readable
    obtain ⟨v, written, _, file⟩ := stages_written cfg p (History.answered s.notes) w readable
    rw [recorded.saved, coherent.profile]
    exact ⟨v, written, file⟩

theorem both_granted (access refresh : String) : granted (.ok ⟨Status.created, [], Text.utf8
    (Json.obj [("access_token", .str access), ("refresh_token", .str refresh)]).indented⟩) =
      .ok ⟨access, some refresh⟩ := by
  have parsed := text_parsed Tokens.title Tokens.check
    (.obj [("access_token", .str access), ("refresh_token", .str refresh)]) ⟨access, some refresh⟩
    ⟨rfl, show ["access_token", "refresh_token"].Nodup by decide, trivial, trivial, trivial⟩ rfl
  rw [granted, Except.bind, readTokens, if_pos rfl, Tokens.parse, parsed]
  rfl

-- A request is refused, and the refresh brings both tokens.
theorem credential_history_rotation : ∃ replies s,
    (State.start ⟨"me", "", "", "t0", "r0"⟩ [.plain "GET" "/a"]).Run replies s ∧
      s.profile = ⟨"me", "", "", "t1", "r1"⟩ ∧ History.saved s.notes = [⟨"me", "", "", "t1", "r1"⟩] := by
  have ok := both_granted "t1" "r1"
  have before : (State.start ⟨"me", "", "", "t0", "r0"⟩ [.plain "GET" "/a"]).Run _ _ :=
    .move _ _ _ 0 .enter (.move _ _ _ 0 (.answer (.ok ⟨401, [], []⟩) (.ok ()))
      (.move _ _ _ 0 (.start 0) .rest rfl) rfl) rfl
  have run := State.Run.move _ _ _ 0 _ before (refresh_renews _ 0 _ "t0" true rfl rfl _ _ ok)
  obtain ⟨_, profile, saved, _⟩ := credential_history _ _ _ _ run
  refine ⟨_, _, run, ?_, ?_⟩
  · rw [profile]
    rfl
  · rw [saved]
    rfl

end HostingAdmin.Session
