import HostingAdmin.CommandLine.Run
import HostingAdmin.Proofs.ProfileFile
import HostingAdmin.Proofs.SessionInvariant
import HostingAdmin.Proofs.WireTraffic

set_option autoImplicit false

namespace HostingAdmin.Session

-- What a command does by itself: it leaves the credentials and their file alone.
def Aside (cfg : Path) (w v : World) : Prop :=
  v.profile = w.profile ∧ v.renewals = w.renewals ∧ v.files.read cfg = w.files.read cfg

-- What happens in a session: calls move, whichever and whenever, and the
-- command does other things in between.
inductive Works (ch : Channel) (cfg : Path) (start : World) : World → Prop where
  | rest : Works ch cfg start start
  | call (w : World) (c : Call) (before : Works ch cfg start w) : Works ch cfg start ((ch.advance c).perform w).2
  | aside (w v : World) (before : Works ch cfg start w) (other : Aside cfg w v) : Works ch cfg start v

-- What the answers to refreshes make of the credentials and their file.
def Keeps (cfg : Path) (w v : World) : Prop :=
  Profile.Readable cfg w.files → Profile.Readable cfg v.files ∧ ∃ fresh, v.renewals = fresh ++ w.renewals ∧
    v.profile = afterRenewals w.profile fresh ∧
    v.files.read cfg = if fresh = [] then w.files.read cfg else .ok v.profile.fileText

theorem aside_passage (cfg : Path) : Action.Passage (Aside cfg) where
  stay _ := ⟨rfl, rfl, rfl⟩
  chain _ _ _ first second :=
    ⟨second.1.trans first.1, second.2.1.trans first.2.1, second.2.2.trans first.2.2⟩
  book _ _ _ := ⟨rfl, rfl, rfl⟩

theorem aside_keeps (cfg : Path) (w v : World) (other : Aside cfg w v) : Keeps cfg w v := by
  obtain ⟨profile, renewals, file⟩ := other
  rintro ⟨clean, named, readable⟩
  exact ⟨⟨clean, named, file ▸ readable⟩, [], renewals, profile, file⟩

theorem keeps_passage (cfg : Path) : Action.Passage (Keeps cfg) where
  stay w := aside_keeps cfg w w ((aside_passage cfg).stay w)
  chain u v w first second := by
    intro readable
    obtain ⟨between, earlier, renewals, profile, file⟩ := first readable
    obtain ⟨after, later, renewals', profile', file'⟩ := second between
    refine ⟨after, later ++ earlier, ?_, ?_, ?_⟩
    · rw [renewals', renewals, List.append_assoc]
    · rw [profile', profile, afterRenewals, afterRenewals, afterRenewals, List.foldr_append]
    · rw [file']
      cases later with
      | nil =>
          rw [if_pos rfl, file, List.nil_append, profile']
          rfl
      | cons t rest => simp
  book w log marks := aside_keeps cfg w _ ((aside_passage cfg).book w log marks)

-- What a move of a call does: it keeps the credentials and their file together,
-- and changes nothing but what is in files.
structure Shifts (cfg : Path) (w v : World) : Prop where
  keeps : Keeps cfg w v
  stable : Profile.Readable cfg w.files → w.files.Stable v.files

theorem kept_shifts (cfg : Path) (w v : World) (profile : v.profile = w.profile) (renewals : v.renewals = w.renewals)
    (files : v.files = w.files) : Shifts cfg w v := by
  refine ⟨aside_keeps cfg w v ⟨profile, renewals, by rw [files]⟩, fun _ => ?_⟩
  rw [files]
  exact w.files.stable_stay

theorem shifts_passage (cfg : Path) : Action.Passage (Shifts cfg) where
  stay w := kept_shifts cfg w w rfl rfl rfl
  chain u v w first second := by
    refine ⟨(keeps_passage cfg).chain u v w first.keeps second.keeps, fun readable => ?_⟩
    exact u.files.stable_chain v.files w.files (first.stable readable) (second.stable (first.keeps readable).1)
  book w log marks := kept_shifts cfg w _ rfl rfl rfl

theorem within_log {R : World → World → Prop} (passage : Action.Passage R) (n : Note) : Action.Within R n.log := by
  cases n with
  | expired path token => exact Action.within_record passage _ _ _
  | refused method path token => exact Action.within_record passage _ _ _
  | replacedBefore => exact Action.within_record passage _ _ _
  | completed => exact Action.within_record passage _ _ _
  | _ => exact Action.within_pure passage ()

theorem start_profile (c : Call) (p : Profile) (now : Rat) : (c.start p now).profile = p := by
  rw [Call.start]
  split <;> rfl

theorem enter_profile (c : Call) (p : Profile) (stale : String) (again : Bool) :
    (c.enter p stale again).profile = p := by
  rw [Call.enter]
  split <;> rfl

theorem answered_profile (c : Call) (p : Profile) (token : String) (again : Bool) (reply : Except Failure Response) :
    (c.answered p token again reply).profile = p := by
  unfold Call.answered
  split
  · rfl
  · split <;> rfl

theorem refreshed_profile (c : Call) (p : Profile) (stale : String) (again : Bool) (reply : Except Failure Response)
    (saved : Except Failure Unit) : (c.refreshed p stale again reply saved).profile =
      match granted reply with
      | .error _ => p
      | .ok t => p.renewed t := by
  rw [Call.refreshed]
  cases granted reply with
  | error f => rfl
  | ok t => cases saved <;> rfl

-- Asking the server concerns neither the credentials nor any file.
theorem sent_kept (link : Link) (r : Request) : Action.Within (fun w v : World =>
    v.profile = w.profile ∧ v.renewals = w.renewals ∧ v.files = w.files) (link.send r) :=
  Action.within_link ⟨fun _ => ⟨rfl, rfl, rfl⟩, fun _ _ _ first second =>
    ⟨second.1.trans first.1, second.2.1.trans first.2.1, second.2.2.trans first.2.2⟩, fun _ _ _ => ⟨rfl, rfl, rfl⟩⟩
    link r fun _ _ _ => ⟨rfl, rfl, rfl⟩

theorem event_agrees (link : Link) (cfg : Path) (c : Call) (w : World) (readable : Profile.Readable cfg w.files) :
    ∃ e v, (Channel.nextEvent ⟨link, Profile.save cfg⟩ w.profile c).perform w = (.ok e, v) ∧ Shifts cfg w v ∧
      ∀ m, c.react w.profile e = some m → m.profile = v.profile := by
  obtain ⟨request, phase⟩ := c
  cases phase with
  | new =>
      refine ⟨.start w.clock, w, rfl, (shifts_passage cfg).stay w, ?_⟩
      intro m moved
      cases moved
      exact start_profile _ _ _
  | queued stale again =>
      refine ⟨.enter, w, rfl, (shifts_passage cfg).stay w, ?_⟩
      intro m moved
      cases moved
      exact enter_profile _ _ _ _
  | sending token again =>
      obtain ⟨profile, renewals, files⟩ := sent_kept link (request.authorized token) w
      refine ⟨.answer ((link.send (request.authorized token)).perform w).1 (.ok ()), _, rfl,
        kept_shifts cfg w _ profile renewals files, ?_⟩
      intro m moved
      cases moved
      rw [answered_profile]
      exact profile.symm
  | done outcome =>
      refine ⟨.enter, w, rfl, (shifts_passage cfg).stay w, ?_⟩
      intro m moved
      cases moved
  | refreshing stale again =>
      have kept := sent_kept link (refreshRequest w.profile) w
      rcases asked : (link.send (refreshRequest w.profile)).perform w with ⟨reply, u⟩
      rw [asked] at kept
      obtain ⟨profile, renewals, files⟩ := kept
      cases grantedEq : granted reply with
      | error f =>
          refine ⟨.answer reply (.ok ()), u, ?_, kept_shifts cfg w u profile renewals files, ?_⟩
          · simp [Channel.nextEvent, Action.perform_bind, asked, grantedEq]
          · intro m moved
            cases moved
            rw [refreshed_profile, grantedEq]
            exact profile.symm
      | ok t =>
          have readable' : Profile.Readable cfg u.files := files ▸ readable
          obtain ⟨v, saved, written, stable, sameProfile, sameRenewals⟩ :=
            Profile.save_written cfg (w.profile.renewed t)
              { u with profile := w.profile.renewed t, renewals := t :: u.renewals } readable'
          refine ⟨.answer reply (.ok ()), v, ?_, ⟨?_, ?_⟩, ?_⟩
          · simp only [Channel.nextEvent, Action.perform_bind, Action.perform_outcome, asked, grantedEq,
              Action.perform_modify, saved, Action.perform_pure]
          · intro _
            refine ⟨⟨readable.1, readable.2.1, _, written⟩, [t], ?_, sameProfile, ?_⟩
            · rw [sameRenewals, ← renewals]
              rfl
            · rw [if_neg (List.cons_ne_nil t []), written, sameProfile]
          · intro _
            rw [← files]
            exact stable
          · intro m moved
            cases moved
            rw [refreshed_profile, grantedEq]
            exact sameProfile.symm

theorem readable_shifts (link : Link) (cfg : Path) (c : Call) (w : World) (readable : Profile.Readable cfg w.files) :
    Shifts cfg w ((Channel.advance ⟨link, Profile.save cfg⟩ c).perform w).2 := by
  obtain ⟨e, v, happened, shifts, agrees⟩ := event_agrees link cfg c w readable
  rw [Channel.advance, Action.perform_bind, Action.perform_get]
  dsimp only
  rw [Action.perform_bind, happened]
  dsimp only
  cases moved : c.react w.profile e with
  | none => exact shifts
  | some m =>
      have same : ({ v with profile := m.profile } : World) = v := by rw [agrees m moved]
      simp only [Action.perform_bind, Action.perform_modify, same]
      have logged := Action.within_bind (shifts_passage cfg) _ (fun _ => pure m.call)
        (Action.within_each (shifts_passage cfg) m.notes Note.log fun n _ => within_log (shifts_passage cfg) n)
        (fun _ => Action.within_pure (shifts_passage cfg) m.call) v
      rw [Action.perform_bind] at logged
      exact (shifts_passage cfg).chain w v _ shifts logged

theorem advance_shifts (link : Link) (cfg : Path) (c : Call) :
    Action.Within (Shifts cfg) (Channel.advance ⟨link, Profile.save cfg⟩ c) := fun w =>
  ⟨fun readable => (readable_shifts link cfg c w readable).keeps readable,
    fun readable => (readable_shifts link cfg c w readable).stable readable⟩

theorem works_keeps (link : Link) (cfg : Path) (w v : World)
    (works : Works ⟨link, Profile.save cfg⟩ cfg w v) : Keeps cfg w v := by
  induction works with
  | rest => exact (keeps_passage cfg).stay w
  | call u c _ ih => exact (keeps_passage cfg).chain w u _ ih (advance_shifts link cfg c u).keeps
  | aside u v _ other ih => exact (keeps_passage cfg).chain w u v ih (aside_keeps cfg u v other)

theorem drive_within {R : World → World → Prop} (passage : Action.Passage R) (ch : Channel)
    (moves : ∀ c, Action.Within R (ch.advance c)) (fuel : Nat) (c : Call) : Action.Within R (ch.drive fuel c) := by
  induction fuel generalizing c with
  | zero => exact Action.within_throw passage _
  | succ fuel ih =>
      rw [Channel.drive]
      split
      · exact Action.within_except passage id _
      · exact Action.within_bind passage _ _ (moves _) ih

theorem send_within {R : World → World → Prop} (passage : Action.Passage R) (ch : Channel)
    (moves : ∀ c, Action.Within R (ch.advance c)) (r : Request) : Action.Within R (ch.send r) :=
  drive_within passage ch moves Channel.maxMoves ⟨r, .new⟩

theorem works_passage (ch : Channel) (cfg : Path) : Action.Passage (Works ch cfg) where
  stay _ := .rest
  chain u v w first second := by
    induction second with
    | rest => exact first
    | call w c _ ih => exact .call w c ih
    | aside w x _ other ih => exact .aside w x ih other
  book w log marks := .aside w _ .rest ((aside_passage cfg).book w log marks)

theorem send_works (ch : Channel) (cfg : Path) (r : Request) : Action.Within (Works ch cfg) (ch.send r) :=
  send_within (works_passage ch cfg) ch (fun c w => .call w c .rest) r

open CommandLine

-- What a command does in its session, when there is a profile, is to let calls
-- move and to leave the credentials and their file alone.
def Confined {α : Type} (cfg : Path) (body : Sender → Action α) (w : World) : Prop :=
  Profile.Readable cfg w.files → ∀ link p, Works ⟨link, Profile.save cfg⟩ cfg { w with profile := p }
    ((body (Channel.send ⟨link, Profile.save cfg⟩)).perform { w with profile := p }).2

theorem session_opens (s : Settings) (w : World) :
    (∃ f, (openSession s).perform w = (.error f, w)) ∨
    ∃ p link, (openSession s).perform w =
        (.ok (Channel.send ⟨link, Profile.save s.configPath⟩), { w with profile := p }) ∧
      (Profile.load s.configPath).perform w = (.ok p, w) ∧ Action.hasNull s.configPath = false ∧
      ∃ body, w.files.read s.configPath = .ok body := by
  obtain ⟨result, loaded, from_file⟩ := Profile.load_cases s.configPath w
  rw [openSession, Action.perform_bind, loaded]
  cases result with
  | error f => exact .inl ⟨f, rfl⟩
  | ok p =>
      simp only [Action.perform_bind]
      cases user : p.isLoggedIn with
      | false =>
          have refused : p.requireLogin = .error .notLoggedIn := by simp [Profile.requireLogin, user]
          rw [refused]
          exact .inl ⟨_, rfl⟩
      | true =>
          have accepted : p.requireLogin = .ok () := by simp [Profile.requireLogin, user]
          rw [accepted]
          cases Link.toBase s.baseUrl with
          | error f => exact .inl ⟨f, rfl⟩
          | ok link => exact .inr ⟨p, link, rfl, rfl, from_file p rfl user⟩

theorem opening_within {R : World → World → Prop} (passage : Action.Passage R)
    (loads : ∀ w profile, R w { w with profile }) (s : Settings) : Action.Within R (openSession s) := by
  intro w
  rcases session_opens s w with ⟨f, failed⟩ | ⟨p, link, opened, _⟩
  · rw [failed]
    exact passage.stay w
  · rw [opened]
    exact loads w p

-- What a session leaves behind: credentials that the answers to refreshes made
-- of the loaded ones, and a file that holds them.
structure Left (cfg : Path) (w opened v : World) : Prop where
  renewed : ∃ fresh, v.renewals = fresh ++ w.renewals ∧ v.profile = afterRenewals opened.profile fresh ∧
    v.files.read cfg = if fresh = [] then w.files.read cfg else .ok v.profile.fileText
  loaded : (Profile.load cfg).perform w = (.ok opened.profile, w)
  reloaded : (Profile.load cfg).perform v = (.ok v.profile, v)

theorem works_left (link : Link) (cfg : Path) (named : cfg.parts ≠ []) (w : World) (p : Profile) (v : World)
    (loaded : (Profile.load cfg).perform w = (.ok p, w)) (clean : Action.hasNull cfg = false) (body : Bytes)
    (there : w.files.read cfg = .ok body)
    (works : Works ⟨link, Profile.save cfg⟩ cfg { w with profile := p } v) :
    Left cfg w { w with profile := p } v := by
  obtain ⟨_, fresh, renewals, profile, file⟩ := works_keeps link cfg _ v works ⟨clean, named, body, there⟩
  refine ⟨⟨fresh, renewals, profile, file⟩, loaded, ?_⟩
  cases fresh with
  | nil =>
      rw [if_pos rfl] at file
      have before := Profile.load_read cfg w body clean there
      rw [loaded, Prod.mk.injEq] at before
      rw [Profile.load_read cfg v body clean (file.trans there), ← before.1, profile]
      rfl
  | cons t earlier => exact Profile.load_written cfg v v.profile clean file

theorem session_left {α : Type} (s : Settings) (body : Sender → Action α) (w : World)
    (named : s.configPath.parts ≠ []) (confined : Confined s.configPath body w) :
    match (openSession s).perform w with
    | (.error f, _) => (openSession s >>= body).perform w = (.error f, w)
    | (.ok _, opened) => Left s.configPath w opened ((openSession s >>= body).perform w).2 := by
  rw [Action.perform_bind]
  obtain ⟨f, failed⟩ | ⟨p, link, opened, loaded, clean, text, there⟩ := session_opens s w
  · rw [failed]
  · rw [opened]
    exact works_left link s.configPath named w p _ loaded clean text there
      (confined ⟨clean, named, text, there⟩ link p)

end HostingAdmin.Session
