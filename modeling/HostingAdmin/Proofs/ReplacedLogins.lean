import HostingAdmin.Proofs.SessionIsolation
import HostingAdmin.Proofs.StoredFiles

set_option autoImplicit false

namespace HostingAdmin

open HostingAdmin.Action

-- Two worlds with one server and one past: a request has the same answer in both.

theorem Wire.once_again (sent : WireRequest) (w u : World) (silent : Silent w u) :
    ((Wire.once sent).perform u).1 = ((Wire.once sent).perform w).1 := by
  obtain ⟨exchanges, server⟩ := silent
  rw [Wire.once]
  cases Wire.unsupported? sent.url with
  | some fault => rfl
  | none =>
      simp only [perform_bind, exchange, perform_get, perform_set, exchanges, server]
      cases w.server w.exchanges (.sent sent) with
      | error refusal => rfl
      | ok x =>
          dsimp only [Action.ofExcept, perform_pure]
          cases Wire.redirect? sent.url x <;> rfl

theorem Link.sent_again (base : Url) (r : Request) (w u : World) (silent : Silent w u) :
    (((Link.wire base).send r).perform u).1 = (((Link.wire base).send r).perform w).1 := by
  let about : Members Json := [("method", .str r.method), ("path", .str r.path)]
  obtain ⟨w₁, recorded, quiet⟩ := record_within silent_passage .debug "Making Realm API request" about w
  obtain ⟨u₁, recorded', quiet'⟩ := record_within silent_passage .debug "Making Realm API request" about u
  have alike : Silent w₁ u₁ := ⟨quiet'.1.trans (silent.1.trans quiet.1.symm), quiet'.2.trans (silent.2.trans quiet.2.symm)⟩
  simp only [about] at recorded recorded'
  simp only [Link.send, perform_bind, recorded, recorded']
  cases Wire.build base [("User-Agent", Program.agent)] r with
  | error f => rfl
  | ok sent =>
      have same := Wire.once_again sent w₁ u₁ alike
      dsimp only [Action.ofExcept, perform_pure]
      rcases heard : (Wire.once sent).perform w₁ with ⟨result, w₂⟩
      rcases heard' : (Wire.once sent).perform u₁ with ⟨result', u₂⟩
      rw [heard, heard'] at same
      dsimp only at same
      subst same
      cases result' with
      | error f => rfl
      | ok x =>
          let after : Members Json := about ++ [("status", .int x.1.status)]
          obtain ⟨w₃, logged⟩ := record_succeeds .debug "Realm API response" after w₂
          obtain ⟨u₃, logged'⟩ := record_succeeds .debug "Realm API response" after u₂
          simp only [after, about] at logged logged'
          simp only [logged, logged']

theorem Endpoint.call_again {α : Type} (base : Url) (e : Endpoint α) (w v u : World) (silent : Silent w u) (x : α)
    (called : (e.call (Link.wire base).send).perform w = (.ok x, v)) :
    ∃ y, (e.call (Link.wire base).send).perform u = (.ok x, y) ∧ y.files = u.files := by
  obtain ⟨r, w₁, sent, read⟩ := bind_ok _ _ w v x called
  have again := Link.sent_again base e.request w u silent
  have kept := (Session.sent_kept (.wire base) e.request u).2.2
  rw [sent] at again
  rcases sent' : ((Link.wire base).send e.request).perform u with ⟨result, y⟩
  rw [sent'] at again kept
  dsimp only at again
  subst again
  refine ⟨y, ?_, kept⟩
  rw [Endpoint.call, perform_bind, sent']
  dsimp only
  cases answer : e.read r with
  | error f =>
      rw [answer] at read
      cases read
  | ok z =>
      rw [answer] at read
      cases read
      rfl

namespace Profile

theorem saved_back (cfg : Path) (q : Profile) (w v : World) (saved : (save cfg q).perform w = (.ok (), v)) :
    hasNull cfg = false ∧ (load cfg).perform v = (.ok q, v) := by
  have clean : hasNull cfg = false := by
    obtain ⟨_, w₁, _, after⟩ := bind_ok _ _ w v () saved
    obtain ⟨_, w₂, stored, _⟩ := bind_ok _ _ w₁ v () after
    rw [Hosting.store_performed] at stored
    exact (Hosting.change_done cfg _ w₁ w₂ stored).1
  obtain ⟨result, x, performed, ⟨_, _, held⟩ | ⟨⟨f, rfl⟩, _⟩⟩ := save_cases cfg q w
  · rw [saved] at performed
    cases performed
    exact ⟨clean, load_written cfg v q clean held⟩
  · rw [saved] at performed
    cases performed

end Profile

namespace CommandLine

-- A login that went well goes well again, over any other profile, and with the same tokens.
theorem login_again (s : Settings) (l : Login) (w v u : World) (p p' : Profile) (silent : Silent w u)
    (before : (Profile.load s.configPath).perform w = (.ok p, w))
    (before' : (Profile.load s.configPath).perform u = (.ok p', u)) (takes : u.files.Takes s.configPath)
    (done : (logIn s l).perform w = (.ok (), v)) : ∃ e r t x, w.server w.exchanges e = .ok r ∧
      (Account.logIn l).read r = .ok t ∧ (logIn s l).perform u = (.ok (), x) ∧
      (Profile.load s.configPath).perform v = (.ok (loggedIn l t p), v) ∧
      (Profile.load s.configPath).perform x = (.ok (loggedIn l t p'), x) := by
  rw [logIn] at done ⊢
  cases valid : l.fault? with
  | some fault =>
      rw [valid] at done
      cases done
  | none =>
      rw [valid] at done
      cases parsed : (Url.parse s.baseUrl).bind Url.asBase with
      | error fault =>
          simp only [perform_bind, Link.toBase, parsed] at done
          cases done
      | ok base =>
          have linked (y : World) : (Action.ofExcept id (Link.toBase s.baseUrl)).perform y = (.ok (.wire base), y) := by
            rw [Link.toBase, parsed]
            rfl
          dsimp only at done ⊢
          rw [perform_bind, linked] at done ⊢
          obtain ⟨t, w₁, answered, stored⟩ := bind_ok _ _ w v () done
          obtain ⟨u₁, answered', files⟩ := Endpoint.call_again base (Account.logIn l) w w₁ u silent t answered
          obtain ⟨result, x, asked, kept, traffic⟩ := asks_once base (Account.logIn l) w
          rw [answered, Prod.mk.injEq] at asked
          obtain ⟨rfl, rfl⟩ := asked
          obtain ⟨sent, r, given, read⟩ : ∃ sent r, w.server w.exchanges (.sent sent) = .ok r ∧
              (Account.logIn l).read r = .ok t := by
            rcases traffic with ⟨_, f, failed⟩ | ⟨sent, _, _, given⟩
            · cases failed
            · exact ⟨sent, given t rfl⟩
          have found := Profile.load_again s.configPath w w₁ kept p before
          have found' := Profile.load_again s.configPath u u₁ files p' before'
          dsimp only at stored ⊢
          rw [perform_bind, found] at stored
          obtain ⟨_, w₂, saved, told⟩ := bind_ok _ _ w₁ v () stored
          obtain ⟨clean, back⟩ := Profile.saved_back s.configPath (loggedIn l t p) w₁ w₂ saved
          rw [← files] at takes
          obtain ⟨u₂, saved', back', _⟩ := Profile.saved_loaded s.configPath (loggedIn l t p') u₁ clean (.inl takes)
          rw [inform, perform_modify, Prod.mk.injEq] at told
          obtain ⟨_, rfl⟩ := told
          have shown (y : World) (line : String) :=
            Profile.load_again s.configPath y { y with output := line :: y.output } rfl
          refine ⟨.sent sent, r, t, _, given, read, ?_, shown w₂ _ _ back,
            shown u₂ ("Successfully logged in as " ++ l.username ++ "\n") _ back'⟩
          rw [perform_bind, answered']
          dsimp only
          rw [perform_bind, found']
          dsimp only
          rw [perform_bind, saved']
          rfl

-- What `whoami` says.
def Tells (s : Settings) (v : World) (line : String) : Prop :=
  ∃ u, (Command.whoami.run s).perform v = (.ok 0, u) ∧ u.output = (line ++ "\n") :: v.output

theorem stored_told (s : Settings) (v : World) (q : Profile)
    (held : (Profile.load s.configPath).perform v = (.ok q, v)) : Tells s v (identity q) := by
  refine ⟨{ v with output := (identity q ++ "\n") :: v.output }, ?_, rfl⟩
  rw [Command.run, well, perform_bind, perform_bind, held]
  rfl

-- How somebody who is logged in is shown, with an API key if there is one in the profile.
def presented (name : String) (p : Profile) : String :=
  "The user, " ++ name ++ ", is currently logged in" ++
    (if p.privateKey = "" then "" else " using API key " ++ p.redactedKey)

theorem word_presented (name word : String) (t : Tokens) (p : Profile) (user : t.access ≠ "") :
    identity (loggedIn (.password name word) t p) = presented name p := by
  have signedIn : (loggedIn (.password name word) t p).isLoggedIn = true := bne_iff_ne.mpr user
  have key : (loggedIn (.password name word) t p).privateKey = p.privateKey := rfl
  have masked : (loggedIn (.password name word) t p).redactedKey = p.redactedKey := rfl
  have who : (loggedIn (.password name word) t p).username = name := rfl
  simp only [identity, signedIn, key, masked, who, presented]
  by_cases keyless : p.privateKey = ""
  · rw [if_pos keyless, if_pos keyless, String.append_empty]
    rfl
  · rw [if_neg keyless, if_neg keyless, ← String.append_assoc]
    rfl

theorem logins_agree (l : Login) (t : Tokens) (p p' : Profile) :
    loggedIn l t p' = loggedIn l t p ↔ (∃ name key, l = .apiKey name key) ∨
      p'.publicKey = p.publicKey ∧ p'.privateKey = p.privateKey := by
  cases l with
  | apiKey name key => exact ⟨fun _ => .inl ⟨name, key, rfl⟩, fun _ => rfl⟩
  | password name word => simp [loggedIn]

-- Two users before, and the same login after them: the profiles have the same name and the same tokens, but
-- a login with a password leaves the API keys that were there, and `whoami` goes on showing them.
theorem login_keeps_keys (e : Environment) (args : List String) (i : Invocation) (l : Login) (s : Settings)
    (w w' : World) (p p' : Profile) (parsed : Invocation.parse args = .ok i) (command : i.command = .login l)
    (loaded : ((Settings.load e i.overrides).perform w).1 = .ok s)
    (loaded' : ((Settings.load e i.overrides).perform w').1 = .ok s) (silent : Silent w w')
    (before : (Profile.load s.configPath).perform w = (.ok p, w))
    (before' : (Profile.load s.configPath).perform w' = (.ok p', w')) (takes : w'.files.Takes s.configPath)
    (ends : ((run e args).perform w).1 = .ok 0) :
    ∃ v v' q q' x r t, (run e args).perform w = (.ok 0, v) ∧ (run e args).perform w' = (.ok 0, v') ∧
      (Profile.load s.configPath).perform v = (.ok q, v) ∧ (Profile.load s.configPath).perform v' = (.ok q', v') ∧
      w.server w.exchanges x = .ok r ∧ (Account.logIn (intended l)).read r = .ok t ∧
      (∀ z ∈ [q, q'], z.username = (intended l).username ∧ z.accessToken = t.access ∧
        z.refreshToken = t.refresh.getD "") ∧
      (q' = q ↔ (∃ name key, intended l = .apiKey name key) ∨
        p'.publicKey = p.publicKey ∧ p'.privateKey = p.privateKey) ∧
      ∀ name word, intended l = .password name word → t.access ≠ "" →
        Tells s v (presented name p) ∧ Tells s v' (presented name p') := by
  obtain ⟨u, result, x, still, performed, code, files⟩ := login_runs e args i l s w parsed command loaded
  obtain ⟨u', result', x', still', performed', code', files'⟩ := login_runs e args i l s w' parsed command loaded'
  have alike : Silent u u' :=
    ⟨still'.2.1.trans (silent.1.trans still.2.1.symm), still'.1.trans (silent.2.trans still.1.symm)⟩
  have found := Profile.load_again s.configPath w u still.2.2 p before
  have found' := Profile.load_again s.configPath w' u' still'.2.2 p' before'
  rw [code.mp ends] at performed
  rw [← still'.2.2] at takes
  obtain ⟨asked, r, t, y, given, read, again, held, held'⟩ :=
    login_again s (intended l) u x u' p p' alike found found' takes performed
  rw [performed', Prod.mk.injEq] at again
  obtain ⟨done, rfl⟩ := again
  have stored := Profile.load_again s.configPath x ((run e args).perform w).2 files _ held
  have stored' := Profile.load_again s.configPath x' ((run e args).perform w').2 files' _ held'
  rw [still.1, still.2.1] at given
  refine ⟨_, _, _, _, asked, r, t, Prod.ext ends rfl, Prod.ext (code'.mpr done) rfl, stored, stored', given, read, ?_,
    logins_agree (intended l) t p p', ?_⟩
  · intro z member
    simp only [List.mem_cons, List.not_mem_nil, or_false] at member
    rcases member with rfl | rfl <;> cases intended l <;> exact ⟨rfl, rfl, rfl⟩
  · intro name word password user
    rw [password] at stored stored'
    have told := stored_told s _ _ stored
    have told' := stored_told s _ _ stored'
    rw [word_presented name word t p user] at told
    rw [word_presented name word t p' user] at told'
    exact ⟨told, told'⟩

-- A machine on which somebody was logged in with an API key.
def keyHolder : Profile := ⟨"pk", "pk", "aaaa-bbbb-cccc", "old", "older"⟩

def lent (server : Server) : World := World.start ⟨.folder [("p", .file keyHolder.fileText 0)], []⟩ server

theorem lent_read (server : Server) : (lent server).files.read ⟨1, ["p"]⟩ = .ok keyHolder.fileText := by
  have narrow : ¬maxPathSize < (Text.utf8 (Path.toString ⟨1, ["p"]⟩)).length := by decide
  have short : ¬maxNameSize < (Text.utf8 "p").length := by decide
  apply FileTree.spot_read _ _ ["p"] _ 0
  rw [FileTree.locate, if_neg narrow]
  simp [lent, World.start, Path.isAbsolute, Node.walk, Node.get?, Node.child?, short, Except.mapError]

-- The key of somebody else is shown to the user who logs in with a password.
theorem login_keeps_keys_lent : ∃ s v, (run ⟨[], []⟩ loginArgs).perform (lent (welcome "a").server) = (.ok 0, v) ∧
    Tells s v "The user, me, is currently logged in using API key ****-****-cccc" := by
  let l : Login := .password "me" "pw"
  let i : Invocation := ⟨none, some "/p", none, false, .login l⟩
  let s : Settings := ⟨Settings.defaultBaseUrl, ⟨1, ["p"]⟩, 8, 30.0, "WARNING", false⟩
  have parsed : Invocation.parse loginArgs = .ok i := rfl
  have loaded : ((Settings.load ⟨[], []⟩ i.overrides).perform (welcome "a")).1 = .ok s := rfl
  have loaded' : ((Settings.load ⟨[], []⟩ i.overrides).perform (lent (welcome "a").server)).1 = .ok s := rfl
  have there := lent_read (welcome "a").server
  have before' := Profile.load_written ⟨1, ["p"]⟩ _ keyHolder (by decide) there
  have takes := FileTree.file_takes _ ⟨1, ["p"]⟩ _ (by decide) there
  obtain ⟨fault, absent, short⟩ := welcome_writable.absent
  have before := Profile.load_absent ⟨1, ["p"]⟩ (welcome "a") (by decide) fault absent short
  have ends : ((run ⟨[], []⟩ loginArgs).perform (welcome "a")).1 = .ok 0 := by
    obtain ⟨u, result, x, still, performed, code, _⟩ := login_runs ⟨[], []⟩ loginArgs i l s _ parsed rfl loaded
    have reaches := welcome_reaches s rfl u _ rfl fun x => by rw [still.1]; rfl
    obtain ⟨y, goes⟩ := first_login s l u rfl _ reaches _ (welcome_read l "a") (still.2.2 ▸ welcome_writable)
    rw [show intended l = l from rfl, goes, Prod.mk.injEq] at performed
    exact code.mpr performed.1.symm
  obtain ⟨v, v', q, q', x, r, t, _, ended, _, _, answered, read, _, _, told⟩ := login_keeps_keys ⟨[], []⟩ loginArgs i l s
    (welcome "a") (lent (welcome "a").server) .empty keyHolder parsed rfl loaded loaded' ⟨rfl, rfl⟩ before before' takes
    ends
  obtain rfl := Except.ok.inj answered
  obtain rfl := Except.ok.inj ((welcome_read (intended l) "a").symm.trans read)
  exact ⟨s, v', ended, (told "me" "pw" rfl (by decide)).2⟩

end CommandLine

end HostingAdmin
