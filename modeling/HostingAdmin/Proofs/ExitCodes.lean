import HostingAdmin.Proofs.CommandSteps
import HostingAdmin.Proofs.SettingsFailures
import HostingAdmin.Proofs.TransferFailures

set_option autoImplicit false

namespace HostingAdmin.CommandLine

open HostingAdmin.Action

section

variable {server : Server} {files : FileTree} {s : Settings} {c : Command} {base : Url} {place : AppPlace} {app : String}
  (linked : Link.toBase s.baseUrl = .ok (.wire base)) (same : c.secretPlace? = some place)
  (reaches : Resolved server place app) (send : Sender) (sends : Sends server files s base send)

include linked same reaches sends

theorem secrets_ends (reads : c.readsListing = true) :
    Ends (During server files s.configPath)
      (fun secrets => ∃ r, Given server r ∧ (Secret.list place.group app).read r = .ok secrets)
      (Fails server files s c) ((Secret.list place.group app).call send) := by
  have asked := asked_ends linked (Command.secret_place c place same) send sends (Secret.list place.group app).request
    (.secrets place app same reaches) rfl
  exact call_ends send _ asked fun r f given failed => listed_fails reads f (listing_listed server _ _ _ r given f failed)

theorem secret_ends (reads : c.readsListing = true) (changes : c.changesSecret = true) (sel : Secret.Selector) :
    Ends (During server files s.configPath) (fun x => Chooses server place.group app c x.id) (Fails server files s c)
      (Secret.find send place.group app sel) := by
  refine ends_bind _ _ (secrets_ends linked same reaches send sends reads) ?_
  rintro secrets ⟨r, given, read⟩
  split
  · rename_i x found
    exact ends_pure x (.listed c changes r secrets x given read (List.mem_of_find?_eq_some found))
  · exact ends_throw _ (.inl (.expected _ rfl))

end

section

variable {server : Server} {files : FileTree} {s : Settings} {c : Command}

theorem well_judged (a : Action Unit) (w : World) (judged : Judged Any (Fails server files s c) (a.perform w).1) :
    Judged (fun code => code = 0 ∨ code = 1) (Fails server files s c) ((well a).perform w).1 := by
  rw [well, perform_bind]
  rcases performed : a.perform w with ⟨f | ⟨⟩, v⟩
  · rw [performed] at judged
    refine ⟨?_, ?_⟩
    · rintro code same
      cases same
    · rintro g same
      cases same
      exact judged.2 f rfl
  · refine ⟨?_, ?_⟩
    · rintro code same
      cases same
      exact .inl rfl
    · rintro g same
      cases same

theorem each_ends {α : Type} (xs : List α) (line : α → String) :
    Ends (During server files s.configPath) Any (Fails server files s c) (xs.forM fun x => inform (line x)) :=
  ends_each xs _ fun x _ => inform_ends (during_sees server files s.configPath) (line x)

theorem session_judged {α : Type} (Q : α → Prop) (body : Sender → Action α) (place : AppPlace)
    (same : c.place? = some place) (standing : files.Standing)
    (works : ∀ base send, Link.toBase s.baseUrl = .ok (.wire base) → Sends server files s base send →
      Ends (During server files s.configPath) Q (Fails server files s c) (body send))
    (w : World) (found : Finds server files w) :
    Judged Q (Fails server files s c) ((openSession s >>= body).perform w).1 := by
  obtain ⟨online, reads, _⟩ := Command.place_online c place same
  have checked : ∀ p : Profile, Ends (Finds server files) (fun _ => p.isLoggedIn = true) (Fails server files s c)
      (ofExcept id p.requireLogin) := by
    intro p
    rw [Profile.requireLogin]
    split
    · rename_i loggedIn
      exact ends_pure _ loggedIn
    · exact ends_throw _ (.inl (.expected _ rfl))
  simp only [openSession, bind_assoc, pure_bind]
  refine judged_bind _ _ (read_ends reads) (fun p u read found => ?_) w found
  refine judged_bind _ _ (checked p) (fun _ v loggedIn found => ?_) u found
  refine judged_bind _ _ (base_ends online) ?_ v found
  rintro _ x ⟨base, rfl, linked⟩ found
  have stored : Stored files s.configPath p := by
    rcases read with rfl | stored
    · cases loggedIn
    · exact stored
  have during : During server files s.configPath { x with profile := p } :=
    ⟨found.1, found.2 ▸ FileTree.linked_stay x.files, found.2 ▸ standing,
      ⟨.stored p stored (.inl rfl), .stored p stored (.inr rfl)⟩⟩
  have sends : Sends server files s base (Session.Channel.send ⟨.wire base, Profile.save s.configPath⟩) :=
    Session.send_ends (during_houses server files s.configPath) (fun r t given read _ => .granted r t given read) base _
      fun q _ => save_ends (during_roomy server files s.configPath) (during_sees server files s.configPath) s.configPath q
  exact (works base _ linked sends _ during).2

theorem placed_judged {α : Type} (Q : α → Prop) (rest : Sender → String → Action α) (place : AppPlace)
    (same : c.place? = some place) (standing : files.Standing)
    (works : ∀ base send app, Link.toBase s.baseUrl = .ok (.wire base) → Sends server files s base send →
      Resolved server place app → Ends (During server files s.configPath) Q (Fails server files s c) (rest send app))
    (w : World) (found : Finds server files w) :
    Judged Q (Fails server files s c) ((do
      let send ← openSession s
      let app ← resolveApp send place
      rest send app).perform w).1 := by
  refine session_judged Q _ place same standing (fun base send linked sends => ?_) w found
  exact ends_bind _ _ (located_ends linked same send sends) fun app reaches => works base send app linked sends reaches

theorem confirmed_ends (d : Diff) (yes : Bool) :
    Ends (During server files s.configPath) Any (Fails server files s c) (isConfirmed d yes) := by
  rw [isConfirmed]
  split
  · exact ends_pure _ trivial
  · exact confirm_ends (during_sees server files s.configPath) _

theorem reported_ends (line : String) (code : Nat) (fine : code = 0 ∨ code = 1) :
    Ends (During server files s.configPath) (fun code => code = 0 ∨ code = 1) (Fails server files s c) (do
      inform line
      return code) :=
  ends_bind _ _ (inform_ends (during_sees server files s.configPath) line) fun _ _ => ends_pure code fine

end

theorem login_usual (l : Login) (r : Response) (f : Failure) (failed : (Account.logIn l).read r = .error f) : Usual f := by
  simp only [Account.logIn] at failed
  split at failed
  · cases parsed : Tokens.parse r.body with
    | error fault =>
        rw [parsed] at failed
        cases failed
        exact .expected _ rfl
    | ok t =>
        rw [parsed] at failed
        cases failed
  · cases failed
    exact .expected _ rfl

theorem intended_id (sel : Secret.Selector) (id : String) (meant : intendedSecret sel = .id id) : sel = .id id := by
  cases sel with
  | id text =>
      rw [intendedSecret] at meant
      split at meant
      · cases meant
      · exact meant
  | name text => cases meant
  | nothing => cases meant

section

variable {server : Server} {files : FileTree} (s : Settings) (w : World) (found : Finds server files w)

include found

theorem login_judged (l : Login) : Judged Any (Fails server files s (.login l)) ((logIn s (intended l)).perform w).1 := by
  have asked : ∀ base, Link.toBase s.baseUrl = .ok (.wire base) → Ends (Finds server files) Any
      (Fails server files s (.login l)) ((Account.logIn (intended l)).call (Link.send (.wire base))) := by
    intro base linked
    have sends : Ends (Finds server files) (Given server) (Fails server files s (.login l))
        ((Link.wire base).send (Account.logIn (intended l)).request) := by
      refine ends_weaken _ (link_ends (finds_sees server files) base _) (fun _ fine => fine) (fun f unsent => ?_)
      cases unsent with
      | address fault bad => exact .inr (.address base _ fault linked (.login l rfl) bad)
      | header text found => cases found
      | unanswered f unanswered => exact unanswered_fails rfl f unanswered
    exact ends_weaken _ (call_ends _ _ sends fun r f _ failed => .inl (login_usual _ r f failed)) (fun _ _ => trivial)
      fun _ fails => fails
  have stored : ∀ old tokens, Ends (Serves server) Any (Fails server files s (.login l)) (do
      Profile.save s.configPath (loggedIn (intended l) tokens old)
      inform ("Successfully logged in as " ++ (intended l).username)) := by
    intro old tokens
    have saved : Ends (Serves server) Any (Fails server files s (.login l))
        (Profile.save s.configPath (loggedIn (intended l) tokens old)) :=
      ends_weaken _ (save_ends (serves_roomy server) (serves_sees server) _ _) (fun _ fine => fine) (unreached_fails rfl)
    exact ends_bind _ _ saved fun _ _ => inform_ends (serves_sees server) _
  have admitted : Judged Any (Fails server files s (.login l)) ((do
      let link ← ofExcept id (Link.toBase s.baseUrl)
      let tokens ← (Account.logIn (intended l)).call link.send
      let old ← Profile.load s.configPath
      Profile.save s.configPath (loggedIn (intended l) tokens old)
      inform ("Successfully logged in as " ++ (intended l).username)).perform w).1 := by
    refine judged_bind _ _ (base_ends rfl) ?_ w found
    rintro _ u ⟨base, rfl, linked⟩ found
    refine judged_bind _ _ (asked base linked) (fun tokens v _ found => ?_) u found
    exact judged_bind _ _ (read_ends rfl) (fun old x _ found => (stored old tokens x found.1).2) v found
  rw [logIn]
  cases (intended l).fault? with
  | some fault =>
      have stopped : Ends (Finds server files) Any (Fails server files s (.login l))
          (throw (.credentials fault) : Action Unit) := ends_throw _ (.inl (.expected _ rfl))
      exact (stopped w found).2
  | none => exact admitted

theorem command_judged (standing : files.Standing) (c : Command) :
    Judged (fun code => code = 0 ∨ code = 1) (Fails server files s c) ((c.run s).perform w).1 := by
  have sees := during_sees server files s.configPath
  have told : ∀ {c} line, Ends (During server files s.configPath) Any (Fails server files s c) (inform line) :=
    fun line => inform_ends sees line
  cases c with
  | login l => exact well_judged _ w (login_judged s w found l)
  | logout =>
      have cleared : Ends (Serves server) Any (Fails server files s .logout) (Profile.clear s.configPath) :=
        ends_weaken _ (save_ends (serves_roomy server) (serves_sees server) _ .empty) (fun _ fine => fine)
          (unreached_fails rfl)
      exact well_judged _ w (ends_bind _ _ cleared (fun _ _ => inform_ends (serves_sees server) _) w found.1).2
  | whoami =>
      refine well_judged _ w (judged_bind _ _ (read_ends rfl) (fun p v _ found => ?_) w found)
      exact (inform_ends (serves_sees server) _ v found.1).2
  | listSecrets place =>
      refine well_judged _ w (placed_judged Any _ place rfl standing (fun base send app linked sends reaches => ?_) w found)
      refine ends_bind _ _ (secrets_ends linked rfl reaches send sends rfl) (fun secrets _ => ?_)
      split
      · exact told _
      · exact each_ends secrets _
  | addSecret place name value =>
      refine well_judged _ w (placed_judged Any _ place rfl standing (fun base send app linked sends reaches => ?_) w found)
      refine ends_bind (Q := Any) _ _ ?_ fun _ _ => told _
      exact told_ends linked rfl send sends _ _ _ (.secrets place app rfl reaches) rfl
  | updateSecret place sel value =>
      refine well_judged _ w (placed_judged Any _ place rfl standing (fun base send app linked sends reaches => ?_) w found)
      refine ends_bind (Q := Any) _ _ ?_ (fun _ _ => told _)
      refine ends_bind _ _ (secret_ends linked rfl reaches send sends rfl rfl _) (fun secret chosen => ?_)
      exact told_ends linked rfl send sends _ _ _ (.secret place app secret.id rfl reaches chosen) rfl
  | removeSecret place sel =>
      refine well_judged _ w (placed_judged Any _ place rfl standing (fun base send app linked sends reaches => ?_) w found)
      refine ends_bind (Q := Any) _ _ ?_ (fun _ _ => told _)
      unfold Secret.remove
      split
      · rename_i id meant
        have same : sel = .id id := intended_id sel id meant
        subst same
        exact told_ends linked rfl send sends _ _ _ (.secret place app id rfl reaches (.named place id)) rfl
      · refine ends_bind _ _ (secret_ends linked rfl reaches send sends rfl rfl _) (fun secret chosen => ?_)
        exact told_ends linked rfl send sends _ _ _ (.secret place app secret.id rfl reaches chosen) rfl
  | listAssets place =>
      refine well_judged _ w (placed_judged Any _ place rfl standing (fun base send app linked sends reaches => ?_) w found)
      exact ends_bind _ _ (assets_ends linked rfl reaches send sends rfl) fun assets _ => each_ends assets _
  | diffAssets place folder strategy =>
      refine well_judged _ w (placed_judged Any _ place rfl standing (fun base send app linked sends reaches => ?_) w found)
      refine ends_bind _ _ (diff_ends linked rfl reaches send sends rfl _ strategy) (fun d _ => ?_)
      split
      · exact told _
      · exact each_ends d.lines id
  | importAssets place folder strategy resetCache wish yes =>
      refine placed_judged _ _ place rfl standing (fun base send app linked sends reaches => ?_) w found
      refine ends_bind _ _ (diff_ends linked rfl reaches send sends rfl _ strategy) (fun d _ => ?_)
      split
      · exact reported_ends identical 0 (.inl rfl)
      · refine ends_bind _ _ (each_ends d.lines id) (fun _ _ => ?_)
        refine ends_bind _ _ (confirmed_ends d yes) (fun agreed _ => ?_)
        split
        · exact reported_ends "Import cancelled" 0 (.inl rfl)
        · have imported := import_ends linked rfl reaches send sends
            (c := .importAssets place folder strategy resetCache wish yes) rfl
            (Manifest.filesFolder (Path.ofString folder)) d resetCache (workerCount s wish) fun few => .workerCount few
          refine ends_bind _ _ (ends_outcome _ imported) (fun outcome judged => ?_)
          split
          · exact reported_ends "Successfully imported hosting assets" 0 (.inl rfl)
          · exact ends_bind _ _ (complain_ends sees _) fun _ _ => ends_pure _ (.inr rfl)
          · rename_i f _
            exact ends_throw f (judged.2 f rfl)
  | exportAssets place folder wish =>
      refine well_judged _ w (placed_judged Any _ place rfl standing (fun base send app linked sends reaches => ?_) w found)
      exact ends_bind _ _ (export_ends linked reaches send sends _) fun assets _ => told _

end

theorem settings_within {R : World → World → Prop} (passage : Passage R) (e : Environment)
    (overrides : Members Json) : Within R (Settings.load e overrides) := by
  have values : Within R (Settings.fileValues e) := by
    rw [Settings.fileValues]
    split
    · exact within_pure passage _
    · refine within_bind passage _ _ (within_except passage id _) (fun path => ?_)
      refine within_bind passage _ _ (Session.exists_within passage path) (fun there => ?_)
      refine within_bind passage _ _ (Session.folder_within passage path) (fun folder => ?_)
      split
      · refine within_bind passage _ _ (within_load passage path) (fun body => ?_)
        split
        · exact within_throw passage _
        · exact within_pure passage _
      · exact within_pure passage _
  exact within_bind passage _ _ values fun file => within_except passage id _

-- A failure that leaves the program: settings that cannot be read, or what a command
-- does not show.
inductive Leaves (e : Environment) (i : Invocation) (w : World) (f : Failure) : Prop where
  | settings (unread : Settings.Unread e i.overrides w f)
  | command (s : Settings) (loaded : ((Settings.load e i.overrides).perform w).1 = .ok s)
    (escape : Escape w.server w.files s i.command f)

def exitCodes : List Nat := [0, failed, interrupted]

section

variable {server : Server} {files : FileTree} {P : Failure → Prop}

theorem coded_ends {I : World → Prop} (a : Action Unit) (code : Nat) (known : code ∈ exitCodes)
    (inside : Ends I Any P a) :
    Ends I (· ∈ exitCodes) P (do
      a
      return code) :=
  ends_bind _ _ inside fun _ _ => ends_pure code known

-- Failures that a user can cause or mend are shown, and so is an interrupt.
theorem command_shown (s : Settings) (c : Command) (w : World) (found : Finds server files w)
    (standing : files.Standing) :
    Judged (· ∈ exitCodes) (Escape server files s c) ((do
      match ← outcome (c.run s) with
      | .ok code => return code
      | .error .interrupted =>
        complain "interrupted"
        return interrupted
      | .error f =>
        if f.isExpected then
          Action.record .debug "Command failed" [("command", .str c.word), ("error", .str f.message)]
          complain f.message
          return failed
        else throw f).perform w).1 := by
  have judged := command_judged s w found standing c
  rw [perform_bind, perform_outcome]
  dsimp only
  generalize (((c.run s).perform w).1) = r at judged
  generalize (((c.run s).perform w).2) = v
  cases r with
  | ok code =>
      have known : code ∈ exitCodes := by
        rcases judged.1 code rfl with rfl | rfl <;> decide
      exact (ends_pure (I := Any) code known v trivial).2
  | error f =>
      have fails := fails_split server files s c f (judged.2 f rfl)
      clear judged
      have sees := finds_sees v.server v.files
      have here : Finds v.server v.files v := ⟨rfl, rfl⟩
      split
      · rename_i same
        cases same
      · exact (coded_ends _ interrupted (by decide) (complain_ends sees _) v here).2
      · rename_i other g unlike same
        cases same
        split
        · refine (ends_bind _ _ (record_ends sees _ _ _) (fun _ _ => ?_) v here).2
          exact coded_ends _ failed (by decide) (complain_ends sees _)
        · rename_i hidden
          rcases fails with shown | rfl | escape
          · exact (hidden shown).elim
          · exact (unlike rfl).elim
          · exact (ends_throw (I := Any) f escape v trivial).2

end

theorem started_judged {Q : Nat → Prop} {P : Failure → Prop} {server : Server} {files : FileTree} (s : Settings)
    (c : Command) (work : Action Nat) (worked : ∀ v, Finds server files v → Judged Q P (work.perform v).1) (w : World)
    (found : Finds server files w) :
    Judged Q P ((do
      configureLog s.logLevel s.jsonLogs
      setCorrelation ""
      let _ ← correlation
      record .debug "Running command" [("command", .str c.word)]
      work).perform w).1 := by
  have sees := finds_sees server files
  have configured : Ends (Finds server files) Any P (configureLog s.logLevel s.jsonLogs) :=
    ends_modify _ fun v holds => holds
  have anonymous : Ends (Finds server files) Any P (setCorrelation "") := ends_modify _ fun v holds => holds
  refine judged_bind _ _ configured (fun _ v1 _ first => ?_) w found
  refine judged_bind _ _ anonymous (fun _ v2 _ second => ?_) v1 first
  refine judged_bind _ _ (correlation_ends sees) (fun _ v3 _ third => ?_) v2 second
  exact judged_bind _ _ (record_ends sees _ _ _) (fun _ v4 _ fourth => worked v4 fourth) v3 third

theorem invocation_judged (e : Environment) (i : Invocation) (w : World) (standing : w.files.Standing) :
    Judged (· ∈ exitCodes) (Leaves e i w) ((i.run e).perform w).1 := by
  have beside := settings_within beside_passage e i.overrides w
  rw [Invocation.run, perform_bind, perform_outcome]
  rcases loaded : (Settings.load e i.overrides).perform w with ⟨f | s, u⟩
  · have here : Finds u.server u.files u := ⟨rfl, rfl⟩
    dsimp only
    split
    · exact (coded_ends _ failed (by decide) (complain_ends (finds_sees u.server u.files) _) u here).2
    · rename_i g unlike same
      cases same
      rcases Settings.load_cases e i.overrides w f (by rw [loaded]) with ⟨fault, rfl⟩ | unread
      · exact (unlike fault rfl).elim
      · exact (ends_throw (I := Any) f (.settings unread) u trivial).2
    · rename_i same
      cases same
  · rw [loaded] at beside
    refine started_judged s i.command _ (fun v found => ?_) u ⟨beside.server, beside.files⟩
    obtain ⟨fine, fails⟩ := command_shown s i.command v found standing
    exact ⟨fine, fun f failed => .command s (by rw [loaded]) (fails f failed)⟩

end HostingAdmin.CommandLine

namespace HostingAdmin

-- Octets that every JSON reader reads alike: neither are there half pairs, nor is what
-- is opened too much for any of them.
def Json.ReadAlike (body : Bytes) : Prop :=
  ∀ cs, Json.decode? body = some cs → Json.readChars .strict cs = Json.readChars .free cs ∧
    ((Json.readChars .free cs).toBool = true ∨ cs.countP (fun c => c = '[' || c = '\x7b') ≤ 200)

def Token.ReadAlike (token : String) : Prop :=
  ∀ front payload rest bytes, Token.segments token = front :: payload :: rest →
    Base64.decode? (Base64.pad payload) = some bytes → Json.ReadAlike bytes

-- An answer that is in one of the three charsets, as far as it names any.
def Response.Lettered (r : Response) : Prop :=
  ∀ value, r.header? "Content-Type" = some value → "charset".toList <:+: value.toList.map Char.toLower →
    (Charset.ofContentType? value).isSome = true

-- Where the program meets no limit of its surroundings: it is started in a folder, and
-- any JSON reader and any decoder of text would do for what it reads.
structure Ordinary (w : World) : Prop where
  standing : w.files.Standing
  bodies : ∀ r, Given w.server r → Json.ReadAlike r.body
  texts : ∀ r, Given w.server r → r.Lettered
  granted : ∀ r t, Given w.server r → Tokens.parse r.body = .ok t → Token.ReadAlike t.access
  stored : ∀ p x, Stored w.files p x → Token.ReadAlike x.accessToken

end HostingAdmin

namespace HostingAdmin.CommandLine

open HostingAdmin.Action

def bareMachine : World := World.start ⟨.folder [], []⟩ fun _ _ => .ok ⟨200, [], []⟩

def bareEnvironment : Environment := ⟨[("HOME", "/home")], []⟩

def bareProfile : Path := ⟨1, ["home", ".config", "realm-cli", "profile.json"]⟩

def bareSettings : Settings := ⟨Settings.defaultBaseUrl, bareProfile, 8, 30.0, "WARNING", false⟩

theorem bare_files (p : Path) (body : Bytes) : bareMachine.files.read p ≠ .ok body := by
  intro there
  obtain ⟨spot, modified, located⟩ := FileTree.read_spot _ p body there
  have found := Node.walk_there _ _ _ _ _ spot _ ((FileTree.locate_walk _ true p _).mp located).2
  cases spot <;> cases found

theorem bare_ordinary : Ordinary bareMachine where
  standing := ⟨[], rfl⟩
  bodies := by
    rintro _ ⟨_, _, ⟨⟩⟩ cs decoded
    cases decoded
    exact ⟨rfl, .inr (by decide)⟩
  texts := by
    rintro _ ⟨_, _, ⟨⟩⟩ value named
    cases named
  granted := by
    rintro _ t ⟨_, _, ⟨⟩⟩ parsed
    cases parsed
  stored := by
    rintro p x ⟨body, there, _⟩
    exact (bare_files p body there).elim

theorem bare_absent : bareMachine.files.node bareProfile = .error ⟨.notFound, bareProfile.toString⟩ := by
  simp +decide [bareProfile, FileTree.node, FileTree.locate, Node.walk, Node.get?, bareMachine, World.start,
    Except.mapError]
  rfl

theorem whoami_answers (w : World) (found : Finds bareMachine.server bareMachine.files w) :
    ((Command.whoami.run bareSettings).perform w).1 = .ok 0 := by
  have absent := bare_absent
  rw [← found.2] at absent
  have loaded := Profile.load_absent bareProfile w (by decide) _ absent (by decide)
  have place : bareSettings.configPath = bareProfile := rfl
  simp only [Command.run, well, perform_bind, place, loaded]
  rfl

end HostingAdmin.CommandLine
