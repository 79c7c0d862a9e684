import HostingAdmin.Proofs.Visits

set_option autoImplicit false

namespace HostingAdmin

theorem FileTree.saved_named (t u v : FileTree) (p : Path) (body : Bytes) (now : Int)
    (made : t.makeFolders p.parent = .ok u) (written : u.write p body now = .ok v) : p.parts ≠ [] := by
  intro top
  have same : p.parent = p := by
    rw [Path.parent, top]
    exact congrArg (Path.mk p.slashes) top.symm
  rw [same] at made
  rcases folders_cases t u p made with (one | ⟨rfl, folder⟩) | ⟨named, _⟩
  · obtain ⟨spot, located, _⟩ := folder_made t u p one
    have walked := ((locate_walk t false p _).mp located).2
    rw [top, Node.walk] at walked
    split at walked
    · cases walked
    · cases walked
  · rw [isFolder, node] at folder
    rw [write] at written
    cases located : u.locate true p with
    | error fault =>
        rw [located] at written
        cases written
    | ok s =>
        rw [located] at written folder
        cases s with
        | vacant at_ => cases folder
        | node at_ n =>
            cases n with
            | folder entries => cases written
            | file old modified => cases folder
            | link target => cases folder
  · exact named top

open HostingAdmin.Action

namespace Profile

theorem save_cases (cfg : Path) (q : Profile) (w : World) : ∃ result v, (save cfg q).perform w = (result, v) ∧
    ((result = .ok () ∧ cfg.parts ≠ [] ∧ v.files.read cfg = .ok q.fileText) ∨
      (∃ f, result = .error f) ∧
        (hasNull cfg = false → ∀ body, v.files.read cfg = .ok body → w.files.read cfg = .ok body)) := by
  rw [save, perform_bind]
  rcases made : (makeFolders cfg.parent).perform w with ⟨f | ⟨⟩, u⟩
  · have same : u = w := by
      rw [makeFolders, Hosting.change_performed] at made
      split at made
      · cases made
      · cases made
        rfl
    exact ⟨.error f, u, rfl, .inr ⟨⟨f, rfl⟩, fun _ body there => same ▸ there⟩⟩
  · have folders := (Hosting.change_done cfg.parent (fun t => t.makeFolders cfg.parent) w u made).2
    dsimp only
    rw [perform_bind]
    rcases stored : (store cfg q.fileText).perform u with ⟨f | ⟨⟩, x⟩
    · refine ⟨.error f, x, rfl, .inr ⟨⟨f, rfl⟩, fun clean body there => ?_⟩⟩
      rw [Hosting.store_performed, Hosting.change_performed] at stored
      split at stored
      · cases stored
      · rename_i g failed
        cases stored
        obtain ⟨files, written, _⟩ := u.files.write_read cfg body q.fileText (nanoseconds u.clock) there
        rw [Hosting.Retrieval.changed, clean, written] at failed
        cases failed
    · have performed := stored
      rw [Hosting.store_performed] at performed
      obtain ⟨_, written⟩ := Hosting.change_done cfg _ u x performed
      have named := FileTree.saved_named w.files u.files x.files cfg q.fileText _ folders written
      have held := FileTree.written_read u.files x.files cfg q.fileText _ named written
      obtain ⟨y, recorded, calm⟩ := record_within calm_passage .debug "Profile written" [("path", .str cfg.toString)] x
      exact ⟨.ok (), y, recorded, .inl ⟨rfl, named, by rw [calm.1]; exact held⟩⟩

theorem save_succeeds (cfg : Path) (q : Profile) (w : World) (clean : hasNull cfg = false) (files : FileTree)
    (folders : w.files.makeFolders cfg.parent = .ok files)
    (writable : ∀ now, ∃ t, files.write cfg q.fileText now = .ok t) : ∃ v, (save cfg q).perform w = (.ok (), v) := by
  have made := Hosting.change_succeeds cfg.parent (fun t => t.makeFolders cfg.parent) w files (parent_clean cfg clean)
    folders
  obtain ⟨t, written⟩ := writable (nanoseconds w.clock)
  have stored := Hosting.change_succeeds cfg (fun t => t.write cfg q.fileText (nanoseconds w.clock)) { w with files } t
    clean written
  obtain ⟨v, recorded⟩ := record_succeeds .debug "Profile written" [("path", .str cfg.toString)]
    { w with files := t }
  refine ⟨v, ?_⟩
  rw [save, makeFolders, perform_bind, made]
  dsimp only
  rw [perform_bind, Hosting.store_performed, stored]
  exact recorded

end Profile

namespace CommandLine

open Exchange Session

-- What a login comes to: a profile with the tokens that it was answered with, or a failure that leaves
-- what can be read under the path.
inductive Admits (s : Settings) (l : Login) (w v : World) : Except Failure Unit → Prop where
  | refused (f : Failure) (kept : hasNull s.configPath = false → ∀ body, v.files.read s.configPath = .ok body →
      w.files.read s.configPath = .ok body) : Admits s l w v (.error f)
  | done (t : Tokens) (old : Profile) (x : Exchange) (r : Response) (named : s.configPath.parts ≠ [])
      (stored : v.files.read s.configPath = .ok (loggedIn l t old).fileText) (asked : v.exchanges = [x])
      (answered : w.server [] x = .ok r) (tokens : (Account.logIn l).read r = .ok t) : Admits s l w v (.ok ())

theorem refused_same (s : Settings) (l : Login) (w v : World) (f : Failure) (files : v.files = w.files) :
    Admits s l w v (.error f) := by
  refine .refused f fun _ _ there => ?_
  rw [← files]
  exact there

theorem asks_once {α : Type} (base : Url) (e : Endpoint α) (w : World) :
    ∃ result v, (e.call (Link.wire base).send).perform w = (result, v) ∧ v.files = w.files ∧
      ((v.exchanges = w.exchanges ∧ ∃ f, result = .error f) ∨
        ∃ sent, Wire.build base client e.request = .ok sent ∧ v.exchanges = .sent sent :: w.exchanges ∧
          ∀ x, result = .ok x → ∃ r, w.server w.exchanges (.sent sent) = .ok r ∧ e.read r = .ok x) := by
  obtain ⟨reply, v, performed, _, sending⟩ := link_sends base e.request w
  have kept := (sent_kept (.wire base) e.request w).2.2
  rw [performed] at kept
  rw [Endpoint.call, perform_bind, performed]
  cases reply with
  | error f =>
      refine ⟨.error f, v, rfl, kept, ?_⟩
      cases sending with
      | kept same _ _ => exact .inl ⟨same, f, rfl⟩
      | sent sent built added _ => exact .inr ⟨sent, built, added, fun x same => by cases same⟩
  | ok r =>
      have read : (ofExcept id (e.read r)).perform v = (e.read r, v) := by cases e.read r <;> rfl
      refine ⟨e.read r, v, read, kept, ?_⟩
      cases sending with
      | kept _ f failed => cases failed
      | sent sent built added given => exact .inr ⟨sent, built, added, fun x same => ⟨r, given r rfl, same⟩⟩

theorem tokens_stored (s : Settings) (l : Login) (t : Tokens) (w : World) : ∃ result v,
    ((do
      let old ← Profile.load s.configPath
      Profile.save s.configPath (loggedIn l t old)
      inform ("Successfully logged in as " ++ l.username)) : Action Unit).perform w = (result, v) ∧
    v.exchanges = w.exchanges ∧
    ((result = .ok () ∧ s.configPath.parts ≠ [] ∧
        ∃ old, v.files.read s.configPath = .ok (loggedIn l t old).fileText) ∨
      (∃ f, result = .error f) ∧ (hasNull s.configPath = false → ∀ body,
        v.files.read s.configPath = .ok body → w.files.read s.configPath = .ok body)) := by
  obtain ⟨result, loaded, _⟩ := Profile.load_cases s.configPath w
  rw [perform_bind, loaded]
  cases result with
  | error f => exact ⟨.error f, w, rfl, rfl, .inr ⟨⟨f, rfl⟩, fun _ _ there => there⟩⟩
  | ok old =>
      dsimp only
      have silent := save_within silent_passage (fun _ _ => ⟨rfl, rfl⟩) s.configPath (loggedIn l t old) w
      obtain ⟨saved, v, performed, ended⟩ := Profile.save_cases s.configPath (loggedIn l t old) w
      rw [performed] at silent
      rw [perform_bind, performed]
      rcases ended with ⟨rfl, named, held⟩ | ⟨⟨f, rfl⟩, kept⟩
      · exact ⟨.ok (), _, rfl, silent.1, .inl ⟨rfl, named, old, held⟩⟩
      · exact ⟨.error f, v, rfl, silent.1, .inr ⟨⟨f, rfl⟩, kept⟩⟩

theorem login_admits (s : Settings) (l : Login) (w : World) (fresh : w.exchanges = []) :
    ∃ result v, (logIn s l).perform w = (result, v) ∧ (∀ x ∈ v.exchanges, x.LogsIn) ∧ Admits s l w v result := by
  have silent : ∀ x ∈ w.exchanges, x.LogsIn := by simp [fresh]
  rw [logIn]
  cases l.fault? with
  | some fault => exact ⟨_, w, rfl, silent, refused_same s l w w _ rfl⟩
  | none =>
      cases parsed : (Url.parse s.baseUrl).bind Url.asBase with
      | error fault =>
          refine ⟨.error (.url fault), w, ?_, silent, refused_same s l w w _ rfl⟩
          simp only [perform_bind, Link.toBase, parsed]
          rfl
      | ok base =>
          have linked : (Action.ofExcept id (Link.toBase s.baseUrl)).perform w = (.ok (.wire base), w) := by
            rw [Link.toBase, parsed]
            rfl
          obtain ⟨result, u, performed, files, traffic⟩ := asks_once base (Account.logIn l) w
          dsimp only
          rw [perform_bind, linked]
          dsimp only
          rw [perform_bind, performed]
          rcases traffic with ⟨same, f, rfl⟩ | ⟨sent, built, added, given⟩
          · exact ⟨.error f, u, rfl, same ▸ silent, refused_same s l w u f files⟩
          · have login : ∀ x ∈ Exchange.sent sent :: w.exchanges, x.LogsIn := by
              intro x member
              rw [fresh, List.mem_singleton] at member
              exact ⟨base, l, sent, built, member⟩
            cases result with
            | error f => exact ⟨.error f, u, rfl, added ▸ login, refused_same s l w u f files⟩
            | ok t =>
                obtain ⟨r, answered, read⟩ := given t rfl
                obtain ⟨ended, v, stored, still, fate⟩ := tokens_stored s l t u
                have exchanges := still.trans added
                refine ⟨ended, v, stored, exchanges ▸ login, ?_⟩
                rcases fate with ⟨rfl, named, old, held⟩ | ⟨⟨f, rfl⟩, kept⟩
                · rw [fresh] at answered exchanges
                  exact .done t old (.sent sent) r named held exchanges answered read
                · rw [files] at kept
                  exact .refused f kept

theorem link_answers (base : Url) (r : Request) (w : World) (sent : WireRequest) (x : Response)
    (built : Wire.build base client r = .ok sent) (supported : Wire.unsupported? sent.url = none)
    (answered : w.server w.exchanges (.sent sent) = .ok x) (final : Wire.redirect? sent.url x = .ok none) :
    ∃ v, ((Link.wire base).send r).perform w = (.ok x, v) := by
  let about : Members Json := [("method", .str r.method), ("path", .str r.path)]
  obtain ⟨u, recorded, quiet⟩ := record_within silent_passage .debug "Making Realm API request" about w
  obtain ⟨exchanges, server⟩ : u.exchanges = w.exchanges ∧ u.server = w.server := quiet
  rw [← exchanges, ← server] at answered
  let v : World := { u with exchanges := .sent sent :: u.exchanges }
  have heard : (Wire.once sent).perform u = (.ok (x, none), v) := by
    rw [Wire.once, supported]
    simp only [exchange, perform_bind, perform_get, perform_set, answered, Action.ofExcept, perform_pure, final, v]
  let after : Members Json := about ++ [("status", .int x.status)]
  obtain ⟨z, logged⟩ := record_succeeds .debug "Realm API response" after v
  refine ⟨z, ?_⟩
  have wired : (Action.ofExcept id (Wire.build base [("User-Agent", Program.agent)] r)).perform u = (.ok sent, u) := by
    rw [show Wire.build base [("User-Agent", Program.agent)] r = .ok sent from built]
    rfl
  rw [Link.send, perform_bind, recorded]
  dsimp only
  rw [perform_bind, wired]
  dsimp only
  rw [perform_bind, heard]
  dsimp only
  rw [perform_bind, logged]
  rfl

-- The request of a login can be sent, and the answer is final.
def Reaches (s : Settings) (l : Login) (w : World) (r : Response) : Prop :=
  ∃ base sent, (Url.parse s.baseUrl).bind Url.asBase = .ok base ∧
    Wire.build base client (Account.logIn l).request = .ok sent ∧ Wire.unsupported? sent.url = none ∧
    w.server w.exchanges (.sent sent) = .ok r ∧ Wire.redirect? sent.url r = .ok none

-- There is no file under a path, but there can be one.
structure Writable (files : FileTree) (cfg : Path) : Prop where
  clean : hasNull cfg = false
  absent : ∃ fault, files.node cfg = .error fault ∧ fault.problem ≠ .nameTooLong
  place : ∃ t, files.makeFolders cfg.parent = .ok t ∧ ∀ body now, ∃ u, t.write cfg body now = .ok u

theorem first_login (s : Settings) (l : Login) (w : World) (valid : l.fault? = none) (r : Response)
    (reaches : Reaches s l w r) (t : Tokens) (tokens : (Account.logIn l).read r = .ok t)
    (writable : Writable w.files s.configPath) : ∃ v, (logIn s l).perform w = (.ok (), v) := by
  obtain ⟨base, sent, parsed, built, supported, answered, final⟩ := reaches
  obtain ⟨clean, ⟨fault, absent, short⟩, ⟨files, folders, place⟩⟩ := writable
  have linked : (Action.ofExcept id (Link.toBase s.baseUrl)).perform w = (.ok (.wire base), w) := by
    rw [Link.toBase, parsed]
    rfl
  obtain ⟨u, performed⟩ := link_answers base _ w sent r built supported answered final
  have kept := (sent_kept (.wire base) (Account.logIn l).request w).2.2
  rw [performed] at kept
  have called : ((Account.logIn l).call (Link.wire base).send).perform w = (.ok t, u) := by
    rw [Endpoint.call, perform_bind, performed]
    dsimp only
    rw [tokens]
    rfl
  rw [← kept] at absent folders
  have loaded := Profile.load_absent s.configPath u clean fault absent short
  obtain ⟨v, saved⟩ := Profile.save_succeeds s.configPath (loggedIn l t .empty) u clean files folders (place _)
  rw [logIn, valid]
  dsimp only
  rw [perform_bind, linked]
  dsimp only
  rw [perform_bind, called]
  dsimp only
  rw [perform_bind, loaded]
  dsimp only
  rw [perform_bind, saved]
  exact ⟨_, rfl⟩

-- Nothing is sent, and no file changes.
def Still (w v : World) : Prop := v.server = w.server ∧ v.exchanges = w.exchanges ∧ v.files = w.files

theorem still_passage : Passage Still where
  stay _ := ⟨rfl, rfl, rfl⟩
  chain _ _ _ first second :=
    ⟨second.1.trans first.1, second.2.1.trans first.2.1, second.2.2.trans first.2.2⟩
  book _ _ _ := ⟨rfl, rfl, rfl⟩

theorem shown_still (c : Command) (a : Action Nat) (w : World) : ∃ result v, (do
      match ← outcome a with
      | .ok code => return code
      | .error .interrupted =>
        complain "interrupted"
        return interrupted
      | .error f =>
        if f.isExpected then
          Action.record .debug "Command failed" [("command", .str c.word), ("error", .str f.message)]
          complain f.message
          return failed
        else throw f : Action Nat).perform w = (result, v) ∧ Still (a.perform w).2 v ∧
    (result = .ok 0 ↔ (a.perform w).1 = .ok 0) := by
  rw [perform_bind, perform_outcome]
  rcases (a.perform w) with ⟨f | code, v⟩
  · dsimp only
    split
    · rename_i same
      cases same
    · exact ⟨_, _, rfl, ⟨rfl, rfl, rfl⟩, by simp [interrupted]⟩
    · rename_i g unlike same
      cases same
      split
      · obtain ⟨x, recorded, still⟩ := record_within still_passage .debug "Command failed"
          [("command", .str c.word), ("error", .str f.message)] v
        rw [perform_bind, recorded]
        exact ⟨_, _, rfl, still, by simp [failed]⟩
      · exact ⟨_, _, rfl, still_passage.stay v, by simp⟩
  · exact ⟨_, _, rfl, still_passage.stay v, Iff.rfl⟩

theorem invocation_runs (e : Environment) (i : Invocation) (w : World) :
    ∃ result v, (i.run e).perform w = (result, v) ∧
      ((∃ f, ((Settings.load e i.overrides).perform w).1 = .error f) ∧ Still w v ∨
        ∃ s u, ((Settings.load e i.overrides).perform w).1 = .ok s ∧ Still w u ∧
          Still ((i.command.run s).perform u).2 v ∧ (result = .ok 0 ↔ ((i.command.run s).perform u).1 = .ok 0)) := by
  have still := settings_within still_passage e i.overrides w
  rw [Invocation.run, perform_bind, perform_outcome]
  rcases loaded : (Settings.load e i.overrides).perform w with ⟨f | s, a⟩
  · rw [loaded] at still
    dsimp only
    split
    · exact ⟨_, _, rfl, .inl ⟨⟨_, rfl⟩, still⟩⟩
    · exact ⟨_, _, rfl, .inl ⟨⟨f, rfl⟩, still⟩⟩
    · rename_i same
      cases same
  · rw [loaded] at still
    let b : World := { a with log := { a.log with
      threshold := Level.threshold s.logLevel, asJson := s.jsonLogs, correlation := "" } }
    obtain ⟨id, c, correlated⟩ := correlation_succeeds b
    have first := within_correlation still_passage b
    rw [correlated] at first
    obtain ⟨u, recorded, second⟩ := record_within still_passage .debug "Running command"
      [("command", .str i.command.word)] c
    have before : Still w u := still_passage.chain w a u still (still_passage.chain a c u first second)
    obtain ⟨result, v, shown, after, code⟩ := shown_still i.command (i.command.run s) u
    refine ⟨result, v, ?_, .inr ⟨s, u, rfl, before, after, code⟩⟩
    dsimp only
    rw [configureLog, perform_bind, perform_modify]
    dsimp only
    rw [setCorrelation, perform_bind, perform_modify]
    dsimp only
    rw [perform_bind, correlated]
    dsimp only
    rw [perform_bind, recorded]
    exact shown

theorem login_runs (e : Environment) (args : List String) (i : Invocation) (l : Login) (s : Settings) (w : World)
    (parsed : Invocation.parse args = .ok i) (command : i.command = .login l)
    (loaded : ((Settings.load e i.overrides).perform w).1 = .ok s) : ∃ u result x, Still w u ∧
      (logIn s (intended l)).perform u = (result, x) ∧
      (((run e args).perform w).1 = .ok 0 ↔ result = .ok ()) ∧ ((run e args).perform w).2.files = x.files := by
  rw [run, parsed]
  obtain ⟨ended, v, performed, ⟨⟨f, failed⟩, _⟩ | ⟨s', u, loaded', before, after, code⟩⟩ := invocation_runs e i w
  · rw [loaded] at failed
    cases failed
  · rw [loaded, Except.ok.injEq] at loaded'
    subst loaded'
    dsimp only
    rw [performed]
    rcases carried : (logIn s (intended l)).perform u with ⟨f | ⟨⟩, x⟩
    · have whole : (i.command.run s).perform u = (.error f, x) := by
        rw [command, Command.run, well, perform_bind, carried]
      rw [whole] at after code
      exact ⟨u, _, x, before, carried, code.trans (iff_of_false (by rintro ⟨⟩) (by rintro ⟨⟩)), after.2.2⟩
    · have whole : (i.command.run s).perform u = (.ok 0, x) := by
        rw [command, Command.run, well, perform_bind, carried]
        rfl
      rw [whole] at after code
      exact ⟨u, _, x, before, carried, code.trans (iff_of_true rfl rfl), after.2.2⟩

theorem login_left (e : Environment) (args : List String) (w : World) (i : Invocation) (l : Login) (s : Settings)
    (parsed : Invocation.parse args = .ok i) (command : i.command = .login l)
    (loaded : ((Settings.load e i.overrides).perform w).1 = .ok s) (fresh : w.exchanges = [])
    (goes : ∀ u, Still w u → ∃ v, (logIn s (intended l)).perform u = (.ok (), v)) :
    ∃ t old x r, ((run e args).perform w).2.files.read s.configPath = .ok (loggedIn (intended l) t old).fileText ∧
      w.server [] x = .ok r ∧ (Account.logIn (intended l)).read r = .ok t := by
  obtain ⟨u, result, x, before, performed, _, files⟩ := login_runs e args i l s w parsed command loaded
  obtain ⟨v, done⟩ := goes u before
  rw [performed, Prod.mk.injEq] at done
  obtain ⟨rfl, rfl⟩ := done
  obtain ⟨_, _, again, _, admits⟩ := login_admits s (intended l) u (before.2.1.trans fresh)
  rw [performed, Prod.mk.injEq] at again
  obtain ⟨rfl, rfl⟩ := again
  cases admits with
  | done t old y r named stored asked answered tokens =>
      exact ⟨t, old, y, r, files ▸ stored, before.1 ▸ answered, tokens⟩

theorem session_starts (s : Settings) (w : World) (p : Profile) (base : Url)
    (loaded : (Profile.load s.configPath).perform w = (.ok p, w)) (user : p.accessToken ≠ "")
    (based : (Url.parse s.baseUrl).bind Url.asBase = .ok base) : (openSession s).perform w =
      (.ok (Channel.send ⟨.wire base, Profile.save s.configPath⟩), { w with profile := p }) := by
  have accepted : p.requireLogin = .ok () := by simp [Profile.requireLogin, Profile.isLoggedIn, user]
  have linked : Link.toBase s.baseUrl = .ok (.wire base) := by
    rw [Link.toBase, based]
    rfl
  rw [openSession, perform_bind, loaded]
  dsimp only
  rw [accepted, linked]
  rfl

end CommandLine

namespace Session

theorem opaque_sends (p : Profile) (r : Request) (now : Rat) (plain : Token.expiry? p.accessToken = none) :
    (State.start p [r]).step 0 (.start now) = some
      ⟨p, [⟨r, .sending p.accessToken false⟩], [(0, .sent (r.authorized p.accessToken))]⟩ := by
  have fresh : p.isExpired now = false := by simp [Profile.isExpired, Token.isExpired, plain]
  simp [State.step, State.start, Call.react, Call.start, fresh, Call.transmit, State.after]

section

variable {cfg : Path} {p : Profile} {requests : List Request} {w v : World}
  {replies : List (Except Failure Response)} {s : State}

theorem overlap_run (overlap : Overlap cfg p requests w replies s v) : (State.start p requests).Run replies s := by
  induction overlap with
  | rest => exact .rest
  | move replies s t v i e _ moved _ ih => exact .move replies s t i e ih moved
  | save replies s t v i reply q _ moved _ ih => exact .move replies s t i _ ih moved
  | aside _ _ _ _ _ _ ih => exact ih

theorem overlap_file (readable : Profile.Readable cfg w.files) (overlap : Overlap cfg p requests w replies s v) :
    Profile.Readable cfg v.files ∧ v.files.read cfg =
      ((History.saved s.notes).head?.map fun q => .ok q.fileText).getD (w.files.read cfg) := by
  induction overlap with
  | rest => exact ⟨readable, rfl⟩
  | move replies s t v i e _ moved unsaved ih => exact ⟨ih.1, by rw [unsaved]; exact ih.2⟩
  | save replies s t v i reply q _ moved saved ih =>
      obtain ⟨x, performed, written, _⟩ := Profile.save_written cfg q v ih.1
      rw [performed, saved]
      exact ⟨⟨readable.1, readable.2.1, _, written⟩, written⟩
  | aside replies s u v _ other ih =>
      obtain ⟨body, there⟩ := ih.1.2.2
      exact ⟨⟨readable.1, readable.2.1, body, other.trans there⟩, other.trans ih.2⟩

theorem overlap_left (readable : Profile.Readable cfg w.files) (there : w.files.read cfg = .ok p.fileText)
    (overlap : Overlap cfg p requests w replies s v) :
    v.files.read cfg = .ok (afterRenewals p (History.answered s.notes)).fileText := by
  have recorded := run_recorded p requests replies s (overlap_run overlap)
  rw [(overlap_file readable overlap).2, recorded.saved]
  cases History.answered s.notes with
  | nil => exact there
  | cons t earlier => rfl

end

end Session

end HostingAdmin
