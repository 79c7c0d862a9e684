import HostingAdmin.Proofs.ExpiredTokens
import HostingAdmin.Proofs.VisitSteps

set_option autoImplicit false

namespace HostingAdmin

open HostingAdmin.Action
open CommandLine Session

-- What an invocation is shown to do after others.
structure Isolated (cfg : Path) (v : Visit) (earlier : List Visit) : Prop where
  left : Held cfg (v :: earlier) v.left
  current : ∀ x granted, v.Sends x granted → ∀ token, token ≠ "" → x.authorization? = some ("Bearer " ++ token) →
    Current earlier granted token
  silent : ∀ x granted, v.Sends x granted → SignedOut earlier → x.LogsIn

theorem login_unsigned (x : Exchange) (login : x.LogsIn) : x.authorization? = none := by
  obtain ⟨base, l, sent, built, rfl⟩ := login
  exact Exchange.modest_wire base _ sent (.typed "application/json" rfl) built

-- All tokens of a profile come from the last login, or from a refresh after it.
def Profile.Backed (p : Profile) (visits : List Visit) : Prop :=
  ∀ token, token ≠ "" → token = p.accessToken ∨ token = p.refreshToken → Current visits (fun _ => False) token

theorem source_current (earlier : List Visit) (p : Profile) (user : p.accessToken ≠ "")
    (current : p.Backed earlier) (granted : Tokens → Prop) (token : String) (some : token ≠ "")
    (source : token = p.accessToken ∨ token = p.refreshToken ∨ ∃ t, granted t ∧ t.Has token) :
    Current earlier granted token := by
  have stored : token = p.accessToken ∨ token = p.refreshToken → Current earlier granted token := by
    intro own
    obtain ⟨later, t, last, login | ⟨o, never | before, has⟩⟩ := current token some own
    · exact ⟨later, t, last, .inl login⟩
    · exact never.elim
    · exact ⟨later, t, last, .inr ⟨o, .inr before, has⟩⟩
  rcases source with access | refresh | ⟨o, here, has⟩
  · exact stored (.inl access)
  · exact stored (.inr refresh)
  · obtain ⟨later, t, last, _⟩ := current p.accessToken user (.inl rfl)
    exact ⟨later, t, last, .inr ⟨o, .inl here, has⟩⟩

theorem login_has (l : Login) (t : Tokens) (old : Profile) (token : String) (some : token ≠ "")
    (among : token = (loggedIn l t old).accessToken ∨ token = (loggedIn l t old).refreshToken) : t.Has token := by
  have access : (loggedIn l t old).accessToken = t.access := by cases l <;> rfl
  have refresh : (loggedIn l t old).refreshToken = t.refresh.getD "" := by cases l <;> rfl
  rw [access, refresh] at among
  rcases among with same | same
  · exact .inl same.symm
  · cases given : t.refresh with
    | none =>
        rw [given] at same
        exact (some same).elim
    | some r =>
        rw [given] at same
        exact .inr (by rw [given, same]; rfl)

theorem signed_split (server : Server) (p : Profile) (late early : List Exchange) (x : Exchange)
    (signed : Signed server p (late ++ x :: early)) (token : String)
    (shows : x.authorization? = some ("Bearer " ++ token)) : Known server p early token := by
  induction late with
  | nil => exact signed.1 token shows
  | cons e late ih => exact ih signed.2

theorem session_held (cfg : Path) (v : Visit) (earlier : List Visit) (p q : Profile) (named : cfg.parts ≠ [])
    (user : p.accessToken ≠ "") (quiet : ∀ t, ¬ v.SignsIn t) (stays : ¬ v.SignsOut)
    (current : p.Backed earlier) (out : SignedOut earlier → p.accessToken = "")
    (stored : v.left.read cfg = .ok q.fileText)
    (known : ∀ token, token = q.accessToken ∨ token = q.refreshToken →
      token = p.accessToken ∨ token = p.refreshToken ∨ ∃ t, v.Grants t ∧ t.Has token) :
    Held cfg (v :: earlier) v.left := by
  intro _ body there
  rw [stored, Except.ok.injEq] at there
  refine ⟨named, q, there.symm, ?_, ?_⟩
  · intro token some among
    apply current_later v earlier quiet v.Grants fun _ granted => granted
    exact source_current earlier p user current v.Grants token some (known token among)
  · intro signed
    rcases signed_out v earlier signed with here | ⟨before, _⟩
    · exact (stays here).elim
    · exact (user (out before)).elim

section

variable (cfg : Path) (e : Environment) (args : List String) (w : World) (earlier : List Visit)

theorem ran_isolated (left : Held cfg (.ran e args w :: earlier) ((run e args).perform w).2.files)
    (each : ∀ late x early, ((run e args).perform w).2.exchanges = late ++ x :: early →
      (∀ token, token ≠ "" → x.authorization? = some ("Bearer " ++ token) →
        Current earlier (Brings w.server early) token) ∧ (SignedOut earlier → x.LogsIn)) :
    Isolated cfg (.ran e args w) earlier where
  left := left
  current x granted sends := by
    cases sends with
    | ran _ _ _ late early x sent => exact (each late x early sent).1
  silent x granted sends := by
    cases sends with
    | ran _ _ _ late early x sent => exact (each late x early sent).2

theorem logins_isolated (left : Held cfg (.ran e args w :: earlier) ((run e args).perform w).2.files)
    (logins : ∀ x ∈ ((run e args).perform w).2.exchanges, x.LogsIn) : Isolated cfg (.ran e args w) earlier := by
  apply ran_isolated cfg e args w earlier left
  intro late x early sent
  have login := logins x (by simp [sent])
  refine ⟨fun token _ shows => ?_, fun _ => login⟩
  rw [login_unsigned x login] at shows
  cases shows

theorem failed_isolated (held : Held cfg earlier w.files)
    (logins : ∀ x ∈ ((run e args).perform w).2.exchanges, x.LogsIn)
    (same : hasNull cfg = false → ∀ body, ((run e args).perform w).2.files.read cfg = .ok body →
      w.files.read cfg = .ok body)
    (quiet : ∀ t, ¬ (Visit.ran e args w).SignsIn t) (stays : ¬ (Visit.ran e args w).SignsOut) :
    Isolated cfg (.ran e args w) earlier :=
  logins_isolated cfg e args w earlier (held_same (.ran e args w) earlier cfg w.files held same quiet stays) logins

theorem still_isolated (fresh : w.exchanges = []) (held : Held cfg earlier w.files)
    (still : Still w ((run e args).perform w).2) (stays : ¬ (Visit.ran e args w).SignsOut) :
    Isolated cfg (.ran e args w) earlier := by
  have none : ((run e args).perform w).2.exchanges = [] := still.2.1.trans fresh
  apply failed_isolated cfg e args w earlier held
  · simp [none]
  · intro _ body there
    rw [← still.2.2]
    exact there
  · intro t signs
    obtain ⟨_, _, x, _, _, _, _, sent, _⟩ := signs
    rw [none] at sent
    cases sent
  · exact stays

section

variable (i : Invocation) (parsed : Invocation.parse args = .ok i)

include parsed

theorem run_parsed : run e args = i.run e := by rw [run, parsed]

theorem other_command_quiet (other : ∀ l, i.command ≠ .login l) (t : Tokens) : ¬ (Visit.ran e args w).SignsIn t := by
  rintro ⟨j, l, _, _, parsed', login, _⟩
  rw [parsed, Except.ok.injEq] at parsed'
  exact other l (parsed' ▸ login)

theorem other_command_stays (other : i.command ≠ .logout) : ¬ (Visit.ran e args w).SignsOut := by
  rintro ⟨j, _, parsed', logout, _⟩
  rw [parsed, Except.ok.injEq] at parsed'
  exact other (parsed' ▸ logout)

variable (s : Settings) (u : World) (path : s.configPath = cfg) (fresh : w.exchanges = [])
  (held : Held cfg earlier w.files) (before : Still w u)
  (after : Still ((i.command.run s).perform u).2 ((run e args).perform w).2)

include path fresh held before after

theorem session_isolated (needs : i.command.needsSession = true) (spares : i.command.Spares s w) :
    Isolated cfg (.ran e args w) earlier := by
  have quiet : ∀ t, ¬ (Visit.ran e args w).SignsIn t :=
    other_command_quiet e args w i parsed fun l same => by rw [same] at needs; cases needs
  have stays : ¬ (Visit.ran e args w).SignsOut :=
    other_command_stays e args w i parsed fun same => by rw [same] at needs; cases needs
  have spared : i.command.Spares s u := by
    cases command : i.command <;> simp_all [Command.Spares, Still]
  rcases session_shelved s i.command u needs spared (before.2.1.trans fresh) with
    ⟨f, failed⟩ | ⟨clean, body, there, opens⟩
  · rw [failed] at after
    exact still_isolated cfg e args w earlier fresh held (still_passage.chain _ _ _ before after) stays
  · rw [path] at clean there opens
    rw [before.2.2] at there
    obtain ⟨named, p, text, current, out⟩ := held clean body there
    obtain ⟨user, shelved⟩ := opens p named text
    rw [before.1] at shelved
    obtain ⟨q, stored, access, refresh⟩ := shelved.stored
    have signed := shelved.wary.signed
    rw [← after.2.1] at signed access refresh
    rw [← after.2.2] at stored
    apply ran_isolated
    · apply session_held cfg (.ran e args w) earlier p q named user quiet stays current out stored
      rintro token (rfl | rfl)
      · exact access
      · exact refresh
    · intro late x early sent
      rw [sent] at signed
      refine ⟨fun token some shows => ?_, fun before => (user (out before)).elim⟩
      have known := signed_split w.server p late early x signed token shows
      exact source_current earlier p user current _ token some known

theorem login_isolated (l : Login) (command : i.command = .login l)
    (code : ((run e args).perform w).1 = .ok 0 ↔ ((i.command.run s).perform u).1 = .ok 0) :
    Isolated cfg (.ran e args w) earlier := by
  have stays : ¬ (Visit.ran e args w).SignsOut :=
    other_command_stays e args w i parsed fun same => by rw [command] at same; cases same
  obtain ⟨result, v, performed, logins, admits⟩ := login_admits s (intended l) u (before.2.1.trans fresh)
  have whole : (i.command.run s).perform u = (result.map fun _ => 0, v) := by
    rw [command, Command.run, well, perform_bind, performed]
    cases result <;> rfl
  rw [whole] at after code
  have sent : ∀ x ∈ ((run e args).perform w).2.exchanges, x.LogsIn := by
    rw [after.2.1]
    exact logins
  cases admits with
  | refused f kept =>
      rw [path, before.2.2] at kept
      have fails : ((run e args).perform w).1 ≠ .ok 0 := by
        rw [Ne, code]
        exact fun same => by cases same
      apply failed_isolated cfg e args w earlier held sent
      · rw [after.2.2]
        exact kept
      · rintro t ⟨_, _, _, _, _, _, ended, _⟩
        exact fails ended
      · exact stays
  | done t old x r named stored asked answered tokens =>
      rw [before.1] at answered
      have signs : (Visit.ran e args w).SignsIn t :=
        ⟨i, l, x, r, parsed, command, code.mpr rfl, after.2.1.trans asked, answered, tokens⟩
      apply logins_isolated cfg e args w earlier _ sent
      intro _ body there
      rw [after.2.2, ← path, stored, Except.ok.injEq] at there
      refine ⟨path ▸ named, _, there.symm, ?_, ?_⟩
      · intro token some among
        exact signed_current _ earlier t token signs (login_has (intended l) t old token some among) _
      · intro signed
        rcases signed_out _ earlier signed with here | ⟨_, quiet⟩
        · exact (stays here).elim
        · exact (quiet t signs).elim

theorem logout_isolated (command : i.command = .logout) : Isolated cfg (.ran e args w) earlier := by
  have quiet : ∀ t, ¬ (Visit.ran e args w).SignsIn t :=
    other_command_quiet e args w i parsed fun l same => by rw [command] at same; cases same
  have silent := save_within silent_passage (fun _ _ => ⟨rfl, rfl⟩) s.configPath .empty u
  obtain ⟨result, v, performed, ended⟩ := Profile.save_cases s.configPath .empty u
  rw [performed] at silent
  have unsent : v.exchanges = [] := silent.1.trans (before.2.1.trans fresh)
  rcases ended with ⟨rfl, named, cleared⟩ | ⟨⟨f, rfl⟩, kept⟩
  · have whole : (i.command.run s).perform u =
        (.ok 0, { v with output := ("Successfully logged out" ++ "\n") :: v.output }) := by
      rw [command, Command.run, well, perform_bind, perform_bind, Profile.clear, performed]
      rfl
    rw [whole] at after
    have none : ((run e args).perform w).2.exchanges = [] := after.2.1.trans unsent
    apply logins_isolated cfg e args w earlier _ (by simp [none])
    intro _ body there
    rw [after.2.2, ← path, show _ = _ from cleared, Except.ok.injEq] at there
    refine ⟨path ▸ named, .empty, there.symm, fun token some among => ?_, fun _ => rfl⟩
    rcases among with same | same
    · exact (some same).elim
    · exact (some same).elim
  · have whole : (i.command.run s).perform u = (.error f, v) := by
      rw [command, Command.run, well, perform_bind, perform_bind, Profile.clear, performed]
    rw [whole] at after
    have none : ((run e args).perform w).2.exchanges = [] := after.2.1.trans unsent
    -- A profile that can be read can be written again, so there is none.
    have missing : hasNull s.configPath = false → ∀ body, v.files.read s.configPath ≠ .ok body := by
      intro clean body there
      have readable := kept clean body there
      obtain ⟨named, _⟩ := held (path ▸ clean) body (by rw [← path, ← before.2.2]; exact readable)
      obtain ⟨_, saved, _⟩ := Profile.save_written s.configPath .empty u ⟨clean, path ▸ named, body, readable⟩
      rw [performed] at saved
      cases saved
    apply logins_isolated cfg e args w earlier _ (by simp [none])
    intro clean body there
    rw [after.2.2, ← path] at there
    exact (missing (path ▸ clean) body there).elim

omit path in
theorem whoami_isolated (command : i.command = .whoami) : Isolated cfg (.ran e args w) earlier := by
  have stays : ¬ (Visit.ran e args w).SignsOut :=
    other_command_stays e args w i parsed fun same => by rw [command] at same; cases same
  obtain ⟨result, loaded, _⟩ := Profile.load_cases s.configPath u
  have idle : Still u ((i.command.run s).perform u).2 := by
    rw [command, Command.run, well, perform_bind, perform_bind, loaded]
    cases result with
    | error f => exact still_passage.stay u
    | ok p => exact ⟨rfl, rfl, rfl⟩
  have still := still_passage.chain _ _ _ before (still_passage.chain _ _ _ idle after)
  exact still_isolated cfg e args w earlier fresh held still stays

end

theorem run_isolated (uses : (Visit.ran e args w).Uses cfg) (held : Held cfg earlier w.files) :
    Isolated cfg (.ran e args w) earlier := by
  obtain ⟨fresh, proper⟩ := uses
  cases parsed : Invocation.parse args with
  | error stop =>
      have still : Still w ((run e args).perform w).2 := by
        rw [run, parsed]
        cases stop <;> exact ⟨rfl, rfl, rfl⟩
      apply still_isolated cfg e args w earlier fresh held still
      rintro ⟨i, _, accepted, _⟩
      rw [parsed] at accepted
      cases accepted
  | ok i =>
      have same := run_parsed e args i parsed
      obtain ⟨result, v, performed, ⟨⟨f, failed⟩, still⟩ | ⟨s, u, loaded, before, after, code⟩⟩ := invocation_runs e i w
      · rw [← same] at performed
        apply still_isolated cfg e args w earlier fresh held
        · rw [performed]
          exact still
        · rintro ⟨j, s, accepted, _, loaded⟩
          rw [parsed, Except.ok.injEq] at accepted
          rw [← accepted, failed] at loaded
          cases loaded
      · obtain ⟨path, spares⟩ := proper i s parsed loaded
        have whole : ((run e args).perform w) = (result, v) := same ▸ performed
        have here : Still ((i.command.run s).perform u).2 ((run e args).perform w).2 := by
          rw [whole]
          exact after
        have ends : ((run e args).perform w).1 = .ok 0 ↔ ((i.command.run s).perform u).1 = .ok 0 := by
          rw [whole]
          exact code
        cases command : i.command with
        | login l => exact login_isolated cfg e args w earlier i parsed s u path fresh held before here l command ends
        | logout => exact logout_isolated cfg e args w earlier i parsed s u path fresh held before here command
        | whoami => exact whoami_isolated cfg e args w earlier i parsed s u fresh held before here command
        | _ =>
            apply session_isolated cfg e args w earlier i parsed s u path fresh held before here _ spares
            rw [command]
            rfl

end

theorem latest_source (p : Profile) (renewals : List Tokens) (token : String)
    (latest : token = latestAccess p renewals ∨ token = latestRefresh p renewals) :
    token = p.accessToken ∨ token = p.refreshToken ∨ ∃ t, t ∈ renewals ∧ t.Has token := by
  rcases latest with rfl | rfl
  · cases renewals with
    | nil => exact .inl rfl
    | cons t earlier => exact .inr (.inr ⟨t, List.mem_cons_self, .inl rfl⟩)
  · rw [latestRefresh]
    cases found : renewals.findSome? rotated? with
    | none => exact .inr (.inl rfl)
    | some token =>
        obtain ⟨t, member, brought⟩ := List.exists_of_findSome?_eq_some found
        exact .inr (.inr ⟨t, member, .inr (Option.filter_eq_some_iff.mp brought).1⟩)

-- What overlapping calls send carries what the session was opened with, or was granted before.
theorem overlap_current (replies : List (Except Failure Response)) (s : State) (w v : World) (earlier : List Visit)
    (p : Profile) (requests : List Request) (run : (State.start p requests).Run replies s) (user : p.accessToken ≠ "")
    (current : p.Backed earlier) (x : Exchange) (granted : Tokens → Prop)
    (sends : (Visit.overlapping replies s w v).Sends x granted) (token : String) (filled : token ≠ "")
    (shows : x.authorization? = some ("Bearer " ++ token)) : Current earlier granted token := by
  cases sends with
  | overlapping _ _ _ _ late early i n r noted sent =>
      have lawful := (run_coherent p requests replies s run).lawful
      rw [noted] at lawful
      have justified := lawful_split p requests late early i n lawful
      have latest : token = latestAccess p (History.answered early) ∨
          token = latestRefresh p (History.answered early) := by
        rcases sent with rfl | rfl
        · obtain ⟨a, _, rfl, _⟩ := justified
          rw [authorized_bearer, Option.some.injEq, String.append_right_inj] at shows
          exact .inl shows.symm
        · obtain ⟨rfl, _⟩ := justified
          rw [authorized_bearer, Option.some.injEq, String.append_right_inj] at shows
          exact .inr shows.symm
      exact source_current earlier p user current _ token filled (latest_source p _ token latest)

theorem overlap_isolated (cfg : Path) (replies : List (Except Failure Response)) (s : State) (w v : World)
    (earlier : List Visit) (uses : (Visit.overlapping replies s w v).Uses cfg) (held : Held cfg earlier w.files) :
    Isolated cfg (.overlapping replies s w v) earlier := by
  obtain ⟨settings, send, opened, requests, rfl, opens, overlap⟩ := uses
  rcases session_opens settings w with ⟨f, failed⟩ | ⟨p, link, opens', loaded, clean, body, there⟩
  · rw [failed] at opens
    cases opens
  · have user := session_user settings w opened send p loaded opens
    rw [opens, Prod.mk.injEq] at opens'
    obtain ⟨_, rfl⟩ := opens'
    obtain ⟨named, q, text, current, out⟩ := held clean body there
    rw [text] at there
    rw [Profile.load_written settings.configPath w q clean there, Prod.mk.injEq, Except.ok.injEq] at loaded
    obtain ⟨rfl, _⟩ := loaded
    have run := overlap_run overlap
    have readable : Profile.Readable settings.configPath ({ w with profile := q } : World).files :=
      ⟨clean, named, _, there⟩
    have quiet : ∀ t, ¬ (Visit.overlapping replies s w v).SignsIn t := fun _ signs => signs
    have stays : ¬ (Visit.overlapping replies s w v).SignsOut := fun signs => signs
    refine ⟨?_, overlap_current replies s w v earlier q requests run user current,
      fun _ _ _ before => (user (out before)).elim⟩
    apply session_held settings.configPath (.overlapping replies s w v) earlier q _ named user quiet stays current out
      (overlap_left readable there overlap)
    intro token among
    rw [after_renewals] at among
    obtain access | refresh | ⟨t, member, has⟩ := latest_source q (History.answered s.notes) token among
    · exact .inl access
    · exact .inr (.inl refresh)
    · rw [(run_recorded q requests replies s run).answered] at member
      exact .inr (.inr ⟨t, member, has⟩)

theorem visit_isolated (cfg : Path) (v : Visit) (earlier : List Visit) (uses : v.Uses cfg)
    (held : Held cfg earlier v.found) : Isolated cfg v earlier := by
  cases v with
  | ran e args w => exact run_isolated cfg e args w earlier uses held
  | overlapping replies s w u => exact overlap_isolated cfg replies s w u earlier uses held

-- The induction over invocations: each finds at most what the one before has left.
theorem shares_isolated (cfg : Path) (visits : List Visit) (shares : Shares cfg visits) (v : Visit)
    (earlier : List Visit) (whole : visits = v :: earlier) : Isolated cfg v earlier := by
  induction shares generalizing v earlier with
  | none => cases whole
  | visit v earlier before uses found ih =>
      cases whole
      apply visit_isolated cfg v earlier uses
      intro clean body there
      obtain ⟨u, first, stored⟩ := found body there
      obtain ⟨older, rfl⟩ := List.head?_eq_some_iff.mp first
      exact (ih u older rfl).left clean body stored

theorem shares_earlier (cfg : Path) (later visits : List Visit) (shares : Shares cfg (later ++ visits)) :
    Shares cfg visits := by
  induction later with
  | nil => exact shares
  | cons u later ih =>
      cases shares with
      | visit _ _ before _ _ => exact ih before

theorem login_post (x : Exchange) (login : x.LogsIn) : x.method = "POST" := by
  obtain ⟨base, l, sent, built, rfl⟩ := login
  exact (Wire.build_parts base _ _ sent built).1.trans Text.upper_post

-- A machine without files, and a server that lets everybody in with the same token.
def welcome (access : String) : World :=
  World.start ⟨.folder [], []⟩ fun _ _ =>
    .ok ⟨Status.ok, [], Text.utf8 (Json.obj [("access_token", .str access)]).indented⟩

theorem welcome_read (l : Login) (access : String) :
    (Account.logIn l).read ⟨Status.ok, [], Text.utf8 (Json.obj [("access_token", .str access)]).indented⟩ =
      .ok ⟨access, none⟩ := by
  have parsed := text_parsed Tokens.title Tokens.check (.obj [("access_token", .str access)]) ⟨access, none⟩
    ⟨rfl, show ["access_token"].Nodup by decide, trivial, trivial⟩ rfl
  simp only [Account.logIn, if_pos, Tokens.parse, parsed]
  rfl

theorem welcome_vacant : FileTree.locate ⟨.folder [], []⟩ true ⟨1, ["p"]⟩ = .ok (.vacant ["p"]) := by
  have narrow : ¬maxPathSize < (Text.utf8 (Path.toString ⟨1, ["p"]⟩)).length := by decide
  have short : ¬maxNameSize < (Text.utf8 "p").length := by decide
  rw [FileTree.locate, if_neg narrow, Node.walk]
  simp only [if_neg short]
  rfl

theorem welcome_folders : FileTree.makeFolders ⟨.folder [], []⟩ ⟨1, []⟩ = .ok ⟨.folder [], []⟩ := by
  have narrow : ¬maxPathSize < (Text.utf8 (Path.toString ⟨1, []⟩)).length := by decide
  have root (follow : Bool) : FileTree.locate ⟨.folder [], []⟩ follow ⟨1, []⟩ = .ok (.node [] (.folder [])) := by
    rw [FileTree.locate, if_neg narrow, Node.walk]
    rfl
  have taken : FileTree.makeFolder ⟨.folder [], []⟩ ⟨1, []⟩ = .error ⟨.exists, "/"⟩ := by
    rw [FileTree.makeFolder, root]
    rfl
  have settled : FileTree.isFolder ⟨.folder [], []⟩ ⟨1, []⟩ = true := by
    simp only [FileTree.isFolder, FileTree.node, root]
    rfl
  rw [FileTree.makeFolders, taken]
  dsimp only
  rw [if_neg (by decide), if_pos settled]

theorem welcome_writable : Writable ⟨.folder [], []⟩ ⟨1, ["p"]⟩ where
  clean := by decide
  absent := by
    rw [FileTree.node, welcome_vacant]
    exact ⟨_, rfl, by decide⟩
  place := by
    refine ⟨_, welcome_folders, fun body now => ⟨⟨.folder [("p", .file body now)], []⟩, ?_⟩⟩
    rw [FileTree.write, welcome_vacant]
    rfl

def defaultBase : Url := ⟨"https", "", "realm.mongodb.com", none, "/api/admin/v3.0/", none, none⟩

theorem default_base : (Url.parse Settings.defaultBaseUrl).bind Url.asBase = .ok defaultBase := rfl

theorem welcome_reaches (s : Settings) (default : s.baseUrl = Settings.defaultBaseUrl) (w : World) (r : Response)
    (final : r.headers = []) (answers : ∀ x, w.server w.exchanges x = .ok r) :
    Reaches s (.password "me" "pw") w r := by
  have built : ∃ sent, Wire.build defaultBase Exchange.client (Account.logIn (.password "me" "pw")).request =
      .ok sent ∧ Wire.unsupported? sent.url = none := ⟨_, rfl, rfl⟩
  obtain ⟨sent, built, supported⟩ := built
  refine ⟨_, sent, ?_, built, supported, answers _, ?_⟩
  · rw [default]
    exact default_base
  · simp [Wire.redirect?, Response.header?, final]

def loginArgs : List String := ["--config-path", "/p", "login", "--username", "me", "--password", "pw"]

-- A token that is sent comes from the last login that went well, or from a refresh after it; and after a
-- logout nothing but logins is sent, until one goes well.
theorem session_isolation (cfg : Path) (later : List Visit) (v : Visit) (earlier : List Visit)
    (shares : Shares cfg (later ++ v :: earlier)) (x : Exchange) (granted : Tokens → Prop) (sends : v.Sends x granted) :
    (∀ token, token ≠ "" → x.authorization? = some ("Bearer " ++ token) → Current earlier granted token) ∧
      (SignedOut earlier → x.LogsIn ∧ x.method = "POST") := by
  have isolated := shares_isolated cfg _ (shares_earlier cfg later _ shares) v earlier rfl
  refine ⟨isolated.current x granted sends, fun out => ?_⟩
  have login := isolated.silent x granted sends out
  exact ⟨login, login_post x login⟩

-- A user logs in, and a session asks for something with the token.
theorem session_isolation_login : ∃ v first x granted, Shares ⟨1, ["p"]⟩ [v, first] ∧ v.Sends x granted ∧
    x.authorization? = some ("Bearer " ++ "a") ∧ Current [first] granted "a" := by
  let l : Login := .password "me" "pw"
  let i : Invocation := ⟨none, some "/p", none, false, .login l⟩
  let s : Settings := ⟨Settings.defaultBaseUrl, ⟨1, ["p"]⟩, 8, 30.0, "WARNING", false⟩
  have parsed : Invocation.parse loginArgs = .ok i := rfl
  have loaded : ((Settings.load ⟨[], []⟩ i.overrides).perform (welcome "a")).1 = .ok s := rfl
  have goes : ∀ u, Still (welcome "a") u → ∃ v, (logIn s l).perform u = (.ok (), v) := by
    intro u still
    have reaches := welcome_reaches s rfl u _ rfl fun x => by rw [still.1]; rfl
    apply first_login s l u rfl _ reaches _ (welcome_read l "a")
    rw [still.2.2]
    exact welcome_writable
  obtain ⟨t, old, x, r, stored, answered, tokens⟩ := login_left ⟨[], []⟩ loginArgs _ i l s parsed rfl loaded rfl goes
  obtain rfl := Except.ok.inj answered
  obtain rfl := Except.ok.inj ((welcome_read (intended l) "a").symm.trans tokens)
  let first : Visit := .ran ⟨[], []⟩ loginArgs (welcome "a")
  have uses : first.Uses ⟨1, ["p"]⟩ := by
    refine ⟨rfl, fun j other accepted found => ?_⟩
    rw [parsed, Except.ok.injEq] at accepted
    subst accepted
    rw [loaded, Except.ok.injEq] at found
    subst found
    exact ⟨rfl, trivial⟩
  have absent : ∀ body, first.found.read ⟨1, ["p"]⟩ ≠ .ok body := by
    intro body there
    obtain ⟨n, found⟩ := Profile.read_node _ _ body there
    obtain ⟨fault, missing, _⟩ := welcome_writable.absent
    rw [show first.found.node ⟨1, ["p"]⟩ = .error fault from missing] at found
    cases found
  have begun : Shares ⟨1, ["p"]⟩ [first] := .visit first [] .none uses fun body there => (absent body there).elim
  let q : Profile := loggedIn (intended l) ⟨"a", none⟩ old
  let u : World := ((run ⟨[], []⟩ loginArgs).perform (welcome "a")).2
  let opened : World := { u with profile := q }
  have found := Profile.load_written s.configPath u q (by decide) stored
  have opens := session_starts s u q _ found (show "a" ≠ "" by decide) default_base
  let r : Request := .plain "GET" "/a"
  let t : State := ⟨q, [⟨r, .sending "a" false⟩], [(0, .sent (r.authorized "a"))]⟩
  have moved : (State.start q [r]).step 0 (.start 0) = some t :=
    opaque_sends q r 0 (show Token.expiry? "a" = none from rfl)
  have overlap : Overlap ⟨1, ["p"]⟩ q [r] opened [] t opened := .move [] _ t opened 0 (.start 0) .rest moved rfl
  let v : Visit := .overlapping [] t u opened
  have shares : Shares ⟨1, ["p"]⟩ [v, first] :=
    .visit v [first] begun ⟨s, _, opened, [r], rfl, opens, overlap⟩ fun body there => ⟨first, rfl, there⟩
  have sends : v.Sends (.asked (r.authorized "a")) (· ∈ History.answered []) :=
    .overlapping [] t u opened [] [] 0 _ _ rfl (.inl rfl)
  have shows := authorized_bearer r "a"
  have isolated := session_isolation ⟨1, ["p"]⟩ [] v [first] shares _ _ sends
  exact ⟨v, first, _, _, shares, sends, shows, isolated.1 "a" (by decide) shows⟩
end HostingAdmin
