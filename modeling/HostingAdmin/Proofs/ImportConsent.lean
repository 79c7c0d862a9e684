import HostingAdmin.Proofs.ExitCodes
import HostingAdmin.Proofs.ShownLines
import HostingAdmin.Proofs.UrlPaths

set_option autoImplicit false

namespace HostingAdmin.CommandLine

open HostingAdmin.Action

-- What an import does until the user agrees; nothing comes of it when there is nothing
-- to do, or when the user declines.
def agreed (s : Settings) (place : AppPlace) (folder : String) (strategy : Strategy) (resetCache yes : Bool) :
    Action (Option (Sender × String × Diff)) := do
  let send ← openSession s
  let app ← resolveApp send place
  let d ← findDiff s send place.group app (Path.ofString folder) strategy
  if d.isEmpty && !resetCache then
    inform identical
    return none
  showDiff d
  if !(← isConfirmed d yes) then
    inform "Import cancelled"
    return none
  return some (send, app, d)

def site (place : AppPlace) (folder app : String) : Hosting.Site :=
  ⟨place.group, app, Manifest.filesFolder (Path.ofString folder)⟩

-- What is left to do after that.
def carried (s : Settings) (place : AppPlace) (folder : String) (resetCache : Bool) (wish : Option Int) :
    Option (Sender × String × Diff) → Action Nat
  | none => return 0
  | some (send, app, d) => do
    match ← outcome (Hosting.importAssets (site place folder app) d resetCache send (workerCount s wish)) with
    | .ok () =>
      inform "Successfully imported hosting assets"
      return 0
    | .error (.importing count _) =>
      complain (toString count ++ " error(s) occurred while importing hosting assets")
      return 1
    | .error f => throw f

theorem push_carried (s : Settings) (place : AppPlace) (folder : String) (strategy : Strategy) (resetCache : Bool)
    (wish : Option Int) (yes : Bool) : pushAssets s place folder strategy resetCache wish yes =
      agreed s place folder strategy resetCache yes >>= carried s place folder resetCache wish := by
  simp only [pushAssets, agreed, bind_assoc]
  refine congrArg _ (funext fun send => congrArg _ (funext fun app => congrArg _ (funext fun d => ?_)))
  split
  · simp only [bind_assoc, pure_bind, carried]
  · simp only [bind_assoc]
    refine congrArg _ (funext fun _ => congrArg _ (funext fun consent => ?_))
    split
    · simp only [bind_assoc, pure_bind, carried]
    · simp only [pure_bind, carried]
      rfl

theorem session_linked (s : Settings) (send : Sender) (opened : Gives (openSession s) send) :
    ∃ base, Link.toBase s.baseUrl = .ok (.wire base) ∧
      send = Session.Channel.send ⟨.wire base, Profile.save s.configPath⟩ := by
  obtain ⟨w, v, performed⟩ := opened
  obtain ⟨p, u, _, further⟩ := bind_ok _ _ w v send performed
  obtain ⟨⟨⟩, u', _, further⟩ := bind_ok _ _ u v send further
  obtain ⟨link, x, linked, further⟩ := bind_ok _ _ u' v send further
  obtain ⟨⟨⟩, x', _, last⟩ := bind_ok _ _ x v send further
  have whole := value_ok id _ u' x link linked
  obtain ⟨_, base, _, _, rfl⟩ := Url.linked_parts s.baseUrl link whole
  cases last
  exact ⟨base, whole, rfl⟩

theorem session_wired (s : Settings) (send : Sender) (opened : Gives (openSession s) send) :
    ∃ base, send = Session.Channel.send ⟨.wire base, Profile.save s.configPath⟩ := by
  obtain ⟨base, _, same⟩ := session_linked s send opened
  exact ⟨base, same⟩

section

variable (base : Url) (send : Sender) (sends : ∀ r, Asks base (· = [r]) (send r))

include sends

theorem asked_harmless {α : Type} (e : Endpoint α) (get : e.request.method = "GET") :
    Asks base Harmless (e.call send) := by
  refine asks_weaken _ (call_asks base send sends e) ?_
  rintro rs rfl r member
  rw [List.mem_singleton.mp member]
  exact get

theorem resolve_harmless (place : AppPlace) : Asks base Harmless (resolveApp send place) := by
  have passage := silent_passage
  have looked : ∀ clientAppId : Option String, Asks base Harmless (do
      let app ← App.find send place.group clientAppId
      Action.record .debug "Resolved client app ID"
        [("client_app_id", (clientAppId.map Json.str).getD .null), ("app_id", .str app.id)]
      return app.id) := by
    intro clientAppId
    refine asks_silently _ _ (asks_silently _ _ (asked_harmless base send sends _ rfl) fun apps => ?_) (fun app => ?_)
    · split
      · exact within_pure passage _
      · exact within_throw passage _
    · exact within_bind passage _ _ (within_record passage _ _ _) fun _ => within_pure passage _
  rw [resolveApp]
  dsimp only
  split
  · split
    · exact looked none
    · exact asks_silent _ (within_pure passage _) harmless_none
  · exact looked _

theorem diff_harmless (s : Settings) (group app : String) (folder : Path) (strategy : Strategy) :
    Asks base Harmless (findDiff s send group app folder strategy) := by
  have passage := silent_passage
  have listed : ∀ here, Asks base Harmless (do
      let there ← (Hosting.list group app).call send
      return Diff.between here there (strategy = .merge)) := fun here =>
    asks_silently _ _ (asked_harmless base send sends _ rfl) fun _ => within_pure passage _
  refine silent_asks _ _ (Session.known_within passage _) (fun known _ => ?_) harmless_none
  refine silent_asks _ _ (Session.listing_within passage app folder known) ?_ harmless_none
  rintro ⟨listing, learnt⟩ -
  refine silent_asks _ _ (within_except passage id listing) (fun here _ => ?_) harmless_none
  dsimp only
  split
  · exact silent_asks _ _ (stow_within silent_passage (fun _ _ => ⟨rfl, rfl⟩) learnt _) (fun _ _ => listed here)
      harmless_none
  · exact listed here

end

theorem lines_silent (d : Diff) : Within Silent (showDiff d) :=
  within_each silent_passage d.lines _ fun _ _ => within_modify _ fun _ => ⟨rfl, rfl⟩

theorem inform_silent (line : String) : Within Silent (inform line) := within_modify _ fun _ => ⟨rfl, rfl⟩

theorem confirmed_silent (d : Diff) (yes : Bool) : Within Silent (isConfirmed d yes) := by
  rw [isConfirmed]
  split
  · exact within_pure silent_passage _
  · exact fun _ => ⟨rfl, rfl⟩

theorem opening_silent (s : Settings) : Within Silent (openSession s) :=
  Session.opening_within silent_passage (fun _ _ => ⟨rfl, rfl⟩) s

theorem one_base (s : Settings) : ∃ base, ∀ u, Link.toBase s.baseUrl = .ok (.wire u) → u = base := by
  by_cases wired : ∃ u, Link.toBase s.baseUrl = .ok (.wire u)
  · obtain ⟨base, same⟩ := wired
    exact ⟨base, fun u other => by rw [same] at other; cases other; rfl⟩
  · exact ⟨⟨"", "", "", none, "", none, none⟩, fun u linked => (wired ⟨u, linked⟩).elim⟩

-- Until the user agrees, nothing is asked for but listings.
theorem agreed_harmless (s : Settings) (base : Url) (linked : ∀ u, Link.toBase s.baseUrl = .ok (.wire u) → u = base)
    (place : AppPlace) (folder : String) (strategy : Strategy) (resetCache yes : Bool) :
    Asks base Harmless (agreed s place folder strategy resetCache yes) := by
  have passage := silent_passage
  refine silent_asks _ _ (opening_silent s) (fun send opened => ?_) harmless_none
  obtain ⟨u, wired, rfl⟩ := session_linked s send opened
  obtain rfl := linked u wired
  have sends := send_asks u s.configPath
  refine harmless_bind u _ _ (resolve_harmless u _ sends place) (fun app _ => ?_)
  refine asks_silently _ _ (diff_harmless u _ sends s place.group app _ strategy) (fun d => ?_)
  split
  · exact within_bind passage _ _ (inform_silent _) fun _ => within_pure passage _
  · refine within_bind passage _ _ (lines_silent d) (fun _ => ?_)
    refine within_bind passage _ _ (confirmed_silent d yes) (fun consent => ?_)
    split
    · exact within_bind passage _ _ (inform_silent _) fun _ => within_pure passage _
    · exact within_pure passage _

-- Neither what the user enters nor what is shown to the user changes.
def Mute (w v : World) : Prop := v.input = w.input ∧ v.output = w.output

theorem mute_passage : Passage Mute where
  stay _ := ⟨rfl, rfl⟩
  chain _ _ _ first second := ⟨second.1.trans first.1, second.2.trans first.2⟩
  book _ _ _ := ⟨rfl, rfl⟩

theorem sends_mute (base : Url) (cfg : Path) (r : Request) :
    Within Mute (Session.Channel.send ⟨.wire base, Profile.save cfg⟩ r) :=
  Session.send_within mute_passage _ (fun c => Session.advance_kept mute_passage (fun _ _ => ⟨rfl, rfl⟩)
    (fun _ _ _ => ⟨rfl, rfl⟩) _ (fun p => save_within mute_passage (fun _ _ => ⟨rfl, rfl⟩) cfg p) c) r

theorem diff_within {R : World → World → Prop} (passage : Passage R) (send : Sender)
    (inside : ∀ r : Request, r.Routed → Within R (send r)) (s : Settings)
    (stows : ∀ known : Cache, Within R (known.save s.cachePath)) (group app : String) (folder : Path)
    (strategy : Strategy) : Within R (findDiff s send group app folder strategy) := by
  have listed : ∀ here, Within R (do
      let there ← (Hosting.list group app).call send
      return Diff.between here there (strategy = .merge)) := fun here =>
    within_bind passage _ _ (within_call passage send _ (inside _ (Hosting.listed_routed group app)))
      fun _ => within_pure passage _
  refine within_bind passage _ _ (Session.known_within passage _) (fun known => ?_)
  refine within_bind passage _ _ (Session.listing_within passage app folder known) ?_
  rintro ⟨listing, learnt⟩
  refine within_bind passage _ _ (within_except passage id listing) (fun here => ?_)
  dsimp only
  split
  · exact within_bind passage _ _ (stows learnt) fun _ => listed here
  · exact listed here

theorem diff_between (s : Settings) (send : Sender) (group app : String) (folder : Path) (strategy : Strategy)
    (d : Diff) (found : Gives (findDiff s send group app folder strategy) d) :
    ∃ here there, d = Diff.between here there (strategy = .merge) := by
  obtain ⟨w, v, performed⟩ := found
  obtain ⟨known, u, _, further⟩ := bind_ok _ _ w v d performed
  obtain ⟨⟨listing, learnt⟩, x, _, further⟩ := bind_ok _ _ u v d further
  obtain ⟨here, y, _, further⟩ := bind_ok _ _ x v d further
  have listed : ∀ z, (do
      let there ← (Hosting.list group app).call send
      return Diff.between here there (strategy = .merge) : Action Diff).perform z = (.ok d, v) →
      ∃ here there, d = Diff.between here there (strategy = .merge) := by
    intro z ended
    obtain ⟨there, _, _, last⟩ := bind_ok _ _ z v d ended
    cases last
    exact ⟨here, there, rfl⟩
  dsimp only at further
  split at further
  · obtain ⟨_, z, _, last⟩ := bind_ok _ _ y v d further
    exact listed z last
  · exact listed y further

theorem lines_shown (xs : List String) (w : World) : (xs.forM inform).perform w =
    (.ok (), { w with output := (xs.map (· ++ "\n")).reverse ++ w.output }) := by
  induction xs generalizing w with
  | nil => rfl
  | cons x rest ih =>
      have step : ((x :: rest).forM inform).perform w =
          (rest.forM inform).perform { w with output := (x ++ "\n") :: w.output } := rfl
      rw [step, ih]
      simp

-- The next line of the input is a yes.
def Affirms (input : List Char) : Prop :=
  let answer := String.ofList ((Text.trim Text.isBlank (input.takeWhile (· != '\n'))).map Char.toLower)
  answer = "y" ∨ answer = "yes"

-- What the user has seen and agreed to.
structure Consent (strategy : Strategy) (yes : Bool) (d : Diff) (w u : World) : Prop where
  shown : ∃ before after, u.output = after ++ (d.lines.map (· ++ "\n")).reverse ++ before
  confirmed : d.isEmpty = true ∨ yes = true ∨ Affirms w.input
  merged : strategy = .merge → d.deleted = []
  distinct : ((Hosting.Operation.ofDiff d).map Hosting.Operation.path).Nodup

theorem confirmed_affirms (d : Diff) (yes : Bool) (w u : World)
    (asked : (isConfirmed d yes).perform w = (.ok true, u)) :
    (d.isEmpty = true ∨ yes = true ∨ Affirms w.input) ∧ ∃ after, u.output = after ++ w.output := by
  rw [isConfirmed] at asked
  split at asked
  · rename_i agreed
    cases asked
    rw [Bool.or_eq_true] at agreed
    refine ⟨?_, [], rfl⟩
    rcases agreed with empty | always
    · exact .inl empty
    · exact .inr (.inl always)
  · simp only [confirm, perform_bind, perform_modify, perform_get, perform_set, perform_pure, Prod.mk.injEq,
      Except.ok.injEq, Bool.or_eq_true, decide_eq_true_eq] at asked
    obtain ⟨answer, rfl⟩ := asked
    exact ⟨.inr (.inr answer), [_], rfl⟩

theorem agreed_consent (s : Settings) (place : AppPlace) (folder : String) (strategy : Strategy)
    (resetCache yes : Bool) (send : Sender) (app : String) (d : Diff) (w u : World)
    (performed : (agreed s place folder strategy resetCache yes).perform w = (.ok (some (send, app, d)), u)) :
    Consent strategy yes d w u ∧ ∃ base, Link.toBase s.baseUrl = .ok (.wire base) ∧
      send = Session.Channel.send ⟨.wire base, Profile.save s.configPath⟩ := by
  obtain ⟨send', w1, opened, performed⟩ := bind_ok _ _ w u _ performed
  obtain ⟨base, linked, rfl⟩ := session_linked s send' ⟨w, w1, opened⟩
  obtain ⟨app', w2, resolved, performed⟩ := bind_ok _ _ w1 u _ performed
  obtain ⟨d', w3, found, performed⟩ := bind_ok _ _ w2 u _ performed
  have openedInput : w1.input = w.input := by
    rcases Session.session_opens s w with ⟨f, failed⟩ | ⟨p, link, same, _⟩
    · rw [failed] at opened
      cases opened
    · rw [same] at opened
      rw [← (Prod.mk.inj opened).2]
  have sends := fun (r : Request) (_ : r.Routed) => sends_mute base s.configPath r
  have resolvedInput := Session.resolve_within mute_passage _ sends place w1
  have stows := fun (known : Cache) => stow_within mute_passage (fun _ _ => ⟨rfl, rfl⟩) known s.cachePath
  have foundInput := diff_within mute_passage _ sends s stows place.group app' (Path.ofString folder) strategy w2
  rw [resolved] at resolvedInput
  rw [found] at foundInput
  split at performed
  · obtain ⟨_, _, _, impossible⟩ := bind_ok _ _ w3 u _ performed
    cases impossible
  · obtain ⟨⟨⟩, w4, shown, performed⟩ := bind_ok _ _ w3 u _ performed
    obtain ⟨consent, w5, asked, performed⟩ := bind_ok _ _ w4 u _ performed
    rw [showDiff, lines_shown] at shown
    split at performed
    · obtain ⟨_, _, _, impossible⟩ := bind_ok _ _ w5 u _ performed
      cases impossible
    · rename_i agrees
      cases performed
      cases shown
      have consents : consent = true := by simpa using agrees
      subst consents
      obtain ⟨affirms, after, output⟩ := confirmed_affirms d yes _ _ asked
      obtain ⟨here, there, rfl⟩ := diff_between s _ place.group app _ strategy d ⟨w2, w3, found⟩
      refine ⟨⟨⟨w3.output, after, ?_⟩, ?_, ?_, Hosting.plan_nodup here there _⟩, base, linked, rfl⟩
      · rw [output, List.append_assoc]
      · have same : w3.input = w.input := foundInput.1.trans (resolvedInput.1.trans openedInput)
        rwa [← same]
      · rintro rfl
        rfl

-- Nothing but listings and new tokens has been asked for.
def Unchanging (before after : List Exchange) : Prop :=
  ∃ sent, after = sent ++ before ∧ ∀ e ∈ sent, e.method = "GET" ∨ e.method = "POST"

theorem calls_harmless (base : Url) (server : Server) (before after : List Exchange) (rs : List Request)
    (calls : Calls base server before rs after) (harmless : Harmless rs) : Unchanging before after := by
  induction calls with
  | nothing => exact ⟨[], rfl, fun e member => by cases member⟩
  | call rs r reached sent earlier traffic ih =>
      obtain ⟨old, rfl, fine⟩ := ih fun x member => harmless x (List.mem_append_left _ member)
      have get : r.method = "GET" := harmless r (List.mem_append_right _ (List.mem_singleton.mpr rfl))
      refine ⟨sent ++ old, (List.append_assoc _ _ _).symm, fun e member => ?_⟩
      rcases List.mem_append.mp member with new | older
      · rcases traffic_members base _ r _ sent traffic e new with bears | renews
        · exact .inl (bears_get base r e get bears)
        · exact .inr (renews_post base e renews)
      · exact fine e older

-- What an import sends. When the user does not agree, or it fails before, that changes
-- nothing. Otherwise each call that follows is permitted by a line of its own that was
-- shown, and no order of the workers takes an operation twice.
def Accountable (s : Settings) (place : AppPlace) (folder : String) (strategy : Strategy) (resetCache yes : Bool)
    (w : World) (after : List Exchange) : Prop :=
  match (agreed s place folder strategy resetCache yes).perform w with
  | (.ok (some (_, app, d)), u) =>
    Unchanging w.exchanges u.exchanges ∧ Consent strategy yes d w u ∧
    (∃ base rs, Link.toBase s.baseUrl = .ok (.wire base) ∧ Calls base w.server u.exchanges rs after ∧
      Hosting.Permitted (site place folder app) d.lines resetCache rs ∧
      (strategy = .merge → ∀ r ∈ rs, r.method ≠ "DELETE")) ∧
    ∀ n b, Hosting.Batch.Run (Hosting.Batch.start n (Hosting.Operation.ofDiff d) resetCache) b →
      b.pool.taken <+: Hosting.Operation.ofDiff d ∧
      (b.pool.finished.map Prod.fst).Subperm b.pool.taken ∧
      (b.forgotten = [] ∨ resetCache = true ∧ b.forgotten = [Hosting.allPaths])
  | _ => Unchanging w.exchanges after

open Hosting Hosting.Batch in
theorem run_once (n : Nat) (ops : List Operation) (resetCache : Bool) (b : Batch Operation)
    (run : Run (start n ops resetCache) b) : b.pool.taken <+: ops ∧
      (b.pool.finished.map Prod.fst).Subperm b.pool.taken ∧
      (b.forgotten = [] ∨ resetCache = true ∧ b.forgotten = [allPaths]) := by
  have account := run_account n ops resetCache b run
  have wished := run_resetCache n ops resetCache b run
  obtain ⟨ahead, marks, _, whole, _⟩ := account.tally.line
  have staged := account.staged
  refine ⟨⟨ahead, whole⟩, ?_, ?_⟩
  · exact (List.sublist_append_left _ _).subperm.trans account.tally.accounted.subperm
  · cases stageEq : b.stage with
    | working =>
        rw [stageEq] at staged
        exact .inl staged.2.2
    | draining =>
        rw [stageEq] at staged
        exact .inl staged.2
    | clearing =>
        rw [stageEq] at staged
        exact .inr ⟨wished ▸ staged.2.2.1, staged.2.2.2⟩
    | ended e =>
        rw [stageEq] at staged
        cases e with
        | clean =>
            have forgotten := staged.2.2
            split at forgotten
            · rename_i reset
              exact .inr ⟨wished ▸ reset, forgotten⟩
            · exact .inl forgotten
        | failed count first => exact .inl staged.2.2.2
        | refused f => exact .inr ⟨wished ▸ staged.2.2.1, staged.2.2.2⟩

theorem push_accountable (s : Settings) (place : AppPlace) (folder : String) (strategy : Strategy)
    (resetCache : Bool) (wish : Option Int) (yes : Bool) (w : World) :
    Accountable s place folder strategy resetCache yes w
      ((pushAssets s place folder strategy resetCache wish yes).perform w).2.exchanges := by
  obtain ⟨base, only⟩ := one_base s
  obtain ⟨server, rs, calls, harmless⟩ := agreed_harmless s base only place folder strategy resetCache yes w
  have unchanging := calls_harmless base _ _ _ rs calls harmless
  rw [push_carried, perform_bind, Accountable]
  rcases performed : (agreed s place folder strategy resetCache yes).perform w with ⟨f | _ | ⟨send, app, d⟩, u⟩
  · rw [performed] at unchanging
    exact unchanging
  · rw [performed] at unchanging
    exact unchanging
  · rw [performed] at unchanging server
    obtain ⟨consent, base, linked, rfl⟩ :=
      agreed_consent s place folder strategy resetCache yes send app d w u performed
    have imported := Hosting.import_charges base (site place folder app) _ (send_asks base s.configPath)
      (workerCount s wish) resetCache d
    have carries : Asks base (Hosting.Charges (site place folder app) (Hosting.Operation.ofDiff d) resetCache)
        (carried s place folder resetCache wish
          (some (Session.Channel.send ⟨.wire base, Profile.save s.configPath⟩, app, d))) := by
      refine asks_silently _ _ (show Asks base _ (outcome _) from imported) (fun result => ?_)
      split
      · exact within_bind silent_passage _ _ (inform_silent _) fun _ => within_pure silent_passage _
      · exact within_bind silent_passage _ _ (within_modify _ fun _ => ⟨rfl, rfl⟩) fun _ => within_pure silent_passage _
      · exact within_throw silent_passage _
    obtain ⟨_, ss, more, charges⟩ := carries u
    rw [server] at more
    have permitted := Hosting.charges_permitted (site place folder app) d resetCache ss consent.distinct charges
    have kept := fun merging =>
      Hosting.undeleted (site place folder app) d resetCache ss (consent.merged merging) charges
    exact ⟨unchanging, consent, ⟨base, ss, linked, more, permitted, kept⟩, fun n b run => run_once n _ resetCache b run⟩

theorem logged_exchanges (w u : World) (logged : Logged w u) : u.exchanges = w.exchanges := by
  obtain ⟨_, _, rfl⟩ := logged
  rfl

theorem invocation_sends (e : Environment) (i : Invocation) (w : World) :
    match ((Settings.load e i.overrides).perform w).1 with
    | .error _ => ((i.run e).perform w).2.exchanges = w.exchanges
    | .ok s => ∃ u, Logged w u ∧
        ((i.run e).perform w).2.exchanges = ((i.command.run s).perform u).2.exchanges := by
  have passage := logged_passage
  have read := settings_within passage e i.overrides w
  rw [Invocation.run, perform_bind, perform_outcome]
  rcases loaded : (Settings.load e i.overrides).perform w with ⟨f | s, u⟩
  · rw [loaded] at read
    refine (Eq.trans ?_) (logged_exchanges w u read)
    dsimp only
    split
    · rfl
    · rfl
    · rename_i same
      cases same
  · rw [loaded] at read
    let v : World := { u with
      log := { u.log with threshold := Level.threshold s.logLevel, asJson := s.jsonLogs, correlation := "" } }
    obtain ⟨id, x, correlated⟩ := correlation_succeeds v
    obtain ⟨y, recorded, second⟩ := record_within passage .debug "Running command" [("command", .str i.command.word)] x
    have first := within_correlation passage v
    rw [correlated] at first
    have started : Logged w y :=
      passage.chain _ _ _ (passage.chain _ _ _ (passage.chain _ _ _ read ⟨u.marks, v.log, rfl⟩) first) second
    refine ⟨y, started, ?_⟩
    dsimp only
    rw [perform_bind, show (configureLog s.logLevel s.jsonLogs).perform u = (.ok (), _) from rfl]
    dsimp only
    rw [perform_bind, show (setCorrelation "").perform _ = (.ok (), v) from rfl]
    dsimp only
    rw [perform_bind, correlated]
    dsimp only
    rw [perform_bind, recorded]
    dsimp only
    rw [perform_bind, perform_outcome]
    dsimp only
    generalize (i.command.run s).perform y = ended
    obtain ⟨result, z⟩ := ended
    dsimp only
    split
    · rfl
    · rfl
    · split
      · refine (within_bind silent_passage _ _ (within_record silent_passage _ _ _) (fun _ => ?_) z).1
        exact within_bind silent_passage _ _ (within_modify _ fun _ => ⟨rfl, rfl⟩) fun _ => within_pure silent_passage _
      · rfl

-- An import asked for on the command line is accountable. Nothing else is sent.
theorem import_confirmed (e : Environment) (args : List String) (i : Invocation) (place : AppPlace) (folder : String)
    (strategy : Strategy) (resetCache : Bool) (wish : Option Int) (yes : Bool)
    (accepted : Invocation.parse args = .ok i)
    (asked : i.command = .importAssets place folder strategy resetCache wish yes) (w : World) :
    match ((Settings.load e i.overrides).perform w).1 with
    | .error _ => ((run e args).perform w).2.exchanges = w.exchanges
    | .ok s => ∃ u, Logged w u ∧
        Accountable s place folder strategy resetCache yes u ((run e args).perform w).2.exchanges := by
  have sends := invocation_sends e i w
  rw [run, accepted]
  dsimp only
  cases loaded : ((Settings.load e i.overrides).perform w).1 with
  | error f =>
      rw [loaded] at sends
      exact sends
  | ok s =>
      rw [loaded] at sends
      obtain ⟨u, logged, same⟩ := sends
      refine ⟨u, logged, ?_⟩
      rw [same, asked]
      exact push_accountable s place folder strategy resetCache wish yes u

-- An app folder with one file that the server knows, and a new one.
def draftTree : FileTree :=
  ⟨.folder [("home", .folder [(".config", .folder [("realm-cli", .folder [("profile.json",
      .file (Text.utf8 "\x7b\"username\":\"u\",\"access_token\":\"t\",\"refresh_token\":\"r\"\x7d") 0)])])]),
    ("app", .folder [("hosting", .folder [("files", .folder [("new.txt", .file [0x61] 0),
      ("same.txt", .file [0x62] 0)])])])], ["app"]⟩

-- It lists the file that it knows, and one more.
def draftServer : Server := fun _ e =>
  if e.method = "GET" then .ok ⟨200, [], Text.utf8 ("[\x7b\"appId\":\"a\",\"path\":\"/same.txt\"," ++
    "\"hash\":\"92eb5ffee6ae2fec3ad71c777531578f\",\"size\":1,\"attrs\":[],\"lastModified\":0,\"url\":\"\"\x7d," ++
    "\x7b\"appId\":\"a\",\"path\":\"/old.txt\",\"hash\":\"x\",\"size\":1,\"attrs\":[],\"lastModified\":0," ++
    "\"url\":\"\"\x7d]")⟩
  else .ok ⟨204, [], []⟩

def draftWorld : World := { World.start draftTree draftServer with input := ['y', '\n'] }

-- Merging a file to upload, a file to describe anew and a file to keep, with a yes.
theorem import_confirmed_merging : ∃ e args i place folder s u, Invocation.parse args = .ok i ∧
    i.command = .importAssets place folder .merge false none false ∧
    ((Settings.load e i.overrides).perform draftWorld).1 = .ok s ∧ Logged draftWorld u ∧
    Accountable s place folder .merge false false u ((run e args).perform draftWorld).2.exchanges := by
  have sends := import_confirmed ⟨[("HOME", "/home")], []⟩
    ["hosting", "import", "--group-id", "g", "--app-id", "a", "--strategy", "merge"]
    ⟨none, none, none, false, .importAssets ⟨"g", .id "a"⟩ "." .merge false none false⟩ ⟨"g", .id "a"⟩ "." .merge false
    none false rfl rfl draftWorld
  obtain ⟨u, logged, accountable⟩ := sends
  exact ⟨_, _, _, _, _, _, u, rfl, rfl, rfl, logged, accountable⟩

end HostingAdmin.CommandLine
