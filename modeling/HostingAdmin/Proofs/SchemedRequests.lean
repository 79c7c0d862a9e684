import HostingAdmin.Proofs.BaseUrls
import HostingAdmin.Proofs.CheckedValues
import HostingAdmin.Proofs.SessionCommands

set_option autoImplicit false

namespace HostingAdmin

open HostingAdmin.Action

namespace Settings

-- The base that is asked for: on the command line, or else in the environment.
def chosen? (e : Environment) (i : CommandLine.Invocation) : Option String :=
  i.baseUrl.or ((named e.vars).lookup "base_url")

theorem checked_base (given : Members Json) (s : Settings) (checked : check given = .ok s) :
    ∃ v, s.baseUrl = normalUrl v ∧ ∀ text, given.lookup "base_url" = some (.str text) → v = text := by
  obtain ⟨_, json, levelled, _, rfl⟩ := checked_and _ _ s checked
  obtain ⟨_, level, timed, _, rfl⟩ := checked_and _ _ _ levelled
  obtain ⟨_, timeout, manned, _, rfl⟩ := checked_and _ _ _ timed
  obtain ⟨_, workers, placed, _, rfl⟩ := checked_and _ _ _ manned
  obtain ⟨_, path, based, _, rfl⟩ := checked_and _ _ _ placed
  obtain ⟨_, base, made, read, rfl⟩ := checked_and _ _ _ based
  cases made
  cases field : Check.optional given ["base_url"] Check.string defaultBaseUrl with
  | error faults =>
      rw [field] at read
      cases read
  | ok v =>
      rw [field] at read
      have same : normalUrl v = base := Except.ok.inj read
      refine ⟨v, same.symm, fun text found => ?_⟩
      simp only [Check.optional, Check.field, List.findSome?_cons, found] at field
      cases field
      rfl

-- What the command line leaves out is passed over.
def isGiven (o : String × Json) : Bool := !(o.2 matches .null)

theorem given_other (ms : Members Json) (key : String) (other : ∀ m ∈ ms, m.1 ≠ key) :
    (ms.filter isGiven).lookup key = none := by
  rw [List.lookup_eq_none_iff]
  intro m member
  exact bne_iff_ne.mpr (other m (List.mem_of_mem_filter member)).symm

theorem overrides_base (i : CommandLine.Invocation) :
    (i.overrides.filter isGiven).lookup "base_url" = i.baseUrl.map Json.str := by
  obtain ⟨others, whole, apart⟩ : ∃ others, i.overrides = ("base_url", (i.baseUrl.map Json.str).getD .null) :: others ∧
      ∀ m ∈ others, m.1 ≠ "base_url" := ⟨_, rfl, by simp⟩
  rw [whole]
  cases i.baseUrl with
  | none => exact given_other others "base_url" apart
  | some text => rfl

theorem given_base (e : Environment) (i : CommandLine.Invocation) (file : Members Json) (text : String)
    (chosen : chosen? e i = some text) : ((i.overrides.filter isGiven ++
      (named e.vars).map (fun v => (v.1, Json.str v.2)) ++ file).lookup "base_url") = some (.str text) := by
  rw [List.lookup_append, List.lookup_append, overrides_base, Members.lookup_values, ← Option.map_or, ← chosen?, chosen]
  rfl

theorem values_base (e : Environment) (given : Members Json) (s : Settings) (read : ofValues e given = .ok s) :
    ∃ v, s.baseUrl = normalUrl v ∧ ∀ text, given.lookup "base_url" = some (.str text) → v = text := by
  rw [ofValues] at read
  cases expanded : (Check.optional given ["config_path"] checkPath defaultConfigPath).toOption.getD .here |>
      e.expandHome with
  | error f =>
      rw [expanded] at read
      cases read
  | ok path =>
      rw [expanded] at read
      cases checked : check given with
      | error faults =>
          rw [checked] at read
          cases read
      | ok settings =>
          rw [checked] at read
          cases read
          exact checked_base given settings checked

theorem loaded_base (e : Environment) (i : CommandLine.Invocation) (w : World) (s : Settings)
    (loaded : ((load e i.overrides).perform w).1 = .ok s) :
    ∃ v, s.baseUrl = normalUrl v ∧ ∀ text, chosen? e i = some text → v = text := by
  obtain ⟨file, u, _, read⟩ := bind_ok _ _ w _ s (Prod.ext loaded rfl)
  obtain ⟨v, same, given⟩ := values_base e _ s (value_ok id _ u _ s read)
  exact ⟨v, same, fun text chosen => given text (given_base e i file text chosen)⟩

end Settings

namespace CommandLine

open Settings

-- What a command sends when a text is its base: requests below it, with its scheme, and for an
-- export requests for contents, which go where the listing says.
inductive Schemed (v : String) (c : Command) : Exchange → Prop where
  | below (base : Url) (q : Request) (r : WireRequest) (linked : Link.toBase (normalUrl v) = .ok (.wire base))
      (built : Wire.build base Exchange.client q = .ok r) (same : r.url.scheme = scheme v)
      (nowhere : Nameless v → r.url.host = "") : Schemed v c (.sent r)
  | contents (place : AppPlace) (folder : String) (wish : Option Int) (exports : c = .exportAssets place folder wish)
      (r : WireRequest) (bare : r.Bare) : Schemed v c (.sent r)

section

variable (s : Settings) (v : String) (c : Command) (normal : s.baseUrl = normalUrl v)

theorem schemed_lenient : Lenient (Adds (Schemed v c)) where
  passage := adds_passage _
  tells w _ := adds_kept _ w _ rfl
  complains w _ := adds_kept _ w _ rfl
  hears w _ _ := adds_kept _ w _ rfl

theorem seeks_from_root (r q : Request) (routed : r.Routed) (seeks : Session.Seeks r q) : Url.FromRoot q.path := by
  cases seeks with
  | own token => exact routed.fromRoot
  | renewal p => exact show "/auth/session".toList.head? = some '/' from rfl

include normal

theorem send_schemed (base : Url) (linked : Link.toBase s.baseUrl = .ok (.wire base)) (r : Request)
    (routed : r.Routed) :
    Within (Adds (Schemed v c)) (Session.Channel.send ⟨.wire base, Profile.save s.configPath⟩ r) := by
  rw [normal] at linked
  refine send_adds _ base s.configPath r (fun q sent seeks built => ?_)
  obtain ⟨same, nowhere⟩ := sent_schemed v base linked q (seeks_from_root r q routed seeks) sent built
  exact .below base q sent linked built same nowhere

theorem session_schemed (needs : c.needsSession = true) : Within (Adds (Schemed v c)) (c.run s) := by
  have passage := adds_passage (Schemed v c)
  obtain ⟨body, whole, steps⟩ := session_body s c needs
  rw [whole]
  have opens := Session.opening_within passage (fun w _ => adds_kept _ w _ rfl) s
  refine within_then passage _ _ opens (fun w send u opened => ?_)
  obtain ⟨base, linked, rfl⟩ := session_linked s send ⟨w, u, opened⟩
  have inside := send_schemed s v c normal base linked
  have stows := fun known : Cache => stow_within passage (fun w _ => adds_kept _ w _ rfl) known s.cachePath
  have writes : c.Writes s (Session.Channel.send ⟨.wire base, Profile.save s.configPath⟩) (Adds (Schemed v c)) := by
    cases c with
    | diffAssets place folder strategy => exact stows
    | importAssets place folder strategy resetCache wish yes => exact stows
    | exportAssets place folder wish =>
        have asks : ∀ w (r : WireRequest), r.Bare → Adds (Schemed v (.exportAssets place folder wish)) w
            { w with exchanges := .sent r :: w.exchanges } := fun w r bare =>
          ⟨[.sent r], rfl, List.forall_mem_singleton.mpr (.contents place folder wish rfl r bare)⟩
        exact fun group app style => Hosting.export_within passage (fun w _ => adds_kept _ w _ rfl) asks
          (fun w _ => adds_kept _ w _ rfl) (fun w _ => adds_kept _ w _ rfl) _ inside group app _ style
    | _ => trivial
  exact steps _ (schemed_lenient v c) _ inside writes u

theorem login_schemed (l : Login) : Within (Adds (Schemed v c)) (logIn s l) := by
  have passage := adds_passage (Schemed v c)
  refine login_lenient (schemed_lenient v c) (fun w _ => adds_kept _ w _ rfl) s l (fun base linked => ?_)
  rw [normal] at linked
  refine within_wire passage base _ (fun w sent built => ?_)
  obtain ⟨same, nowhere⟩ := sent_schemed v base linked _ (Account.logged_routed l).fromRoot sent built
  exact ⟨[.sent sent], rfl, List.forall_mem_singleton.mpr (.below base _ sent linked built same nowhere)⟩

theorem command_schemed : Within (Adds (Schemed v c)) (c.run s) := by
  have passage := adds_passage (Schemed v c)
  have told := inform_lenient (schemed_lenient v c)
  have finished : ∀ a : Action Unit, Within (Adds (Schemed v c)) a → Within (Adds (Schemed v c)) (well a) :=
    fun a inside => within_bind passage _ _ inside fun _ => within_pure passage 0
  cases c with
  | login l => exact finished _ (login_schemed s v _ normal _)
  | logout =>
      have cleared := save_within passage (fun w _ => adds_kept _ w _ rfl) s.configPath .empty
      exact finished _ (within_bind passage _ _ cleared fun _ => told _)
  | whoami =>
      have loads := Profile.load_within passage s.configPath
      exact finished _ (within_bind passage _ _ loads fun p => told _)
  | _ => exact session_schemed s v _ normal rfl

end

-- The texts that name nothing are the ones that normalising leaves without a scheme. Even then each request of
-- a run has the scheme of the base that was asked for.
theorem bases_normal (e : Environment) (args : List String) (w : World) : (∀ v, Normal v) ∧
    (((run e args).perform w).2.exchanges = w.exchanges ∨
      ∃ i s v, Invocation.parse args = .ok i ∧ ((Settings.load e i.overrides).perform w).1 = .ok s ∧
        s.baseUrl = normalUrl v ∧ (∀ text, chosen? e i = some text → v = text) ∧
        Adds (Schemed v i.command) w ((run e args).perform w).2) := by
  refine ⟨normal_text, ?_⟩
  rw [run]
  cases parsed : Invocation.parse args with
  | error stop =>
      left
      cases stop <;> rfl
  | ok i =>
      dsimp only
      have sends := invocation_sends e i w
      cases loaded : ((Settings.load e i.overrides).perform w).1 with
      | error f =>
          rw [loaded] at sends
          exact .inl sends
      | ok s =>
          rw [loaded] at sends
          obtain ⟨u, logged, same⟩ := sends
          obtain ⟨v, normal, given⟩ := loaded_base e i w s loaded
          obtain ⟨sent, added, each⟩ := command_schemed s v i.command normal u
          refine .inr ⟨i, s, v, rfl, loaded, normal, given, sent, ?_, each⟩
          rw [same, added, logged_exchanges w u logged]

example : normalUrl "" = "https:" ∧ normalUrl "https:" = "https://https:" := by decide

end CommandLine

end HostingAdmin
