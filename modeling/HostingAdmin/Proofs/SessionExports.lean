import HostingAdmin.Proofs.BearerTokens
import HostingAdmin.Proofs.TendedCommands

set_option autoImplicit false

namespace HostingAdmin

open Hosting

namespace Session

open HostingAdmin.Action

-- The profile file holds known tokens.
def Stored (server : Server) (p : Profile) (cfg : Path) (w : World) : Prop :=
  ∃ q : Profile, w.files.read cfg = .ok q.fileText ∧ Known server p w.exchanges q.accessToken ∧
    Known server p w.exchanges q.refreshToken

structure Shelved (server : Server) (p : Profile) (cfg : Path) (origin : FileTree) (w : World) : Prop where
  wary : Wary server p w
  linked : origin.Linked w.files
  stored : Stored server p cfg w

theorem wary_fetches (server : Server) (p : Profile) (w : World) (r : WireRequest) (bare : r.Bare)
    (wary : Wary server p w) : Wary server p { w with exchanges := .sent r :: w.exchanges } := by
  have silent : ∀ token, (Exchange.sent r).authorization? = some ("Bearer " ++ token) →
      Known server p w.exchanges token := by
    intro token shows
    rw [Exchange.bare_wire r bare] at shows
    cases shows
  exact wary_sends server p w _ (.sent r) wary rfl rfl rfl silent

section

variable (server : Server) (p : Profile) (cfg : Path) (origin : FileTree)

theorem stored_later (w v : World) (grown : w.exchanges <:+ v.exchanges)
    (same : v.files.read cfg = w.files.read cfg) (stored : Stored server p cfg w) : Stored server p cfg v := by
  obtain ⟨q, there, access, refresh⟩ := stored
  exact ⟨q, same.trans there, known_later server p _ _ _ grown access, known_later server p _ _ _ grown refresh⟩

theorem shelved_quiet : Quiet (Shelved server p cfg origin) := by
  intro w v serves exchanges profile _ files shelved
  exact ⟨wary_same server p w v serves exchanges profile shelved.wary, files ▸ shelved.linked,
    stored_later server p cfg w v (exchanges ▸ List.suffix_rfl) (by rw [files]) shelved.stored⟩

theorem shelved_sparing : Sparing server cfg origin (Shelved server p cfg origin) where
  quiet := shelved_quiet server p cfg origin
  serves _ shelved := shelved.wary.serves
  linked _ shelved := shelved.linked
  held := fun _ ⟨_, _, q, there, _⟩ => ⟨q.fileText, there⟩
  fetches w r bare shelved :=
    ⟨wary_fetches server p w r bare shelved.wary, shelved.linked,
      stored_later server p cfg w _ (List.suffix_cons _ _) rfl shelved.stored⟩
  writes w files linked same shelved :=
    ⟨wary_same server p w _ rfl rfl rfl shelved.wary,
      FileTree.linked_chain origin w.files files shelved.linked linked,
      stored_later server p cfg w _ List.suffix_rfl same shelved.stored⟩

variable (named : cfg.parts ≠ [])

include named

variable (base : Url) (clean : hasNull cfg = false)

include clean

theorem send_shelved (r : Request) (modest : r.Modest) :
    Within (fun w v => Shelved server p cfg origin w → Shelved server p cfg origin v)
      (Channel.send ⟨.wire base, Profile.save cfg⟩ r) := by
  intro w shelved
  obtain ⟨q, there, access, refresh⟩ := shelved.stored
  have wary := send_wary server p base cfg r modest w shelved.wary
  have works := send_works ⟨.wire base, Profile.save cfg⟩ cfg r w
  obtain ⟨_, fresh, _, profile, file⟩ := works_keeps (.wire base) cfg w _ works ⟨clean, named, _, there⟩
  have grown := send_within grows_passage ⟨.wire base, Profile.save cfg⟩
    (fun c => advance_kept grows_passage grows_sends (fun _ _ _ => ⟨rfl, List.suffix_rfl⟩) _
      (fun q => save_within grows_passage grows_writes cfg q) c) r w
  have linked := send_linked cfg named base r w
  refine ⟨wary, FileTree.linked_chain origin w.files _ shelved.linked linked, ?_⟩
  cases fresh with
  | nil => exact stored_later server p cfg w _ grown.2 file shelved.stored
  | cons t earlier => exact ⟨_, file, wary.access, wary.refresh⟩

omit clean in
theorem cache_shelved (s : Settings) (apart : origin.Apart cfg s.cachePath) (known : Cache) :
    Within (fun w v => Shelved server p cfg origin w → Shelved server p cfg origin v) (known.save s.cachePath) := by
  have spares := shelved_sparing server p cfg origin
  have passage := (quiet_lenient _ spares.quiet).passage
  have below : s.cachePath.parts ≠ [] := by simp [cache_beside]
  apply within_bind passage _ _ (build_spares spares _)
  intro _
  apply within_bind passage _ _ (place_spares spares named _ _ apart (.inl below))
  exact fun _ => within_pure passage _

end

end Session

open Session

namespace CommandLine

open HostingAdmin.Action

-- What a command writes for itself is not the profile file.
def Command.Spares (s : Settings) (w : World) : Command → Prop
  | .diffAssets _ _ _ => w.files.Apart s.configPath s.cachePath
  | .importAssets _ _ _ _ _ _ => w.files.Apart s.configPath s.cachePath
  | .exportAssets _ folder _ => Clear w.server w.files s.configPath (Path.ofString folder)
  | _ => True

theorem session_user (s : Settings) (w v : World) (send : Sender) (p : Profile)
    (loaded : (Profile.load s.configPath).perform w = (.ok p, w))
    (opened : (openSession s).perform w = (.ok send, v)) : p.accessToken ≠ "" := by
  intro nobody
  have refused : p.requireLogin = .error .notLoggedIn := by
    simp [Profile.requireLogin, Profile.isLoggedIn, nobody]
  rw [openSession, perform_bind, loaded] at opened
  dsimp only at opened
  rw [perform_bind, refused] at opened
  cases opened

-- A session that finds a profile sends known tokens only, and leaves a profile with known tokens.
theorem session_shelved (s : Settings) (c : Command) (w : World) (needs : c.needsSession = true)
    (spares : c.Spares s w) (fresh : w.exchanges = []) :
    (∃ f, (c.run s).perform w = (.error f, w)) ∨ hasNull s.configPath = false ∧
      ∃ body, w.files.read s.configPath = .ok body ∧ ∀ p : Profile, s.configPath.parts ≠ [] → body = p.fileText →
        p.accessToken ≠ "" ∧ Shelved w.server p s.configPath w.files ((c.run s).perform w).2 := by
  obtain ⟨body, whole, steps⟩ := session_body s c needs
  rw [whole]
  rcases session_opens s w with ⟨f, failed⟩ | ⟨q, link, opened, loaded, clean, text, there⟩
  · exact .inl ⟨f, by rw [perform_bind, failed]⟩
  · refine .inr ⟨clean, text, there, fun p named same => ?_⟩
    rw [same] at there
    have stored := Profile.load_written s.configPath w p clean there
    rw [stored, Prod.mk.injEq, Except.ok.injEq] at loaded
    obtain ⟨rfl, _⟩ := loaded
    obtain ⟨base, wired⟩ := session_wired s _ ⟨w, _, opened⟩
    have inside := fun (r : Request) (routed : r.Routed) =>
      send_shelved w.server p s.configPath w.files named base clean r routed.modest
    have writes : c.Writes s (Channel.send ⟨.wire base, Profile.save s.configPath⟩)
        (fun u v => Shelved w.server p s.configPath w.files u → Shelved w.server p s.configPath w.files v) := by
      cases c with
      | diffAssets place folder strategy => exact cache_shelved w.server p s.configPath w.files named s spares
      | importAssets place folder strategy resetCache wish yes =>
          exact cache_shelved w.server p s.configPath w.files named s spares
      | exportAssets place folder wish =>
          intro group app style
          exact export_spares (shelved_sparing w.server p s.configPath w.files) named _ inside
            (send_given w.server s.configPath base) group app _ style spares
      | _ => trivial
    have began : Shelved w.server p s.configPath w.files { w with profile := p } :=
      ⟨⟨rfl, by simp [fresh, Signed], .inl rfl, .inr (.inl rfl)⟩, FileTree.linked_stay w.files,
        p, there, .inl rfl, .inr (.inl rfl)⟩
    have ended := steps _ (quiet_lenient _ (shelved_quiet w.server p s.configPath w.files)) _ inside writes _ began
    have user := session_user s w _ _ p stored opened
    rw [perform_bind, opened, wired]
    exact ⟨user, ended⟩

end CommandLine

end HostingAdmin
