import HostingAdmin.Proofs.ImportSteps
import HostingAdmin.Proofs.SessionFile

set_option autoImplicit false

namespace HostingAdmin.Session

open CommandLine

section

variable {R : World → World → Prop} (passage : Action.Passage R)

include passage

theorem node_within (p : Path) : Action.Within R (Action.nodeAt? p) := by
  rw [Action.nodeAt?]
  split
  · exact Action.within_pure passage _
  · apply Action.within_bind passage _ _ (Action.within_get passage)
    intro w
    split
    · exact Action.within_pure passage _
    · split
      · exact Action.within_throw passage _
      · exact Action.within_pure passage _

theorem exists_within (p : Path) : Action.Within R (Action.fileExists p) :=
  Action.within_bind passage _ _ (node_within passage p) fun _ => Action.within_pure passage _

theorem folder_within (p : Path) : Action.Within R (Action.folderExists p) :=
  Action.within_bind passage _ _ (node_within passage p) fun _ => Action.within_pure passage _

theorem known_within (p : Path) : Action.Within R (Cache.load p) := by
  apply Action.within_bind passage _ _ (exists_within passage p)
  intro there
  split
  · apply Action.within_bind passage _ _ (Action.within_load passage p)
    intro body
    split
    · exact Action.within_pure passage _
    · exact Action.within_bind passage _ _ (Action.within_record passage _ _ _) fun _ => Action.within_pure passage _
  · exact Action.within_pure passage _

theorem listing_within (app : String) (folder : Path) (known : Cache) :
    Action.Within R (Listing.ofApp app folder known) := by
  have described : Action.Within R (Manifest.load (Manifest.location folder)) := by
    apply Action.within_bind passage _ _ (Action.within_load passage _)
    intro body
    exact Action.within_bind passage _ _ (Action.within_except passage _ _) fun _ => Action.within_pure passage _
  have listed : ∀ ds, Action.Within R (Listing.run app (Manifest.filesFolder folder) ds known) := by
    intro ds
    apply Action.within_bind passage _ _ (folder_within passage _)
    intro there
    split
    · apply Action.within_bind passage _ _ (Action.within_get passage)
      intro w
      split
      dsimp only
      split
      · exact Action.within_bind passage _ _ (Action.within_record passage _ _ _) fun _ => Action.within_pure passage _
      · exact Action.within_pure passage _
    · exact Action.within_pure passage _
  apply Action.within_bind passage _ _ (exists_within passage _)
  intro there
  split
  · exact Action.within_bind passage _ _ described listed
  · exact Action.within_bind passage _ _ (Action.within_pure passage _) listed

variable (send : Sender) (inside : ∀ r : Request, r.Routed → Action.Within R (send r))

include inside

theorem resolve_within (place : AppPlace) : Action.Within R (resolveApp send place) := by
  have found : ∀ clientAppId, Action.Within R (App.find send place.group clientAppId) := by
    intro clientAppId
    apply Action.within_bind passage _ _ (Action.within_call passage send _ (inside _ (App.listed_routed place.group)))
    intro apps
    split
    · exact Action.within_pure passage _
    · exact Action.within_throw passage _
  have looked : ∀ clientAppId : Option String, Action.Within R (do
      let app ← App.find send place.group clientAppId
      Action.record .debug "Resolved client app ID"
        [("client_app_id", (clientAppId.map Json.str).getD .null), ("app_id", .str app.id)]
      return app.id) := by
    intro clientAppId
    apply Action.within_bind passage _ _ (found clientAppId)
    intro app
    exact Action.within_bind passage _ _ (Action.within_record passage _ _ _) (fun _ => Action.within_pure passage _)
  rw [resolveApp]
  dsimp only
  split
  · split
    · exact looked none
    · exact Action.within_pure passage _
  · exact looked _

theorem secret_within (group app : String) (sel : Secret.Selector) :
    Action.Within R (Secret.find send group app sel) := by
  apply Action.within_bind passage _ _ (Action.within_call passage send _ (inside _ (Secret.listed_routed group app)))
  intro secrets
  split
  · exact Action.within_pure passage _
  · exact Action.within_throw passage _

end

theorem cache_beside (s : Settings) :
    s.cachePath = { s.configPath with parts := s.configPath.parent.parts ++ [".asset-cache.json"] } := by
  have name : Path.ofString ".asset-cache.json" = ⟨0, [".asset-cache.json"]⟩ := by decide
  rw [Settings.cachePath, Path.append, name]
  rfl

end HostingAdmin.Session
