import HostingAdmin.Proofs.ExportSteps
import HostingAdmin.Proofs.ImportConsent

set_option autoImplicit false

namespace HostingAdmin

open HostingAdmin.Action

namespace CommandLine

def Command.needsSession : Command → Bool
  | .login _ | .logout | .whoami => false
  | _ => true

-- What a command writes besides the profile stays within a relation.
def Command.Writes (s : Settings) (send : Sender) (R : World → World → Prop) : Command → Prop
  | .diffAssets _ _ _ => ∀ known : Cache, Within R (known.save s.cachePath)
  | .importAssets _ _ _ _ _ _ => ∀ known : Cache, Within R (known.save s.cachePath)
  | .exportAssets _ folder _ =>
      ∀ group app style, Within R (Hosting.exportAssets send group app (Path.ofString folder) style)
  | _ => True

section

variable {R : World → World → Prop} (lenient : Lenient R) (send : Sender)
  (inside : ∀ r : Request, r.Routed → Within R (send r))

include lenient

theorem inform_lenient (line : String) : Within R (inform line) := within_modify _ fun w => lenient.tells w _

theorem confirmed_lenient (d : Diff) (yes : Bool) : Within R (isConfirmed d yes) := by
  rw [isConfirmed]
  split
  · exact within_pure lenient.passage _
  · exact fun w => lenient.hears w _ _

theorem login_lenient (writes : ∀ w files, R w { w with files }) (s : Settings) (l : Login)
    (asks : ∀ base, Link.toBase s.baseUrl = .ok (.wire base) →
      Within R ((Link.wire base).send (Account.logIn l).request)) : Within R (logIn s l) := by
  have passage := lenient.passage
  have admitted : Within R (do
      let link ← ofExcept id (Link.toBase s.baseUrl)
      let tokens ← (Account.logIn l).call link.send
      let old ← Profile.load s.configPath
      Profile.save s.configPath (loggedIn l tokens old)
      inform ("Successfully logged in as " ++ l.username)) := by
    refine within_value passage id _ _ (fun link linked => ?_)
    obtain ⟨_, base, _, _, rfl⟩ := Url.linked_parts _ link linked
    refine within_bind passage _ _ (within_call passage _ _ (asks base linked)) (fun tokens => ?_)
    refine within_bind passage _ _ (Profile.load_within passage s.configPath) (fun old => ?_)
    exact within_bind passage _ _ (save_within passage writes _ _) fun _ => inform_lenient lenient _
  rw [logIn]
  cases l.fault? with
  | some fault => exact within_throw passage _
  | none => exact admitted

include inside

theorem secrets_lenient (place : AppPlace) : Within R (showSecrets send place) := by
  apply within_bind lenient.passage _ _ (Session.resolve_within lenient.passage send inside place)
  intro app
  apply within_bind lenient.passage _ _
    (within_call lenient.passage send _ (inside _ (Secret.listed_routed place.group app)))
  intro secrets
  split
  · exact inform_lenient lenient _
  · exact within_each lenient.passage secrets _ fun secret _ => inform_lenient lenient _

theorem resolved_lenient {α : Type} (place : AppPlace) (rest : String → Action α) (after : ∀ app, Within R (rest app)) :
    Within R (resolveApp send place >>= rest) :=
  within_bind lenient.passage _ _ (Session.resolve_within lenient.passage send inside place) after

theorem import_lenient (s : Settings) (stows : ∀ known : Cache, Within R (known.save s.cachePath)) (place : AppPlace)
    (folder : String) (strategy : Strategy) (resetCache yes : Bool) (wish : Option Int) : Within R (do
      let app ← resolveApp send place
      let path := Path.ofString folder
      let d ← findDiff s send place.group app path strategy
      if d.isEmpty && !resetCache then
        Action.inform identical
        return 0
      showDiff d
      if !(← isConfirmed d yes) then
        Action.inform "Import cancelled"
        return 0
      let site : Hosting.Site := ⟨place.group, app, Manifest.filesFolder path⟩
      match ← Action.outcome (Hosting.importAssets site d resetCache send (workerCount s wish)) with
      | .ok () =>
        Action.inform "Successfully imported hosting assets"
        return 0
      | .error (.importing count _) =>
        Action.complain (toString count ++ " error(s) occurred while importing hosting assets")
        return 1
      | .error f => throw f) := by
  have passage := lenient.passage
  have told : ∀ line (code : Nat), Within R (do Action.inform line; return code) := fun line code =>
    within_bind passage _ _ (inform_lenient lenient line) fun _ => within_pure passage code
  refine resolved_lenient lenient send inside place _ fun app => ?_
  apply within_bind passage _ _ (diff_within passage send inside s stows place.group app _ strategy)
  intro d
  split
  · exact told _ _
  · apply within_bind passage _ _ (within_each passage d.lines _ fun line _ => inform_lenient lenient line)
    intro _
    apply within_bind passage _ _ (confirmed_lenient lenient d yes)
    intro agreed
    split
    · exact told _ _
    · have imported := Hosting.import_within passage ⟨place.group, app, Manifest.filesFolder (Path.ofString folder)⟩
        send inside lenient.complains d resetCache (workerCount s wish)
      apply within_bind passage _ _ (within_outcome _ imported)
      intro result
      split
      · exact told _ _
      · exact within_bind passage _ _ (within_modify _ fun w => lenient.complains w _) fun _ => within_pure passage 1
      · exact within_throw passage _

end

theorem well_opens (s : Settings) (body : Sender → Action Unit) :
    well (openSession s >>= body) = openSession s >>= fun send => well (body send) := bind_assoc _ _ _

-- A command that needs a session opens one, and goes on with it.
theorem session_body (s : Settings) (c : Command) (needs : c.needsSession = true) :
    ∃ body : Sender → Action Nat, c.run s = openSession s >>= body ∧
      ∀ R, Lenient R → ∀ send, (∀ r : Request, r.Routed → Within R (send r)) → c.Writes s send R →
        Within R (body send) := by
  have finished : ∀ (R : World → World → Prop), Lenient R → ∀ a : Action Unit, Within R a → Within R (well a) :=
    fun R lenient a inside => within_bind lenient.passage _ _ inside fun _ => within_pure lenient.passage 0
  cases c with
  | login l => cases needs
  | logout => cases needs
  | whoami => cases needs
  | listSecrets place =>
      refine ⟨_, well_opens s _, fun R lenient send inside writes => finished R lenient _ ?_⟩
      exact secrets_lenient lenient send inside place
  | addSecret place name value =>
      refine ⟨_, well_opens s _, fun R lenient send inside writes => finished R lenient _ ?_⟩
      refine resolved_lenient lenient send inside place _ fun app => ?_
      have added := Secret.added_routed place.group app name value
      apply within_bind lenient.passage _ _ (within_call lenient.passage send _ (inside _ added))
      exact fun _ => inform_lenient lenient _
  | updateSecret place sel value =>
      refine ⟨_, well_opens s _, fun R lenient send inside writes => finished R lenient _ ?_⟩
      refine resolved_lenient lenient send inside place _ fun app => ?_
      have updated : Within R (Secret.update send place.group app (intendedSecret sel) value) :=
        within_bind lenient.passage _ _ (Session.secret_within lenient.passage send inside _ _ _)
          fun secret => within_call lenient.passage send _ (inside _ (Secret.put_routed place.group app _))
      exact within_bind lenient.passage _ _ updated fun _ => inform_lenient lenient _
  | removeSecret place sel =>
      refine ⟨_, well_opens s _, fun R lenient send inside writes => finished R lenient _ ?_⟩
      refine resolved_lenient lenient send inside place _ fun app => ?_
      have removed : Within R (Secret.remove send place.group app (intendedSecret sel)) := by
        unfold Secret.remove
        split
        · exact within_call lenient.passage send _ (inside _ (Secret.deleted_routed place.group app _))
        · exact within_bind lenient.passage _ _ (Session.secret_within lenient.passage send inside _ _ _)
            fun secret => within_call lenient.passage send _ (inside _ (Secret.deleted_routed place.group app _))
      exact within_bind lenient.passage _ _ removed fun _ => inform_lenient lenient _
  | listAssets place =>
      refine ⟨_, well_opens s _, fun R lenient send inside writes => finished R lenient _ ?_⟩
      refine resolved_lenient lenient send inside place _ fun app => ?_
      apply within_bind lenient.passage _ _
        (within_call lenient.passage send _ (inside _ (Hosting.listed_routed place.group app)))
      exact fun assets => within_each lenient.passage assets _ fun a _ => inform_lenient lenient _
  | diffAssets place folder strategy =>
      refine ⟨_, well_opens s _, fun R lenient send inside writes => finished R lenient _ ?_⟩
      refine resolved_lenient lenient send inside place _ fun app => ?_
      apply within_bind lenient.passage _ _ (diff_within lenient.passage send inside s writes _ app _ strategy)
      intro d
      split
      · exact inform_lenient lenient _
      · exact within_each lenient.passage d.lines _ fun line _ => inform_lenient lenient line
  | importAssets place folder strategy resetCache wish yes =>
      exact ⟨_, rfl, fun R lenient send inside writes =>
        import_lenient lenient send inside s writes place folder strategy resetCache yes wish⟩
  | exportAssets place folder wish =>
      refine ⟨_, well_opens s _, fun R lenient send inside writes => finished R lenient _ ?_⟩
      refine resolved_lenient lenient send inside place _ fun app => ?_
      exact within_bind lenient.passage _ _ (writes _ _ _) fun _ => inform_lenient lenient _

end CommandLine

end HostingAdmin
