import HostingAdmin.Proofs.Outcomes
import HostingAdmin.Settings

set_option autoImplicit false

namespace HostingAdmin.Settings

open HostingAdmin.Action

-- The values that are given, what comes first winning.
def merged (e : Environment) (overrides file : Members Json) : Members Json :=
  (overrides.filter fun o => !(o.2 matches .null)) ++ (named e.vars).map (fun v => (v.1, .str v.2)) ++ file

-- The paths that settings name: the one of the file with more of them, and the one of
-- the profile file.
inductive Names (e : Environment) (overrides : Members Json) (w : World) : Path → Prop where
  | file (name : String) (there : e.vars.lookup fileVariable = some name) : Names e overrides w (Path.ofString name)
  | profile (file : Members Json) (read : ((fileValues e).perform w).1 = .ok file) :
      Names e overrides w (((Check.optional (merged e overrides file) ["config_path"] checkPath
        defaultConfigPath).toOption).getD .here)

-- What keeps settings from being read, and is not shown.
inductive Unread (e : Environment) (overrides : Members Json) (w : World) : Failure → Prop where
  | home (p : Path) (names : Names e overrides w p) (bad : e.expandHome p = .error .noHome) : Unread e overrides w .noHome
  | file (name : String) (p : Path) (there : e.vars.lookup fileVariable = some name)
      (expanded : e.expandHome (Path.ofString name) = .ok p) (fault : FileFault) (bad : w.files.read p = .error fault) :
      Unread e overrides w (.file fault)
  | undecodable (name : String) (p : Path) (there : e.vars.lookup fileVariable = some name)
      (expanded : e.expandHome (Path.ofString name) = .ok p) (body : Bytes) (read : w.files.read p = .ok body)
      (notText : Text.ofUtf8? body = none) : Unread e overrides w .undecodable

theorem expand_home (e : Environment) (p : Path) (f : Failure) (bad : e.expandHome p = .error f) : f = .noHome := by
  unfold Environment.expandHome at bad
  split at bad
  · split at bad
    · split at bad
      · dsimp only at bad
        split at bad
        · cases bad
          rfl
        · cases bad
      · cases bad
        rfl
    · cases bad
  · cases bad

theorem values_cases (e : Environment) (given : Members Json) (f : Failure) (bad : ofValues e given = .error f) :
    (∃ fault, f = .invalid fault) ∨ f = .noHome ∧ e.expandHome (((Check.optional given ["config_path"] checkPath
      defaultConfigPath).toOption).getD .here) = .error .noHome := by
  unfold ofValues at bad
  cases expanded : e.expandHome (((Check.optional given ["config_path"] checkPath defaultConfigPath).toOption).getD
      .here) with
  | error g =>
      obtain rfl := expand_home e _ g expanded
      simp only [expanded, bind, Except.bind] at bad
      cases bad
      exact .inr ⟨rfl, rfl⟩
  | ok p =>
      simp only [expanded, bind, Except.bind] at bad
      cases checked : (check given).titled title with
      | error fault =>
          rw [checked] at bad
          cases bad
          exact .inl ⟨fault, rfl⟩
      | ok x =>
          rw [checked] at bad
          cases bad

section

variable (e : Environment) (overrides : Members Json) (w : World)

section

variable (name : String) (p : Path) (there : e.vars.lookup fileVariable = some name)
  (expanded : e.expandHome (Path.ofString name) = .ok p)

include there expanded

theorem found_ends : Ends (Finds w.server w.files) (fun n => n.isSome = true → hasNull p = false)
    (Unread e overrides w) (nodeAt? p) := by
  have nothing : (none : Option Node).isSome = true → hasNull p = false := fun some => by cases some
  rw [nodeAt?]
  split
  · exact ends_pure _ nothing
  rename_i clean
  refine ends_bind _ _ ends_get (fun v found => ?_)
  rw [found.2]
  split
  · exact ends_pure _ fun _ => by simpa using clean
  · rename_i fault bad
    have unread : w.files.read p = .error fault := by
      rw [FileTree.read, bad]
      rfl
    split
    · exact ends_throw _ (.file name p there expanded fault unread)
    · exact ends_pure _ nothing

theorem opened_ends (clean : hasNull p = false) :
    Ends (Finds w.server w.files) (fun body => w.files.read p = .ok body) (Unread e overrides w) (Action.load p) := by
  rw [Action.load, guardPath, if_neg (by simp [clean])]
  refine ends_bind (Q := Any) _ _ (ends_pure _ trivial) (fun _ _ => ?_)
  refine ends_bind _ _ ends_get (fun v found => ?_)
  rw [found.2]
  exact ends_except Failure.file _ (fun _ read => read) fun fault bad => .file name p there expanded fault bad

end

theorem values_ends : Ends (Finds w.server w.files) Any (Unread e overrides w) (fileValues e) := by
  rw [fileValues]
  split
  · exact ends_pure _ trivial
  rename_i name there
  have expands : Ends (Finds w.server w.files) (fun p => e.expandHome (Path.ofString name) = .ok p)
      (Unread e overrides w) (ofExcept id (e.expandHome (Path.ofString name))) := by
    refine ends_except id _ (fun p expanded => expanded) (fun f bad => ?_)
    obtain rfl := expand_home e _ f bad
    exact .home _ (.file name there) bad
  refine ends_bind _ _ expands (fun p expanded => ?_)
  have looked := found_ends e overrides w name p there expanded
  have present : Ends (Finds w.server w.files) (fun found => found = true → hasNull p = false) (Unread e overrides w)
      (fileExists p) := ends_bind _ _ looked fun _ known => ends_pure _ known
  have folder : Ends (Finds w.server w.files) Any (Unread e overrides w) (folderExists p) :=
    ends_bind _ _ looked fun _ _ => ends_pure _ trivial
  refine ends_bind _ _ present (fun found known => ?_)
  refine ends_bind _ _ folder (fun _ _ => ?_)
  split
  · rename_i both
    have clean := known (Bool.and_eq_true_iff.mp both).1
    refine ends_bind _ _ (opened_ends e overrides w name p there expanded clean) (fun body read => ?_)
    split
    · rename_i notText
      exact ends_throw _ (.undecodable name p there expanded body read notText)
    · exact ends_pure _ trivial
  · exact ends_pure _ trivial

-- Settings that are not well formed are shown; what else is wrong with them is not.
theorem load_cases (f : Failure) (bad : ((load e overrides).perform w).1 = .error f) :
    (∃ fault, f = .invalid fault) ∨ Unread e overrides w f := by
  have unread := (values_ends e overrides w w ⟨rfl, rfl⟩).2.2
  rw [load, perform_bind] at bad
  rcases performed : (fileValues e).perform w with ⟨g | file, v⟩
  · rw [performed] at bad unread
    cases bad
    exact .inr (unread f rfl)
  · rw [performed] at bad
    have ended : ((ofExcept id (ofValues e (merged e overrides file))).perform v).1 = .error f := bad
    cases checked : ofValues e (merged e overrides file) with
    | ok s =>
        rw [checked] at ended
        cases ended
    | error g =>
        rw [checked] at ended
        cases ended
        rcases values_cases e _ g checked with invalid | ⟨rfl, home⟩
        · exact .inl invalid
        · exact .inr (.home _ (.profile file (by rw [performed])) home)

end

end HostingAdmin.Settings
