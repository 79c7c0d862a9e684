import HostingAdmin.Profile.Store
import HostingAdmin.Proofs.Actions
import HostingAdmin.Proofs.FileRewrites
import HostingAdmin.Proofs.JsonRoundTrip
import HostingAdmin.Proofs.Utf8RoundTrip

set_option autoImplicit false

namespace HostingAdmin

theorem parent_clean (p : Path) (clean : Action.hasNull p = false) : Action.hasNull p.parent = false := by
  rw [Action.hasNull, List.any_eq_false] at clean ⊢
  exact fun part member => clean part (List.dropLast_subset _ member)

theorem profile_legible (p : Profile) : Json.Legible .strict 0 p.toJson :=
  ⟨rfl, show ["username", "public_api_key", "private_api_key", "access_token", "refresh_token"].Nodup by decide,
    trivial, trivial, trivial, trivial, trivial, trivial⟩

theorem written_parsed {α : Type} (l : Json.Layout) (regular : l.Regular) (title : String)
    (check : Source → Json → Checked α) (j : Json) (x : α) (legible : Json.Legible .strict 0 j)
    (checked : check .text j = .ok x) : Json.parsed title check (Text.utf8 (Json.write l 0 j)) = .ok x := by
  rw [Json.parsed, Json.strict_read l regular j legible]
  dsimp only
  rw [checked]
  rfl

theorem text_parsed {α : Type} (title : String) (check : Source → Json → Checked α) (j : Json) (x : α)
    (legible : Json.Legible .strict 0 j) (checked : check .text j = .ok x) :
    Json.parsed title check (Text.utf8 j.indented) = .ok x :=
  written_parsed .indented Json.indented_regular title check j x legible checked

theorem profile_parsed (p : Profile) : Profile.parse p.fileText = .ok p :=
  text_parsed Profile.title Profile.check p.toJson p (profile_legible p) rfl

namespace Profile

-- There is a profile file, and it can be written again.
def Readable (cfg : Path) (files : FileTree) : Prop :=
  Action.hasNull cfg = false ∧ cfg.parts ≠ [] ∧ ∃ body, files.read cfg = .ok body

theorem read_node (t : FileTree) (cfg : Path) (body : Bytes) (there : t.read cfg = .ok body) :
    ∃ n, t.node cfg = .ok n := by
  rw [FileTree.read] at there
  cases nodeEq : t.node cfg with
  | ok n => exact ⟨n, rfl⟩
  | error fault =>
      rw [nodeEq] at there
      cases there

theorem file_loaded (p : Path) (w : World) (body : Bytes) (clean : Action.hasNull p = false)
    (there : w.files.read p = .ok body) :
    (Action.fileExists p).perform w = (.ok true, w) ∧ (Action.load p).perform w = (.ok body, w) := by
  obtain ⟨n, found⟩ := read_node w.files p body there
  constructor
  · simp [Action.fileExists, Action.nodeAt?, clean, Action.perform_bind, found]
  · simp [Action.load, Action.guardPath, clean, Action.perform_bind, there, Action.ofExcept]

theorem load_read (cfg : Path) (w : World) (body : Bytes) (clean : Action.hasNull cfg = false)
    (there : w.files.read cfg = .ok body) :
    (load cfg).perform w = (match Text.ofUtf8? body with
      | none => .error .undecodable
      | some _ => (parse body).mapError .invalid, w) := by
  obtain ⟨here, loaded⟩ := file_loaded cfg w body clean there
  rw [load, Action.perform_bind, here]
  dsimp only
  rw [if_pos rfl, Action.perform_bind, loaded]
  dsimp only
  cases Text.ofUtf8? body with
  | none => rfl
  | some text => cases parse body <;> rfl

theorem load_written (cfg : Path) (w : World) (q : Profile) (clean : Action.hasNull cfg = false)
    (there : w.files.read cfg = .ok q.fileText) : (load cfg).perform w = (.ok q, w) := by
  rw [load_read cfg w q.fileText clean there, fileText, Text.utf8_read]
  dsimp only
  rw [← fileText, profile_parsed]
  rfl

-- What is loaded is a matter of the files alone, and a profile that somebody is logged in
-- with comes from a file.
theorem load_known (cfg : Path) (files : FileTree) : ∃ result,
    (∀ w : World, w.files = files → (load cfg).perform w = (result, w)) ∧
      ∀ p, result = .ok p → p.isLoggedIn = true → Action.hasNull cfg = false ∧ ∃ body, files.read cfg = .ok body := by
  have absent : (∀ w : World, w.files = files → (Action.fileExists cfg).perform w = (.ok false, w)) → ∃ result,
      (∀ w : World, w.files = files → (load cfg).perform w = (result, w)) ∧
        ∀ p, result = .ok p → p.isLoggedIn = true → Action.hasNull cfg = false ∧ ∃ body, files.read cfg = .ok body := by
    intro missing
    refine ⟨.ok .empty, ?_, ?_⟩
    · intro w same
      rw [load, Action.perform_bind, missing w same]
      rfl
    · intro p same user
      cases same
      cases user
  by_cases null : Action.hasNull cfg = true
  · exact absent fun w same => by simp [Action.fileExists, Action.nodeAt?, null]
  · have clean : Action.hasNull cfg = false := Bool.eq_false_iff.mpr null
    cases nodeEq : files.node cfg with
    | error fault =>
        by_cases long : fault.problem = .nameTooLong
        · refine ⟨.error (.file fault), ?_, fun p same => by cases same⟩
          intro w same
          have failed : (Action.fileExists cfg).perform w = (.error (.file fault), w) := by
            simp [Action.fileExists, Action.nodeAt?, clean, Action.perform_bind, same, nodeEq, long]
          rw [load, Action.perform_bind, failed]
        · exact absent fun w same => by
            simp [Action.fileExists, Action.nodeAt?, clean, Action.perform_bind, same, nodeEq, long]
    | ok n =>
        cases readEq : files.read cfg with
        | ok body => exact ⟨_, fun w same => load_read cfg w body clean (same ▸ readEq), fun _ _ _ => ⟨clean, body, rfl⟩⟩
        | error fault =>
            refine ⟨.error (.file fault), ?_, fun p same => by cases same⟩
            intro w same
            have here : (Action.fileExists cfg).perform w = (.ok true, w) := by
              simp [Action.fileExists, Action.nodeAt?, clean, Action.perform_bind, same, nodeEq]
            have failed : (Action.load cfg).perform w = (.error (.file fault), w) := by
              simp [Action.load, Action.guardPath, clean, Action.perform_bind, same, readEq, Action.ofExcept]
            rw [load, Action.perform_bind, here]
            dsimp only
            rw [if_pos rfl, Action.perform_bind, failed]

theorem load_cases (cfg : Path) (w : World) : ∃ result, (load cfg).perform w = (result, w) ∧
    ∀ p, result = .ok p → p.isLoggedIn = true →
      Action.hasNull cfg = false ∧ ∃ body, w.files.read cfg = .ok body := by
  obtain ⟨result, known, user⟩ := load_known cfg w.files
  exact ⟨result, known w rfl, user⟩

theorem load_within {R : World → World → Prop} (passage : Action.Passage R) (cfg : Path) :
    Action.Within R (load cfg) := by
  intro w
  obtain ⟨result, loaded, _⟩ := load_cases cfg w
  rw [loaded]
  exact passage.stay w

theorem load_again (cfg : Path) (w u : World) (files : u.files = w.files) (p : Profile)
    (loaded : (load cfg).perform w = (.ok p, w)) : (load cfg).perform u = (.ok p, u) := by
  obtain ⟨result, known, _⟩ := load_known cfg w.files
  have same := known w rfl
  rw [loaded, Prod.mk.injEq] at same
  rw [known u files, ← same.1]

theorem load_absent (cfg : Path) (w : World) (clean : Action.hasNull cfg = false) (fault : FileFault)
    (absent : w.files.node cfg = .error fault) (short : fault.problem ≠ .nameTooLong) :
    (load cfg).perform w = (.ok .empty, w) := by
  have missing : (Action.fileExists cfg).perform w = (.ok false, w) := by
    simp [Action.fileExists, Action.nodeAt?, clean, Action.perform_bind, absent, short]
  rw [load, Action.perform_bind, missing]
  rfl

theorem folders_made (cfg : Path) (w : World) (readable : Readable cfg w.files) :
    (Action.makeFolders cfg.parent).perform w = (.ok (), w) := by
  obtain ⟨clean, named, body, there⟩ := readable
  obtain ⟨_, _, located⟩ := FileTree.read_spot w.files cfg body there
  simp [Action.makeFolders, Action.changeFiles, Action.guardPath, parent_clean cfg clean, Action.perform_bind,
    w.files.folder_above cfg _ named located, Action.ofExcept]

theorem save_written (cfg : Path) (q : Profile) (w : World) (readable : Readable cfg w.files) :
    ∃ v, (save cfg q).perform w = (.ok (), v) ∧ v.files.read cfg = .ok q.fileText ∧ w.files.Stable v.files ∧
      v.profile = w.profile ∧ v.renewals = w.renewals := by
  have folders := folders_made cfg w readable
  obtain ⟨clean, named, body, there⟩ := readable
  obtain ⟨files, written, readBack, stable⟩ := w.files.write_read cfg body q.fileText (Action.nanoseconds w.clock) there
  have stored : (Action.store cfg q.fileText).perform w = (.ok (), { w with files }) := by
    simp [Action.store, Action.now, Action.changeFiles, Action.guardPath, clean, Action.perform_bind, written,
      Action.ofExcept]
  have passage : Action.Passage fun w v : World =>
      v.files = w.files ∧ v.profile = w.profile ∧ v.renewals = w.renewals :=
    ⟨fun _ => ⟨rfl, rfl, rfl⟩, fun _ _ _ first second => ⟨second.1.trans first.1, second.2.1.trans first.2.1,
      second.2.2.trans first.2.2⟩, fun _ _ _ => ⟨rfl, rfl, rfl⟩⟩
  obtain ⟨v, recorded, kept⟩ := Action.record_within passage .debug "Profile written" [("path", .str cfg.toString)]
    { w with files }
  refine ⟨v, ?_, ?_, ?_, kept.2⟩
  · simp [save, Action.perform_bind, folders, stored, recorded]
  · rw [kept.1]
    exact readBack
  · rw [kept.1]
    exact stable

end Profile

end HostingAdmin
