import HostingAdmin.CommandLine.Run
import HostingAdmin.Proofs.CallFailures
import HostingAdmin.Proofs.FilePlaces
import HostingAdmin.Proofs.ProfileFile
import HostingAdmin.Proofs.WorkerFailures

set_option autoImplicit false

namespace HostingAdmin

open HostingAdmin.Action

-- What work on a path comes to, unless it succeeds.
inductive Unreached (p : Path) : Failure → Prop where
  | file (fault : FileFault) : Unreached p (.file fault)
  | null (bad : hasNull p = true) : Unreached p .nullCharacter

theorem unreached_parent (p : Path) (f : Failure) (unreached : Unreached p.parent f) : Unreached p f := by
  cases unreached with
  | file fault => exact .file fault
  | null bad =>
      cases clean : hasNull p with
      | true => exact .null clean
      | false => rw [parent_clean p clean] at bad; cases bad

section

variable {I : World → Prop}

theorem guard_ends (p : Path) : Ends I (fun _ => hasNull p = false) (Unreached p) (guardPath p) := by
  rw [guardPath]
  split
  · rename_i bad
    exact ends_throw _ (.null bad)
  · rename_i clean
    exact ends_pure () (by simpa using clean)

theorem node_ends (p : Path) : Ends I (fun n => n.isSome = true → hasNull p = false) Usual (nodeAt? p) := by
  have nothing : (none : Option Node).isSome = true → hasNull p = false := fun some => by cases some
  rw [nodeAt?]
  split
  · exact ends_pure _ nothing
  · rename_i clean
    refine ends_bind _ _ ends_get (fun w _ => ?_)
    split
    · exact ends_pure _ fun _ => by simpa using clean
    · split
      · exact ends_throw _ (.expected _ rfl)
      · exact ends_pure _ nothing

theorem exists_ends (p : Path) : Ends I (fun there => there = true → hasNull p = false) Usual (fileExists p) :=
  ends_bind _ _ (node_ends p) fun _ found => ends_pure _ found

theorem folder_ends (p : Path) : Ends I Any Usual (folderExists p) :=
  ends_bind _ _ (node_ends p) fun _ _ => ends_pure _ trivial

theorem load_ends (p : Path) : Ends I Any (Unreached p) (Action.load p) := by
  refine ends_bind _ _ (guard_ends p) (fun _ _ => ?_)
  refine ends_bind _ _ ends_get (fun w _ => ?_)
  exact ends_except Failure.file _ (fun _ _ => trivial) fun fault _ => .file fault

theorem clean_usual (p : Path) (clean : hasNull p = false) (f : Failure) (unreached : Unreached p f) : Usual f := by
  cases unreached with
  | file fault => exact .expected _ rfl
  | null bad => rw [clean] at bad; cases bad

theorem loaded_ends (p : Path) (clean : hasNull p = false) : Ends I Any Usual (Action.load p) :=
  ends_weaken _ (load_ends p) (fun _ fine => fine) (clean_usual p clean)

-- A condition on the world that is kept while files are written and folders are made.
structure Roomy (I : World → Prop) : Prop where
  folders : ∀ w files p, I w → w.files.makeFolders p = .ok files → I { w with files }
  writes : ∀ w files p body now, I w → w.files.write p body now = .ok files → I { w with files }

theorem serves_roomy (server : Server) : Roomy (Serves server) where
  folders _ _ _ holds _ := holds
  writes _ _ _ _ _ holds _ := holds

theorem change_ends (p : Path) (change : FileTree → FileTree.Result FileTree)
    (kept : ∀ w files, I w → change w.files = .ok files → I { w with files }) :
    Ends I Any (Unreached p) (changeFiles p change) := by
  refine ends_bind _ _ (guard_ends p) (fun _ _ => ?_)
  intro w holds
  simp only [perform_bind, perform_get]
  cases changed : change w.files with
  | error fault => exact ends_throw _ (.file fault) w holds
  | ok files =>
      refine ⟨kept w files holds changed, fun _ _ => trivial, ?_⟩
      rintro f ⟨⟩

variable (roomy : Roomy I)

include roomy

theorem build_ends (p : Path) : Ends I Any (Unreached p) (makeFolders p) :=
  change_ends p _ fun w files holds made => roomy.folders w files p holds made

theorem store_ends (p : Path) (body : Bytes) : Ends I Any (Unreached p) (store p body) := by
  have timed : Ends I Any (Unreached p) now :=
    ends_bind get (fun w => pure w.clock) ends_get fun w _ => ends_pure w.clock trivial
  exact ends_bind _ _ timed fun _ _ =>
    change_ends p _ fun w files holds written => roomy.writes w files p body _ holds written

theorem place_ends (p : Path) (body : Bytes) : Ends I Any (Unreached p) (do
    makeFolders p.parent
    store p body) :=
  ends_bind _ _ (ends_weaken _ (build_ends roomy p.parent) (fun _ fine => fine) (unreached_parent p)) fun _ _ =>
    store_ends roomy p body

theorem save_ends {server : Server} (sees : Sees server I) (p : Path) (x : Profile) :
    Ends I Any (Unreached p) (Profile.save p x) := by
  refine ends_bind _ _ (ends_weaken _ (build_ends roomy p.parent) (fun _ fine => fine) (unreached_parent p)) fun _ _ => ?_
  exact ends_bind _ _ (store_ends roomy p _) fun _ _ => record_ends sees _ _ _

theorem stow_ends (c : Cache) (p : Path) : Ends I Any (Unreached p) (c.save p) := by
  refine ends_bind _ _ (ends_weaken _ (build_ends roomy p.parent) (fun _ fine => fine) (unreached_parent p)) fun _ _ => ?_
  exact ends_bind _ _ (store_ends roomy p _) fun _ _ => ends_pure _ trivial

end

-- The profile that a file holds.
def Stored (files : FileTree) (p : Path) (x : Profile) : Prop :=
  ∃ body, files.read p = .ok body ∧ Profile.parse body = .ok x

-- The first read of the profile tells when its file is not text.
theorem profile_ends (server : Server) (files : FileTree) (p : Path) :
    Ends (Finds server files) (fun x => x = .empty ∨ Stored files p x)
      (fun f => Usual f ∨ f = .undecodable ∧ ∃ body, files.read p = .ok body ∧ Text.ofUtf8? body = none)
      (Profile.load p) := by
  refine ends_bind _ _ (ends_weaken _ (exists_ends p) (fun _ fine => fine) fun _ usual => .inl usual)
    (fun there known => ?_)
  split
  · rename_i found
    have loaded : Ends (Finds server files) (fun body => files.read p = .ok body) Usual (Action.load p) := by
      refine ends_bind _ _ (ends_weaken _ (guard_ends p) (fun _ fine => fine) (clean_usual p (known found))) (fun _ _ => ?_)
      refine ends_bind _ _ ends_get (fun w here => ?_)
      rw [here.2]
      exact ends_except Failure.file _ (fun _ same => same) fun _ _ => .expected _ rfl
    refine ends_bind _ _ (ends_weaken _ loaded (fun _ fine => fine) fun _ usual => .inl usual) (fun body read => ?_)
    split
    · rename_i notText
      exact ends_throw _ (.inr ⟨rfl, body, read, notText⟩)
    · exact ends_except Failure.invalid _ (fun x parsed => .inr ⟨body, read, parsed⟩) fun _ _ => .inl (.expected _ rfl)
  · exact ends_pure _ (.inl rfl)

-- The server answers a question for a listing well, but not with JSON.
def Misread (server : Server) (fault : Json.Fault) : Prop :=
  ∃ r, Given server r ∧ r.status = Status.ok ∧ Json.ofBytes r.body = .error fault

-- An asset that the server may list, and that an export would write.
def Hosting.Offered (server : Server) (a : Asset) : Prop :=
  ∃ group app r assets, Given server r ∧ (Hosting.list group app).read r = .ok assets ∧ a ∈ assets ∧ a.isFolder = false

def Listed (server : Server) (f : Failure) : Prop := Usual f ∨ ∃ fault, f = .json fault ∧ Misread server fault

theorem check_usual (r : Response) (expected : Nat) (text : String) (f : Failure)
    (failed : Rejection.check r expected text = .error f) : Usual f := by
  rw [Rejection.check] at failed
  split at failed
  · cases failed
  · cases failed
    exact .expected _ rfl

theorem listing_listed {α : Type} (server : Server) (title text : String) (check : Source → Json → Checked α)
    (r : Response) (given : Given server r) (f : Failure)
    (failed : Endpoint.readListing title text check r = .error f) : Listed server f := by
  unfold Endpoint.readListing at failed
  by_cases fine : r.status = Status.ok
  · have passed : Rejection.check r Status.ok text = .ok () := by rw [Rejection.check, if_pos fine]
    rw [passed] at failed
    have checked : ∀ j : Json, (j.checked (listTitle title) fun source => Check.list source (check source)).mapError
        Failure.invalid = .error f → Listed server f := by
      intro j wrong
      cases resultEq : j.checked (listTitle title) fun source => Check.list source (check source) with
      | error fault =>
          rw [resultEq] at wrong
          cases wrong
          exact .inl (.expected _ rfl)
      | ok x =>
          rw [resultEq] at wrong
          cases wrong
    by_cases empty : r.body.isEmpty = true
    · simp only [empty, if_true, bind, Except.bind, pure, Except.pure] at failed
      exact checked _ failed
    · simp only [empty] at failed
      cases readEq : Json.ofBytes r.body with
      | error fault =>
          rw [readEq] at failed
          cases failed
          exact .inr ⟨fault, rfl, r, given, fine, readEq⟩
      | ok j =>
          rw [readEq] at failed
          exact checked _ failed
  · have stopped : Rejection.check r Status.ok text =
        .error (.rejected (Rejection.ofResponse r (some text))) := by rw [Rejection.check, if_neg fine]
    rw [stopped] at failed
    cases failed
    exact .inl (.expected _ rfl)

namespace CommandLine

-- The app of a command: the one that is named, or one that the server lists.
inductive Resolved (server : Server) (place : AppPlace) : String → Prop where
  | named (id : String) (same : place.app = .id id) : Resolved server place id
  | listed (r : Response) (apps : List App) (a : App) (given : Given server r)
      (read : (App.list place.group).read r = .ok apps) (among : a ∈ apps) : Resolved server place a.id

end CommandLine

section

variable {server : Server} {I : World → Prop} {P : Failure → Prop} (send : Sender)

theorem call_ends {α : Type} (e : Endpoint α) (sends : Ends I (Given server) P (send e.request))
    (reads : ∀ r f, Given server r → e.read r = .error f → P f) :
    Ends I (fun x => ∃ r, Given server r ∧ e.read r = .ok x) P (e.call send) := by
  refine ends_bind _ _ sends (fun r given => ?_)
  exact ends_except id _ (fun _ read => ⟨r, given, read⟩) fun f failed => reads r f given failed

variable (usual : ∀ f, Usual f → P f)

include usual

theorem done_ends (request : Request) (expected : Nat) (text : String)
    (sends : Ends I (Given server) P (send request)) :
    Ends I Any P ((Endpoint.done request expected text).call send) :=
  ends_weaken _ (call_ends send (.done request expected text) sends
    fun r f _ failed => usual f (check_usual r expected text f failed)) (fun _ _ => trivial) fun _ fails => fails

theorem app_ends (group : String) (clientAppId : Option String)
    (sends : Ends I (Given server) P (send (App.list group).request)) :
    Ends I (fun a => ∃ r apps, Given server r ∧ (App.list group).read r = .ok apps ∧ a ∈ apps) P
      (App.find send group clientAppId) := by
  refine ends_bind _ _ (call_ends send _ sends ?_) ?_
  · intro r f _ failed
    apply usual
    simp only [App.list] at failed
    cases checked : Rejection.check r Status.ok "failed to fetch apps" with
    | error g =>
        rw [checked] at failed
        cases failed
        exact check_usual r _ _ _ checked
    | ok passed =>
        simp only [checked, bind, Except.bind] at failed
        generalize Json.parsed (listTitle App.title) _ _ = parsed at failed
        cases parsed with
        | error fault =>
            cases failed
            exact .expected _ rfl
        | ok apps => cases failed
  · rintro apps ⟨r, given, read⟩
    split
    · rename_i a found
      exact ends_pure a ⟨r, apps, given, read, List.mem_of_find?_eq_some found⟩
    · exact ends_throw _ (usual _ (.expected _ rfl))

variable (sees : Sees server I)

include sees

theorem resolve_ends (place : CommandLine.AppPlace)
    (sends : Ends I (Given server) P (send (App.list place.group).request)) :
    Ends I (CommandLine.Resolved server place) P (CommandLine.resolveApp send place) := by
  have looked : ∀ clientAppId : Option String, Ends I (CommandLine.Resolved server place) P (do
      let app ← App.find send place.group clientAppId
      Action.record .debug "Resolved client app ID"
        [("client_app_id", (clientAppId.map Json.str).getD .null), ("app_id", .str app.id)]
      return app.id) := by
    intro clientAppId
    refine ends_bind _ _ (app_ends send usual _ _ sends) ?_
    rintro app ⟨r, apps, given, read, among⟩
    exact ends_bind _ _ (record_ends sees _ _ _) fun _ _ => ends_pure _ (.listed r apps app given read among)
  rw [CommandLine.resolveApp]
  dsimp only
  split
  · rename_i id same
    split
    · exact looked none
    · exact ends_pure _ (.named id same)
  · exact looked _

end

theorem known_ends {server : Server} {I : World → Prop} (sees : Sees server I) (p : Path) :
    Ends I Any Usual (Cache.load p) := by
  refine ends_bind _ _ (exists_ends p) (fun there known => ?_)
  split
  · rename_i found
    refine ends_bind _ _ (loaded_ends p (known found)) (fun body _ => ?_)
    split
    · exact ends_pure _ trivial
    · exact ends_bind _ _ (record_ends sees _ _ _) fun _ _ => ends_pure _ trivial
  · exact ends_pure _ trivial

-- What is wrong with the local assets, if anything, is shown to the user.
def Local (x : Except Failure (List Asset) × Cache) : Prop := ∀ f, x.1 = .error f → Usual f

theorem folder_local (t : FileTree) (now : Int) (app : String) (root : Path) (ds : Members Description) (c : Cache) :
    Local (Listing.ofFolder t now app root ds c) := by
  intro f failed
  simp only [Listing.ofFolder] at failed
  generalize Listing.describeAll t now app root ds (t.filesBelow root) c = described at failed
  obtain ⟨assets, learnt⟩ := described
  cases assets with
  | error fault =>
      cases failed
      exact .expected _ rfl
  | ok assets =>
      simp only [mapped_ok, bind, Except.bind] at failed
      split at failed
      · cases failed
        exact .expected _ rfl
      · cases failed

theorem local_ends {server : Server} {I : World → Prop} (sees : Sees server I) (app : String) (folder : Path)
    (known : Cache) : Ends I Local Usual (Listing.ofApp app folder known) := by
  have described : hasNull (Manifest.location folder) = false →
      Ends I Any Usual (Manifest.load (Manifest.location folder)) := by
    intro clean
    refine ends_bind _ _ (loaded_ends _ clean) (fun body _ => ?_)
    refine ends_bind _ _ (ends_except Failure.invalid _ (fun _ _ => trivial) fun _ _ => .expected _ rfl) ?_
    exact fun ds (_ : Any ds) => ends_pure _ trivial
  have listed : ∀ ds, Ends I Local Usual (Listing.run app (Manifest.filesFolder folder) ds known) := by
    intro ds
    refine ends_bind _ _ (folder_ends _) (fun there _ => ?_)
    split
    · refine ends_bind _ _ ends_get (fun w _ => ?_)
      have judged := folder_local w.files (Listing.truncated w.clock) app (Manifest.filesFolder folder) ds known
      generalize Listing.ofFolder _ _ _ _ _ _ = found at judged
      obtain ⟨assets, learnt⟩ := found
      dsimp only
      split
      · exact ends_bind _ _ (record_ends sees _ _ _) fun _ _ => ends_pure _ judged
      · exact ends_pure _ judged
    · refine ends_pure _ ?_
      rintro f ⟨⟩
      exact .expected _ rfl
  refine ends_bind _ _ (exists_ends _) (fun there known => ?_)
  split
  · rename_i found
    exact ends_bind _ _ (described (known found)) fun ds _ => listed ds
  · exact ends_bind _ _ (ends_pure (Q := Any) _ trivial) fun ds _ => listed ds

end HostingAdmin
