import HostingAdmin.Proofs.Escapes
import HostingAdmin.Proofs.WorkerFailures

set_option autoImplicit false

namespace HostingAdmin.CommandLine

open HostingAdmin.Action

section

variable {server : Server} {files : FileTree} {s : Settings} {c : Command} {base : Url} {place : AppPlace} {app : String}
  (linked : Link.toBase s.baseUrl = .ok (.wire base)) (same : c.assetPlace? = some place)
  (reaches : Resolved server place app) (send : Sender) (sends : Sends server files s base send)

include linked same reaches sends

theorem assets_ends (reads : c.readsListing = true) :
    Ends (During server files s.configPath)
      (fun assets => ∃ r, Given server r ∧ (Hosting.list place.group app).read r = .ok assets)
      (Fails server files s c) ((Hosting.list place.group app).call send) := by
  have asked := asked_ends linked (Command.asset_place c place same) send sends (Hosting.list place.group app).request
    (.assets place app same reaches) rfl
  exact call_ends send _ asked fun r f given failed => listed_fails reads f (listing_listed server _ _ _ r given f failed)

theorem diff_ends (reads : c.readsListing = true) (folder : Path) (strategy : Strategy) :
    Ends (During server files s.configPath) Any (Fails server files s c)
      (findDiff s send place.group app folder strategy) := by
  have sees := during_sees server files s.configPath
  have lift : ∀ {α : Type} {Q : α → Prop} (a : Action α), Ends (During server files s.configPath) Q Usual a →
      Ends (During server files s.configPath) Q (Fails server files s c) a :=
    fun a inside => ends_weaken a inside (fun _ fine => fine) fun _ => .inl
  refine ends_bind _ _ (lift _ (known_ends sees _)) (fun known _ => ?_)
  refine ends_bind _ _ (lift _ (local_ends sees app folder known)) ?_
  rintro ⟨listing, learnt⟩ judged
  refine ends_bind _ _ (ends_except id listing (fun _ _ => trivial) fun f failed => .inl (judged f failed)) ?_
  intro here (_ : Any here)
  have listed : Ends (During server files s.configPath) Any (Fails server files s c) (do
      let there ← (Hosting.list place.group app).call send
      return Diff.between here there (strategy = .merge)) :=
    ends_bind _ _ (assets_ends linked same reaches send sends reads) fun _ _ => ends_pure _ trivial
  dsimp only
  split
  · have writes := (Command.place_online c place (Command.asset_place c place same)).2.2
    have stowed : Ends (During server files s.configPath) Any (Fails server files s c) (learnt.save s.cachePath) :=
      ends_weaken _ (stow_ends (during_roomy server files s.configPath) learnt s.cachePath) (fun _ fine => fine)
        fun f unreached => unreached_fails writes f (cache_unreached s f unreached)
    exact ends_bind _ _ stowed fun _ _ => listed
  · exact listed

theorem import_ends (imports : c.isImport = true) (root : Path) (d : Diff) (resetCache : Bool) (workers : Int)
    (few : workers < 1 → Escape server files s c .workerCount) :
    Ends (During server files s.configPath) Any (Fails server files s c)
      (Hosting.importAssets ⟨place.group, app, root⟩ d resetCache send workers) := by
  have sees := during_sees server files s.configPath
  rw [Hosting.importAssets]
  split
  · rename_i none_at_work
    exact ends_throw _ (.inr (few none_at_work))
  · rename_i enough
    have works : ∀ i op, Ends (During server files s.configPath) Any (Fails server files s c)
        (Hosting.Operation.work ⟨place.group, app, root⟩ send i op) := fun i op => operation_ends send sends _ i op
    have reports : ∀ complaint, Ends (During server files s.configPath) Any (Fails server files s c)
        (Hosting.reportImport complaint) :=
      fun complaint => ends_bind _ _ (record_ends sees _ _ _) fun _ _ => complain_ends sees _
    have forgets : ∀ path, Ends (During server files s.configPath) Any (Fails server files s c)
        (Hosting.forget ⟨place.group, app, root⟩ send workers path) := by
      intro path
      refine ends_bind _ _ (record_ends sees _ _ _) (fun _ _ => ?_)
      exact told_ends linked (Command.asset_place c place same) send sends _ _ _ (.cache place app same imports reaches) rfl
    have ran := Hosting.Batch.Trade.run_honest (Hosting.importTrade ⟨place.group, app, root⟩ send workers) works reports
      forgets workers.toNat (Hosting.Operation.ofDiff d) (by omega) resetCache
    refine ends_bind _ _ (record_ends sees _ _ _) (fun _ _ => ?_)
    refine ends_bind _ _ ran (fun e honest => ?_)
    split
    · exact record_ends sees _ _ _
    · exact ends_bind _ _ (record_ends sees _ _ _) fun _ _ => ends_throw _ (.inl (.expected _ rfl))
    · rename_i f
      exact ends_throw f (honest f rfl)

end

section

variable {server : Server} {files : FileTree} {cfg folder : Path}

-- What the export of one asset can come to.
inductive Spoiled (server : Server) (files : FileTree) (folder : Path) : Failure → Prop where
  | hitch (f : Failure) (hitch : Hitch f) : Spoiled server files folder f
  | rejected (r : Rejection) : Spoiled server files folder (.rejected r)
  | file (fault : FileFault) : Spoiled server files folder (.file fault)
  | outside (path text : String) : Spoiled server files folder (.operation path text)
  | spoils (f : Failure) (spoils : Spoils server files folder f) : Spoiled server files folder f

theorem looked_spoiled (p : Path) (looks : Looks server files folder p) (f : Failure) (unreached : Unreached p f) :
    Spoiled server files folder f := by
  cases unreached with
  | file fault => exact .file fault
  | null bad => exact .spoils _ (.null p looks bad)

theorem real_ends (p : Path) (looks : Looks server files folder p) :
    Ends (During server files cfg) (fun q => ∃ t, files.Linked t ∧ t.real p = .ok q) (Spoiled server files folder)
      (Hosting.realPath p) := by
  refine ends_bind _ _ (ends_weaken _ (guard_ends p) (fun _ fine => fine) (looked_spoiled p looks)) (fun _ _ => ?_)
  refine ends_bind _ _ ends_get (fun w during => ?_)
  refine ends_except _ _ ?_ ?_
  · exact fun q found => ⟨w.files, during.linked, found⟩
  · exact fun path bad => .spoils _ (.loop w.files p path looks during.linked bad)

theorem aim_ends (root : Path) (a : Asset) (looks : Looks server files folder (root.join (Hosting.relative a.path))) :
    Ends (During server files cfg) (Looks server files folder) (Spoiled server files folder)
      (Hosting.target root a.path) := by
  refine ends_bind _ _ (real_ends _ looks) ?_
  rintro p ⟨t, linked, real⟩
  split
  · exact ends_pure p (.real t _ p looks linked real)
  · exact ends_throw _ (.outside _ _)

theorem fetch_spoiled (a : Asset) (offered : Hosting.Offered server a) (f : Failure)
    (unsent : Unsent server .nowhere (.plain "GET" a.url) f) : Spoiled server files folder f := by
  cases unsent with
  | address fault bad => exact .spoils _ (.address a fault offered bad)
  | header text found => cases found
  | unanswered f unanswered =>
      cases unanswered with
      | hitch f hitch => exact .hitch f hitch
      | astray fault astray => exact .spoils _ (.astray fault astray)

theorem retry_ends (a : Asset) (offered : Hosting.Offered server a) (redirects : Bool) (tries pause : Nat) :
    Ends (During server files cfg) Any (Spoiled server files folder) (Hosting.fetch a.url redirects tries pause) := by
  have sees := during_sees server files cfg
  have once : Ends (During server files cfg) Any (Spoiled server files folder) (Wire.get a.url redirects) :=
    ends_weaken _ (fetch_ends sees a.url redirects) (fun _ _ => trivial) (fetch_spoiled a offered)
  induction tries generalizing pause with
  | zero => exact once
  | succ tries ih =>
      refine ends_bind _ _ (ends_outcome _ once) (fun outcome judged => ?_)
      split
      · exact ends_pure _ trivial
      · split
        · refine ends_bind _ _ (ends_modify _ fun w holds => sees.blind w _ rfl rfl rfl holds) (fun _ _ => ih _)
        · exact ends_throw _ (.hitch _ (.transport _))
      · exact ends_throw _ (judged.2 _ rfl)

theorem asset_ends (root : Path) (redirects : Bool) (a : Asset) (offered : Hosting.Offered server a)
    (looks : Looks server files folder (root.join (Hosting.relative a.path))) :
    Ends (During server files cfg) Any (Spoiled server files folder) (Hosting.exportAsset root redirects a) := by
  have downloaded : Ends (During server files cfg) Any (Spoiled server files folder) (Hosting.download a.url redirects) := by
    refine ends_bind _ _ (retry_ends a offered redirects _ _) (fun r _ => ?_)
    split
    · exact ends_pure _ trivial
    · exact ends_throw _ (.rejected _)
  refine ends_bind _ _ (aim_ends root a looks) (fun p looks => ?_)
  refine ends_bind _ _ downloaded (fun body _ => ?_)
  exact ends_weaken _ (place_ends (during_roomy server files cfg) p body) (fun _ fine => fine) (looked_spoiled p looks)

-- A worker is lost only to what spoils the whole export.
theorem verdict_losses (a : Asset) (outcome : Except Failure Unit)
    (judged : Judged Any (Spoiled server files folder) outcome) (going : outcome ≠ .error .interrupted) (f : Failure)
    (lost : (Hosting.exportVerdict a outcome).failure? = some f) : Spoils server files folder f := by
  cases outcome with
  | ok done => cases lost
  | error g =>
      cases judged.2 g rfl with
      | hitch g hitch =>
          cases hitch with
          | transport fault => cases lost
          | interrupted => exact (going rfl).elim
      | rejected r => cases lost
      | file fault => cases lost
      | outside path text => cases lost
      | spoils g spoils =>
          cases spoils with
          | address b fault offered bad =>
              cases lost
              exact .address b fault offered bad
          | astray fault astray =>
              cases lost
              exact .astray fault astray
          | null p looks bad =>
              cases lost
              exact .null p looks bad
          | loop t p path looks linked bad =>
              cases lost
              exact .loop t p path looks linked bad

theorem pull_ends (root : Path) (style : Hosting.ExportStyle) (jobs : List Asset) (n : Nat)
    (planned : ∀ a ∈ jobs, Hosting.Offered server a ∧ Looks server files folder (root.join (Hosting.relative a.path))) :
    Ends (During server files cfg) Any
      (fun f => f = .interrupted ∨ Spoils server files folder f ∨ f = .stalled ∧ ∃ g, Spoils server files folder g)
      (Pool.run (Hosting.exportWork root style.redirects style.talks) n jobs) := by
  have sees := during_sees server files cfg
  refine Pool.run_losing _ n jobs (fun i a among => ?_)
  obtain ⟨offered, looks⟩ := planned a among
  refine ends_bind _ _ (ends_outcome _ (asset_ends root style.redirects a offered looks)) (fun outcome judged => ?_)
  split
  · exact ends_throw _ rfl
  · rename_i going
    have reported : ∀ o : Option Pool.Complaint, Ends (During server files cfg) Any (fun f => f = .interrupted)
        (o.forM (Hosting.reportExport style.talks)) := by
      intro o
      cases o with
      | none => exact ends_pure () trivial
      | some complaint =>
          refine ends_bind _ _ (record_ends sees _ _ _) (fun _ _ => ?_)
          split
          · exact complain_ends sees _
          · exact ends_pure _ trivial
    refine ends_bind _ _ (reported _) (fun _ _ => ends_pure _ fun f lost => ?_)
    exact verdict_losses a outcome judged going f lost

end

section

variable {server : Server} {files : FileTree} {s : Settings} {base : Url} {place : AppPlace} {app folder : String}
  {wish : Option Int} (linked : Link.toBase s.baseUrl = .ok (.wire base)) (reaches : Resolved server place app)
  (send : Sender) (sends : Sends server files s base send)

theorem spoils_fails (f : Failure) (spoils : Spoils server files (Path.ofString folder) f) :
    Fails server files s (.exportAssets place folder wish) f :=
  .inr (.download place folder wish rfl f spoils)

theorem looked_fails (p : Path) (looks : Looks server files (Path.ofString folder) p) (f : Failure)
    (unreached : Unreached p f) : Fails server files s (.exportAssets place folder wish) f := by
  cases unreached with
  | file fault => exact .inl (.expected _ rfl)
  | null bad => exact spoils_fails _ (.null p looks bad)

theorem root_ends : Ends (During server files s.configPath)
    (fun root => ∃ t, files.Linked t ∧ t.real (Manifest.filesFolder (Path.ofString folder)) = .ok root)
    (Fails server files s (.exportAssets place folder wish))
    (Hosting.realPath (Manifest.filesFolder (Path.ofString folder))) := by
  have clean : Ends (During server files s.configPath) Any (Fails server files s (.exportAssets place folder wish))
      (guardPath (Manifest.filesFolder (Path.ofString folder))) :=
    ends_weaken _ (guard_ends _) (fun _ _ => trivial) (looked_fails _ .files)
  refine ends_bind _ _ clean (fun _ _ => ?_)
  refine ends_bind _ _ ends_get (fun w during => ?_)
  refine ends_except _ _ ?_ ?_
  · exact fun root found => ⟨w.files, during.linked, found⟩
  · exact fun path bad => spoils_fails _ (.loop w.files _ path .files during.linked bad)

theorem downloads_ends (root : Path) (style : Hosting.ExportStyle) (jobs : List Asset) (planned : ∀ a ∈ jobs,
    Hosting.Offered server a ∧ Looks server files (Path.ofString folder) (root.join (Hosting.relative a.path))) :
    Ends (During server files s.configPath) Any (Fails server files s (.exportAssets place folder wish))
      (Pool.run (Hosting.exportWork root style.redirects style.talks) style.workers.toNat jobs) := by
  refine ends_weaken _ (pull_ends root style _ style.workers.toNat planned) (fun _ fine => fine) ?_
  rintro f (rfl | spoils | ⟨rfl, g, spoils⟩)
  · exact .inl .interrupted
  · exact spoils_fails f spoils
  · exact .inr (.stalled place folder wish rfl g spoils)

include linked reaches sends

theorem export_ends (style : Hosting.ExportStyle) :
    Ends (During server files s.configPath) Any (Fails server files s (.exportAssets place folder wish))
      (Hosting.exportAssets send place.group app (Path.ofString folder) style) := by
  have sees := during_sees server files s.configPath
  have roomy := during_roomy server files s.configPath
  refine ends_bind _ _ (assets_ends linked rfl reaches send sends rfl) ?_
  rintro assets ⟨r, given, read⟩
  have saved := place_ends roomy (Manifest.location (Path.ofString folder)) (Manifest.fileText (Asset.descriptions assets))
  refine ends_bind _ _ (ends_weaken _ saved (fun _ fine => fine) (looked_fails _ .manifest)) (fun _ _ => ?_)
  have built := build_ends roomy (Manifest.filesFolder (Path.ofString folder))
  refine ends_bind _ _ (ends_weaken _ built (fun _ fine => fine) (looked_fails _ .files)) (fun _ _ => ?_)
  refine ends_bind _ _ root_ends ?_
  rintro root ⟨t, same, real⟩
  have planned : ∀ a ∈ assets.filter (fun a => !a.isFolder), Hosting.Offered server a ∧
      Looks server files (Path.ofString folder) (root.join (Hosting.relative a.path)) := by
    intro a member
    obtain ⟨among, file⟩ := List.mem_filter.mp member
    have offered : Hosting.Offered server a := ⟨place.group, app, r, assets, given, read, among, by simpa using file⟩
    exact ⟨offered, .asset t root a same real offered⟩
  refine ends_bind _ _ (downloads_ends root style _ planned) (fun complaints _ => ?_)
  split
  · exact ends_throw _ (.inl (.expected _ rfl))
  · exact ends_bind _ _ (record_ends sees _ _ _) fun _ _ => ends_pure _ trivial

end

end HostingAdmin.CommandLine
