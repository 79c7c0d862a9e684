import HostingAdmin.Proofs.DeliveredFiles
import HostingAdmin.Proofs.ExportedDifference
import HostingAdmin.Proofs.ImportConsent

set_option autoImplicit false

namespace HostingAdmin

open HostingAdmin.Action

namespace Hosting

namespace Retrieval

variable (app : String) (style : ExportStyle) (listing : List Asset) (root : Path) (u : World)

theorem pull_listing (assets : List Asset) (v : World)
    (done : (pullExport app style listing root).perform u = (.ok assets, v)) : assets = listing := by
  obtain ⟨complaints, x, _, ended⟩ := bind_ok _ _ u v assets done
  split at ended
  · cases ended
  · obtain ⟨_, _, _, last⟩ := bind_ok _ _ x v assets ended
    cases last
    rfl

theorem pull_complete (assets : List Asset) (v : World) (workers : 1 ≤ style.workers)
    (grounded : u.files.root.isFolder = true) (distinct : Distinct u.files root (listing.filter fun a => !a.isFolder))
    (done : (pullExport app style listing root).perform u = (.ok assets, v)) :
    ∃ given, Came style.redirects v given ∧
      Complete u.files root given (listing.filter fun a => !a.isFolder) v.files := by
  have count : style.workers = style.workers.toNat := by omega
  have positive : 1 ≤ style.workers.toNat := by omega
  obtain ⟨r, x, performed, ended⟩ := pull_delivers app style listing root _ positive count u
  rw [done] at performed
  cases performed
  rcases ended with never | ⟨given, b, delivered, came, files, _, steady, lost⟩
  · cases never
  · cases crash : b.pool.crash? with
    | some f => cases lost f crash <;> contradiction
    | none =>
        obtain ⟨allOver, outcome⟩ := steady crash
        have account := run_accounted root u.files _ _ b (delivered_run _ b given delivered)
        have shelf := delivered_shelf _ _ u.files root grounded distinct given b delivered
        refine ⟨given, came, ?_⟩
        rw [files]
        apply over_complete _ positive _ u.files root given b account shelf crash allOver
        exact success_unreported b listing assets outcome.symm

theorem pull_deserted (none : style.workers < 1) :
    ∃ v, (pullExport app style listing root).perform u = (.ok listing, v) ∧
    v.files = u.files ∧ v.exchanges = u.exchanges := by
  have count : style.workers.toNat = 0 := by omega
  obtain ⟨v, recorded⟩ := record_succeeds .info "Exported hosting assets"
    [("app_id", .str app), ("count", .int listing.length)] u
  have calm := within_record calm_passage .info "Exported hosting assets"
    [("app_id", .str app), ("count", .int listing.length)] u
  have silent := within_record silent_passage .info "Exported hosting assets"
    [("app_id", .str app), ("count", .int listing.length)] u
  rw [recorded] at calm silent
  refine ⟨v, ?_, calm.1, silent.1⟩
  rw [pullExport, count, perform_bind, Pool.run_deserted]
  simp only [perform_bind, recorded, perform_pure]

end Retrieval

open Retrieval

-- What an export that ends well has done in view of the number of its workers.
structure Exported (send : Sender) (group app : String) (folder : Path) (style : ExportStyle) (listing : List Asset)
    (root : Path) (w u v : World) : Prop where
  opened : (openExport send group app folder).perform w = (.ok (listing, root), u)
  complete : 1 ≤ style.workers → Distinct u.files root (listing.filter fun a => !a.isFolder) →
    ∃ given, Came style.redirects v given ∧ Complete u.files root given (listing.filter fun a => !a.isFolder) v.files
  deserted : style.workers < 1 → v.files = u.files ∧ v.exchanges = u.exchanges

theorem export_exported (send : Sender) (group app : String) (folder : Path) (style : ExportStyle)
    (listing : List Asset) (w v : World)
    (done : (exportAssets send group app folder style).perform w = (.ok listing, v)) :
    ∃ root u, Exported send group app folder style listing root w u v := by
  rw [export_split] at done
  obtain ⟨⟨assets, root⟩, u, opened, pulled⟩ := bind_ok _ _ w v listing done
  have same := pull_listing app style assets root u listing v pulled
  subst same
  have grounded := open_grounded send group app folder listing root w u opened
  refine ⟨root, u, opened, fun workers distinct => ?_, fun none => ?_⟩
  · exact pull_complete app style listing root u listing v workers grounded distinct pulled
  · obtain ⟨x, performed, files, exchanges⟩ := pull_deserted app style listing root u none
    rw [pulled] at performed
    cases performed
    exact ⟨files, exchanges⟩

theorem deserted_succeeds (send : Sender) (group app : String) (folder : Path) (style : ExportStyle)
    (listing : List Asset) (root : Path) (w u : World) (none : style.workers < 1)
    (opened : (openExport send group app folder).perform w = (.ok (listing, root), u)) :
    ∃ v, (exportAssets send group app folder style).perform w = (.ok listing, v) := by
  obtain ⟨v, pulled, _⟩ := pull_deserted app style listing root u none
  refine ⟨v, ?_⟩
  rw [export_split, perform_bind, opened]
  exact pulled

end Hosting

open CommandLine

theorem export_mute (base : Url) (cfg : Path) (group app : String) (folder : Path) (style : Hosting.ExportStyle) :
    Within Mute (Hosting.exportAssets (Session.Channel.send ⟨.wire base, Profile.save cfg⟩) group app folder style) :=
  Hosting.export_within mute_passage (fun _ _ => ⟨rfl, rfl⟩) (fun _ _ _ => ⟨rfl, rfl⟩) (fun _ _ => ⟨rfl, rfl⟩)
    (fun _ _ => ⟨rfl, rfl⟩) _ (fun r _ => sends_mute base cfg r) group app folder style

theorem pull_says (s : Settings) (place : AppPlace) (folder : String) (wish : Option Int) (w : World) :
    (∃ f v, (pullAssets s place folder wish).perform w = (.error f, v) ∧ v.output = w.output) ∨
      ∃ send app listing x y, (Hosting.exportAssets send place.group app (Path.ofString folder)
          ⟨workerCount s wish, true, true⟩).perform x = (.ok listing, y) ∧
        (pullAssets s place folder wish).perform w = (.ok (), { y with
          output := ("Successfully exported " ++ toString listing.length ++ " hosting asset(s) to " ++ folder ++ "\n") ::
            w.output }) := by
  have opening := Session.opening_within mute_passage (fun _ _ => ⟨rfl, rfl⟩) s w
  rw [pullAssets, perform_bind]
  rcases opened : (openSession s).perform w with ⟨f | send, u⟩
  · rw [opened] at opening
    exact .inl ⟨f, u, rfl, opening.2⟩
  · rw [opened] at opening
    obtain ⟨base, rfl⟩ := session_wired s send ⟨w, u, opened⟩
    have sends := fun (r : Request) (_ : r.Routed) => sends_mute base s.configPath r
    have resolving := Session.resolve_within mute_passage _ sends place u
    dsimp only
    rw [perform_bind]
    rcases resolved : (resolveApp (Session.Channel.send ⟨.wire base, Profile.save s.configPath⟩) place).perform u with
      ⟨f | app, x⟩
    · rw [resolved] at resolving
      exact .inl ⟨f, x, rfl, resolving.2.trans opening.2⟩
    · rw [resolved] at resolving
      have exporting := export_mute base s.configPath place.group app (Path.ofString folder)
        ⟨workerCount s wish, true, true⟩ x
      dsimp only
      rw [perform_bind]
      rcases exported : (Hosting.exportAssets (Session.Channel.send ⟨.wire base, Profile.save s.configPath⟩) place.group
          app (Path.ofString folder) ⟨workerCount s wish, true, true⟩).perform x with ⟨f | listing, y⟩
      · rw [exported] at exporting
        exact .inl ⟨f, y, rfl, exporting.2.trans (resolving.2.trans opening.2)⟩
      · rw [exported] at exporting
        have output : y.output = w.output := exporting.2.trans (resolving.2.trans opening.2)
        refine .inr ⟨_, app, listing, x, y, exported, ?_⟩
        simp only [inform, perform_modify, output]

namespace Hosting

open Retrieval

-- Whatever comes and in whatever order, an export that ends well with one worker or more
-- is complete, and an export without workers ends well once the app folder is there. A
-- command has an export that ended well behind it when it says so.
theorem export_complete (n : Nat) (positive : 1 ≤ n) :
    (∀ root files assets, files.root.isFolder = true → Distinct files root assets → ∀ given b,
      Delivered (start root files n assets) given b → b.pool.crash? = none → b.pool.isOver = true →
      ∀ listing, b.outcome listing = .ok listing → Complete files root given assets b.files) ∧
    (∀ send group app folder style listing w v,
      (exportAssets send group app folder style).perform w = (.ok listing, v) →
      ∃ root u, Exported send group app folder style listing root w u v) ∧
    (∀ send group app folder (style : ExportStyle) listing root w u, style.workers < 1 →
      (openExport send group app folder).perform w = (.ok (listing, root), u) →
      ∃ v, (exportAssets send group app folder style).perform w = (.ok listing, v)) ∧
    ∀ s place folder wish w,
      (∃ f v, (pullAssets s place folder wish).perform w = (.error f, v) ∧ v.output = w.output) ∨
      ∃ send app listing root x u y,
        Exported send place.group app (Path.ofString folder) ⟨workerCount s wish, true, true⟩ listing root x u y ∧
        (pullAssets s place folder wish).perform w = (.ok (), { y with
          output := ("Successfully exported " ++ toString listing.length ++ " hosting asset(s) to " ++ folder ++ "\n") ::
            w.output }) := by
  refine ⟨?_, export_exported, deserted_succeeds, ?_⟩
  · intro root files assets grounded distinct given b delivered steady allOver listing outcome
    have account := run_accounted root files n assets b (delivered_run _ b given delivered)
    have shelf := delivered_shelf n assets files root grounded distinct given b delivered
    exact over_complete n positive assets files root given b account shelf steady allOver
      (success_unreported b listing listing outcome)
  · intro s place folder wish w
    rcases pull_says s place folder wish w with failed | ⟨send, app, listing, x, y, exported, said⟩
    · exact .inl failed
    · obtain ⟨root, u, done⟩ := export_exported send place.group app _ _ listing x y exported
      exact .inr ⟨send, app, listing, root, x, u, y, done, said⟩

-- One worker, and one file.
theorem export_complete_file : ∃ b : Retrieval,
    Complete (hostingWith 0 []) appFiles [(hostedFile, [0x61])] [hostedFile] b.files ∧
      b.files.read (appFiles.append "a") = .ok [0x61] := by
  obtain ⟨b, delivered, steady, allOver, silent, files⟩ := app_delivered 0 [0x61]
  have outcome : b.outcome [] = .ok [] := by rw [Retrieval.outcome, silent]
  refine ⟨b, ?_, ?_⟩
  · exact (export_complete 1 (by decide)).1 appFiles _ _ rfl (List.pairwise_singleton _ _) _ b delivered steady allOver
      [] outcome
  · rw [files]
    cbv

end Hosting

end HostingAdmin
