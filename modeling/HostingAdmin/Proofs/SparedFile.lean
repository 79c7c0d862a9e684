import HostingAdmin.Proofs.CommandFailures
import HostingAdmin.Proofs.DeliveredFiles
import HostingAdmin.Proofs.DownloadSteps

set_option autoImplicit false

namespace HostingAdmin

open HostingAdmin.Action

-- Conditions that neither the log nor the terminal nor waiting is about.
def Quiet (I : World → Prop) : Prop :=
  ∀ w v, v.server = w.server → v.exchanges = w.exchanges → v.profile = w.profile → v.renewals = w.renewals →
    v.files = w.files → I w → I v

theorem quiet_lenient (I : World → Prop) (quiet : Quiet I) : Lenient fun w v => I w → I v where
  passage := {
    stay := fun _ holds => holds
    chain := fun _ _ _ first second holds => second (first holds)
    book := fun w _ _ => quiet w _ rfl rfl rfl rfl rfl }
  tells w _ := quiet w _ rfl rfl rfl rfl rfl
  complains w _ := quiet w _ rfl rfl rfl rfl rfl
  hears w _ _ := quiet w _ rfl rfl rfl rfl rfl

-- Conditions that hold on while other files than the one under a path are written, and
-- contents of assets are asked for.
structure Sparing (server : Server) (cfg : Path) (origin : FileTree) (I : World → Prop) : Prop where
  quiet : Quiet I
  serves : ∀ w, I w → w.server = server
  linked : ∀ w, I w → origin.Linked w.files
  held : ∀ w, I w → ∃ body, w.files.read cfg = .ok body
  fetches : ∀ w (r : WireRequest), r.Bare → I w → I { w with exchanges := .sent r :: w.exchanges }
  writes : ∀ w files, w.files.Linked files → files.read cfg = w.files.read cfg → I w → I { w with files }

theorem FileTree.read_grounded (t : FileTree) (p : Path) (body : Bytes) (named : p.parts ≠ [])
    (there : t.read p = .ok body) : t.root.isFolder = true := by
  obtain ⟨spot, modified, located⟩ := FileTree.read_spot t p body there
  obtain ⟨_, walked⟩ := (FileTree.locate_walk t true p _).mp located
  have leaf : ∀ n : Node, n.isFolder = false → ∀ here entries, n.get? here ≠ some (.folder entries) := by
    intro n none here entries found
    cases here with
    | nil =>
        cases found
        cases none
    | cons name rest =>
        cases n with
        | folder below => cases none
        | _ => cases found
  obtain ⟨part, rest, parts⟩ := List.exists_cons_of_ne_nil named
  cases folder : t.root.isFolder with
  | true => rfl
  | false =>
      rw [parts, Node.walk] at walked
      split at walked
      · rename_i entries found
        exact (leaf t.root folder _ entries found).elim
      · cases walked
      · cases walked

namespace Hosting

-- Nothing that an export to a folder may write is the file under a path.
structure Clear (server : Server) (files : FileTree) (cfg folder : Path) : Prop where
  manifest : files.Apart cfg (Manifest.location folder)
  targets : ∀ t root a q, files.Linked t → t.real (Manifest.filesFolder folder) = .ok root → Offered server a →
    Retrieval.Sought files root a q → files.Apart cfg q

theorem location_named (folder : Path) : (Manifest.location folder).parts ≠ [] := by
  have name : Path.ofString "hosting/metadata.json" = ⟨0, ["hosting", "metadata.json"]⟩ := by decide
  simp [Manifest.location, Path.append, Path.join, name, Path.isAbsolute]

theorem listing_offered (server : Server) (send : Sender)
    (given : ∀ r, Ends (Serves server) (Given server) Any (send r)) (group app : String) (w u : World)
    (assets : List Asset) (serves : w.server = server)
    (listed : ((list group app).call send).perform w = (.ok assets, u)) :
    ∀ a ∈ assets.filter (fun a => !a.isFolder), Offered server a := by
  intro a member
  obtain ⟨r, v, sent, ended⟩ := bind_ok _ _ w u assets listed
  have heard := (given _ w serves).2.1 r (by rw [sent])
  obtain ⟨among, file⟩ := List.mem_filter.mp member
  cases read : (list group app).read r with
  | error f =>
      rw [read] at ended
      cases ended
  | ok whole =>
      rw [read] at ended
      cases ended
      exact ⟨group, app, r, assets, heard, read, among, by simpa using file⟩

theorem root_real (p root : Path) (w v : World) (found : (realPath p).perform w = (.ok root, v)) :
    w = v ∧ w.files.real p = .ok root := by
  rw [Retrieval.real_guarded, Prod.mk.injEq] at found
  obtain ⟨looked, same⟩ := found
  refine ⟨same, ?_⟩
  split at looked
  · cases looked
  · cases there : w.files.real p with
    | error loop =>
        rw [there] at looked
        cases looked
    | ok q =>
        rw [there] at looked
        cases looked
        rfl

section

variable {server : Server} {cfg : Path} {origin : FileTree} {I : World → Prop} (spares : Sparing server cfg origin I)

include spares

theorem build_spares (q : Path) : Within (fun w v => I w → I v) (makeFolders q) := by
  apply within_changed (quiet_lenient I spares.quiet).passage
  intro w files made holds
  have built := FileTree.folders_built w.files files q made
  obtain ⟨body, there⟩ := spares.held w holds
  have again := FileTree.built_read w.files files cfg _ built there
  exact spares.writes w files (FileTree.built_linked _ _ built) (again.trans there.symm) holds

variable (named : cfg.parts ≠ [])

include named

theorem place_spares (q : Path) (body : Bytes) (apart : origin.Apart cfg q)
    (solid : q.parts ≠ [] ∨ q.isAbsolute = true) : Within (fun w v => I w → I v) (store q body) := by
  have passage := (quiet_lenient I spares.quiet).passage
  intro u
  rw [Hosting.store_performed]
  refine within_changed passage q _ ?_ u
  intro w files written holds
  obtain ⟨held, there⟩ := spares.held w holds
  have grounded := FileTree.read_grounded w.files cfg _ named there
  have below : q.parts ≠ [] :=
    solid.elim id fun absolute => FileTree.write_named w.files files q body _ grounded absolute written
  have here := FileTree.apart_linked origin w.files (spares.linked w holds) cfg q apart
  have again := FileTree.apart_read w.files files cfg q _ body _ below here there written
  have linked := FileTree.write_linked w.files files q body _ below written
  exact spares.writes w files linked (again.trans there.symm) holds

theorem asset_spares (root : Path) (redirects : Bool) (a : Asset)
    (apart : ∀ q, Retrieval.Sought origin root a q → origin.Apart cfg q) :
    Within (fun w v => I w → I v) (exportAsset root redirects a) := by
  have passage := (quiet_lenient I spares.quiet).passage
  apply within_then passage _ _ (target_within passage root a.path)
  intro w q v found holds
  rw [Retrieval.target_aimed, Prod.mk.injEq] at found
  obtain ⟨aimed, rfl⟩ := found
  have sought : Retrieval.Sought origin root a q := ⟨w.files, spares.linked w holds, aimed⟩
  obtain ⟨t, _, real⟩ := Retrieval.sought_real origin root a q sought
  have absolute := FileTree.real_absolute t _ q real
  have fetched := within_download passage spares.fetches (fun w _ => spares.quiet w _ rfl rfl rfl rfl rfl) a.url redirects
  refine within_bind passage _ _ fetched (fun body => ?_) w holds
  apply within_bind passage _ _ (build_spares spares _)
  exact fun _ => place_spares spares named q body (apart q sought) (.inr absolute)

-- An export writes what it may write, and besides makes folders only.
theorem export_spares (send : Sender) (inside : ∀ r : Request, r.Routed → Within (fun w v => I w → I v) (send r))
    (given : ∀ r, Ends (Serves server) (Given server) Any (send r)) (group app : String) (folder : Path)
    (style : ExportStyle) (clear : Clear server origin cfg folder) :
    Within (fun w v => I w → I v) (exportAssets send group app folder style) := by
  have lenient := quiet_lenient I spares.quiet
  have passage := lenient.passage
  intro w holds
  have called := within_call passage send (list group app) (inside _ (listed_routed group app)) w holds
  rw [exportAssets, perform_bind]
  rcases listed : ((list group app).call send).perform w with ⟨f | assets, u⟩
  · rw [listed] at called
    exact called
  · rw [listed] at called
    have offered := listing_offered server send given group app w u assets (spares.serves w holds) listed
    have described := within_bind passage _ _ (build_spares spares (Manifest.location folder).parent)
      fun _ => place_spares spares named _ (Manifest.fileText (Asset.descriptions assets)) clear.manifest
        (.inl (location_named folder))
    refine within_bind passage _ _ described (fun _ => ?_) u called
    apply within_bind passage _ _ (build_spares spares _)
    intro _
    apply within_then passage _ _ (real_within passage _)
    intro x root y found later
    obtain ⟨rfl, real⟩ := root_real _ root x y found
    have saved : ∀ i, ∀ a ∈ assets.filter (fun a => !a.isFolder),
        Within (fun w v => I w → I v) (exportWork root style.redirects style.talks i a) := by
      intro i a member
      apply saving_within passage lenient.complains
      apply asset_spares spares named root
      exact fun q sought => clear.targets x.files root a q (spares.linked x later) real (offered a member) sought
    refine within_bind passage _ _ (pool_within passage _ _ _ saved) (fun complaints => ?_) x later
    split
    · exact within_throw passage _
    · exact within_bind passage _ _ (within_record passage _ _ _) fun _ => within_pure passage assets

end

end Hosting

end HostingAdmin
