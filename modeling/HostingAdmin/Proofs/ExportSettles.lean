import HostingAdmin.Proofs.DeliveredFiles
import HostingAdmin.Proofs.DownloadSteps

set_option autoImplicit false

namespace HostingAdmin

open HostingAdmin.Action

namespace Hosting

-- What an export does before the downloads.
def openExport (send : Sender) (group app : String) (folder : Path) : Action (List Asset × Path) := do
  let assets ← (list group app).call send
  Manifest.save (Manifest.location folder) (Asset.descriptions assets)
  let files := Manifest.filesFolder folder
  Action.makeFolders files
  let root ← realPath files
  return (assets, root)

-- The downloads, and what comes of them.
def pullExport (app : String) (style : ExportStyle) (assets : List Asset) (root : Path) : Action (List Asset) := do
  match ← Pool.run (exportWork root style.redirects style.talks) style.workers.toNat
      (assets.filter fun a => !a.isFolder) with
  | first :: rest => throw (.exporting (rest.length + 1) first.text)
  | [] =>
    Action.record .info "Exported hosting assets" [("app_id", .str app), ("count", .int assets.length)]
    return assets

theorem export_split (send : Sender) (group app : String) (folder : Path) (style : ExportStyle) :
    exportAssets send group app folder style =
      openExport send group app folder >>= fun x => pullExport app style x.1 x.2 := by
  simp only [openExport, bind_assoc, pure_bind]
  rfl

namespace Retrieval

-- How far the downloads have come in a world, between two assets.
structure Pulling (origin : Retrieval) (redirects talks : Bool) (before : List String) (b : Retrieval) (w : World) :
    Prop where
  run : ∃ given, Delivered origin given b ∧ Came redirects w given
  files : b.files = w.files
  root : b.root = origin.root
  legs : ∀ leg ∈ b.legs, leg = .fresh
  errors : w.errors = told talks b.reported ++ before

def Pulled (origin : Retrieval) (redirects talks : Bool) (before : List String) (s : Pool.State Asset) (w : World) :
    Prop :=
  ∃ b, Pulling origin redirects talks before b w ∧ b.pool = s

theorem pulling_run (origin b : Retrieval) (redirects talks : Bool) (before : List String) (w : World)
    (pulling : Pulling origin redirects talks before b w) : Run origin b := by
  obtain ⟨given, delivered, _⟩ := pulling.run
  exact delivered_run origin b given delivered

theorem pulling_pool (origin b : Retrieval) (redirects talks : Bool) (before : List String) (w : World)
    (pulling : Pulling origin redirects talks before b w) (p : Pool.State Asset) (m : Move) (lawful : m.Lawful)
    (none : b.delivery m = []) (moved : b.step m = some { b with pool := p }) :
    Pulled origin redirects talks before p w := by
  obtain ⟨given, delivered, came⟩ := pulling.run
  have further := Delivered.move given b _ m delivered lawful moved
  rw [none] at further
  exact ⟨{ b with pool := p }, ⟨⟨given, further, came⟩, pulling.files, pulling.root, pulling.legs, pulling.errors⟩, rfl⟩

theorem idle_leg (n : Nat) (assets : List Asset) (b : Retrieval) (account : Account n assets b)
    (fresh : ∀ leg ∈ b.legs, leg = .fresh) (i : Nat) (x : Pool.Worker Asset) (there : b.pool.workers[i]? = some x) :
    b.legs[i]? = some .fresh := by
  obtain ⟨bound, _⟩ := List.getElem?_eq_some_iff.mp there
  have within : i < b.legs.length := by rwa [account.legs, ← account.tally.crew]
  rw [List.getElem?_eq_getElem within, fresh _ (List.getElem_mem within)]

theorem pulled_carries (root : Path) (files : FileTree) (n : Nat) (assets : List Asset) (redirects talks : Bool)
    (before : List String) : Pool.Carries (exportWork root redirects talks) (· = .interrupted)
      (Pulled (start root files n assets) redirects talks before) where
  put := by
    intro s t w pulled moved
    obtain ⟨b, pulling, rfl⟩ := pulled
    exact pulling_pool _ b redirects talks before w pulling t .put trivial rfl (by simp [step, moved])
  take := by
    intro s t i w pulled moved
    obtain ⟨b, pulling, rfl⟩ := pulled
    exact pulling_pool _ b redirects talks before w pulling t (.take i) trivial rfl (by simp [step, moved])
  work := by
    intro s i a w pulled atWork
    obtain ⟨b, pulling, rfl⟩ := pulled
    have account := run_accounted root files n assets b (pulling_run _ b redirects talks before w pulling)
    have busy : b.job? i = some a := by simp [job?, atWork, Pool.Worker.job?]
    have leg := idle_leg n assets b account pulling.legs i _ atWork
    rcases work_does b i a redirects talks w busy leg pulling.files with
      ⟨v, interrupted⟩ | ⟨verdict, v, late, c, performed, run, settles, same, complained, heard⟩
    · refine .inl ⟨.interrupted, v, ?_, rfl⟩
      rwa [pulling.root] at interrupted
    · rw [pulling.root] at performed
      obtain ⟨early, delivered, came⟩ := pulling.run
      have asset := asset_within grows_passage (fun w _ _ => grows_sends w _) (fun _ _ => ⟨rfl, List.suffix_rfl⟩)
        grows_writes root redirects a
      have grows := saving_within grows_passage (fun _ _ => ⟨rfl, List.suffix_rfl⟩) root redirects talks i a asset w
      rw [show (exportWork root redirects talks i a).perform w = (.ok verdict, v) from performed] at grows
      refine .inr ⟨verdict, v, c.pool, performed, settles.pool, c, ?_, rfl⟩
      refine ⟨⟨late ++ early, delivered_further _ b c early late delivered run, ?_⟩, same,
        settles.root.trans pulling.root, ?_, ?_⟩
      · exact came_more redirects v late early heard (came_later redirects w v early grows came)
      · intro leg member
        rw [settles.legs] at member
        rcases List.mem_or_eq_of_mem_set member with old | fresh
        · exact pulling.legs leg old
        · exact fresh
      · rw [complained, pulling.errors, settles.reported, told_more, List.append_assoc]

theorem summary_told (b : Retrieval) (app : String) (listing : List Asset) (v : World) :
    ∃ x, x.files = v.files ∧ x.errors = v.errors ∧ Grows v x ∧
      ((match b.reported with
        | first :: rest => throw (.exporting (rest.length + 1) first.text)
        | [] => do
          Action.record .info "Exported hosting assets" [("app_id", .str app), ("count", .int listing.length)]
          return listing) : Action (List Asset)).perform v = (b.outcome listing, x) := by
  rw [outcome]
  cases b.reported with
  | cons first rest => exact ⟨v, rfl, rfl, grows_passage.stay v, rfl⟩
  | nil =>
      obtain ⟨x, recorded⟩ := record_succeeds .info "Exported hosting assets"
        [("app_id", .str app), ("count", .int listing.length)] v
      have calm := within_record calm_passage .info "Exported hosting assets"
        [("app_id", .str app), ("count", .int listing.length)] v
      have grows := within_record grows_passage .info "Exported hosting assets"
        [("app_id", .str app), ("count", .int listing.length)] v
      rw [recorded] at calm grows
      exact ⟨x, calm.1, calm.2, grows, by simp only [perform_bind, recorded, perform_pure]⟩

-- The downloads of an export are a run of them, and unless a worker was lost they are
-- all done.
theorem pull_delivers (app : String) (style : ExportStyle) (listing : List Asset) (root : Path) (n : Nat)
    (positive : 1 ≤ n) (workers : style.workers = n) (u : World) :
    ∃ r v, (pullExport app style listing root).perform u = (r, v) ∧
      (r = .error .interrupted ∨ ∃ given b,
        Delivered (start root u.files n (listing.filter fun a => !a.isFolder)) given b ∧
        Came style.redirects v given ∧ v.files = b.files ∧ v.errors = told style.talks b.reported ++ u.errors ∧
        (b.pool.crash? = none → b.pool.isOver = true ∧ r = b.outcome listing) ∧
        ∀ f, b.pool.crash? = some f → r = .error f ∨ r = .error .stalled) := by
  have count : style.workers.toNat = n := by rw [workers, Int.toNat_natCast]
  generalize jobsEq : (listing.filter fun a => !a.isFolder) = jobs
  have fresh : Pulled (start root u.files n jobs) style.redirects style.talks u.errors (Pool.State.start n jobs) u := by
    refine ⟨start root u.files n jobs, ⟨⟨[], .rest, fun x member => nomatch member⟩, rfl, rfl,
      fun leg => List.eq_of_mem_replicate, ?_⟩, rfl⟩
    cases style.talks <;> rfl
  rw [pullExport, count, jobsEq, perform_bind, Pool.run, perform_bind]
  rcases Pool.drive_carries _ _ _ (pulled_carries root u.files n jobs style.redirects style.talks u.errors) _ _
      (Nat.le_refl _) u fresh with ⟨f, v, performed, rfl⟩ | ⟨s, v, performed, stuck, b, pulling, rfl⟩
  · exact ⟨_, v, by rw [performed], .inl rfl⟩
  · have account := run_accounted root u.files n jobs b (pulling_run _ b _ _ _ v pulling)
    obtain ⟨given, delivered, came⟩ := pulling.run
    simp only [performed]
    cases crash : b.pool.crash? with
    | some f =>
        cases b.pool.isOver with
        | true =>
            refine ⟨.error f, v, rfl, .inr ⟨given, b, delivered, came, pulling.files.symm, pulling.errors, ?_, ?_⟩⟩
            · intro none
              cases crash.symm.trans none
            · intro g same
              cases crash.symm.trans same
              exact .inl rfl
        | false =>
            refine ⟨.error .stalled, v, rfl,
              .inr ⟨given, b, delivered, came, pulling.files.symm, pulling.errors, ?_, ?_⟩⟩
            · intro none
              cases crash.symm.trans none
            · exact fun g _ => .inr rfl
    | none =>
        have allOver := Pool.stuck_over n jobs b.pool positive account.tally account.missed crash stuck
        simp only [allOver, if_true, perform_pure, ← account.reported]
        obtain ⟨x, files, errors, grows, ended⟩ := summary_told b app listing v
        refine ⟨_, x, ended, .inr ⟨given, b, delivered, came_later _ v x given grows came,
          files.trans pulling.files.symm, errors.trans pulling.errors, ?_, ?_⟩⟩
        · exact fun _ => ⟨allOver, rfl⟩
        · intro f same
          cases crash.symm.trans same

-- The files that an export opens: the folder of the metadata file, that file, and the
-- files folder.
structure Opening (send : Sender) (group app : String) (folder : Path) (listing : List Asset) (root : Path)
    (w u : World) : Prop where
  listed : ∃ v1, ((list group app).call send).perform w = (.ok listing, v1) ∧ ∃ t1 t2 now,
    v1.files.makeFolders (Manifest.location folder).parent = .ok t1 ∧
    t1.write (Manifest.location folder) (Manifest.fileText (Asset.descriptions listing)) now = .ok t2 ∧
    t2.makeFolders (Manifest.filesFolder folder) = .ok u.files
  real : u.files.real (Manifest.filesFolder folder) = .ok root
  location : hasNull (Manifest.location folder) = false
  files : hasNull (Manifest.filesFolder folder) = false

theorem open_steps (send : Sender) (group app : String) (folder : Path) (listing : List Asset) (root : Path)
    (w u : World) (opened : (openExport send group app folder).perform w = (.ok (listing, root), u)) :
    Opening send group app folder listing root w u := by
  obtain ⟨assets, v1, called, opened⟩ := bind_ok _ _ w u _ opened
  obtain ⟨⟨⟩, v2, saved, opened⟩ := bind_ok _ _ v1 u _ opened
  obtain ⟨⟨⟩, v3, made, opened⟩ := bind_ok _ _ v2 u _ opened
  obtain ⟨real, v4, found, opened⟩ := bind_ok _ _ v3 u _ opened
  obtain ⟨⟨⟩, v5, parents, stored⟩ := bind_ok _ _ v1 v2 _ saved
  rw [real_guarded] at found
  obtain ⟨resolved, rfl⟩ := Prod.mk.inj found
  cases opened
  rw [store_performed] at stored
  obtain ⟨_, above⟩ := change_done _ _ v1 v5 parents
  obtain ⟨location, written⟩ := change_done _ _ v5 v2 stored
  obtain ⟨files, below⟩ := change_done _ _ v2 u made
  rw [if_neg (by simp [files])] at resolved
  refine ⟨⟨v1, called, v5.files, v2.files, _, above, written, below⟩, ?_, location, files⟩
  cases real : u.files.real (Manifest.filesFolder folder) with
  | error fault =>
      rw [real] at resolved
      cases resolved
  | ok p =>
      rw [real] at resolved
      cases resolved
      rfl

theorem open_grounded (send : Sender) (group app : String) (folder : Path) (listing : List Asset) (root : Path)
    (w u : World) (opened : (openExport send group app folder).perform w = (.ok (listing, root), u)) :
    u.files.root.isFolder = true := by
  obtain ⟨_, _, _, t2, _, _, _, below⟩ := (open_steps send group app folder listing root w u opened).listed
  exact FileTree.folders_grounded t2 u.files _ below

-- All assets have been attempted, once each. Those that failed were reported under
-- their paths, once each, and made the export fail; the others are where they belong,
-- with contents that came for them.
structure Settled (files : FileTree) (root : Path) (assets : List Asset) (given : List (Asset × Bytes))
    (b : Retrieval) : Prop where
  taken : b.pool.taken = assets
  finished : (b.pool.finished.map Prod.fst).Perm assets
  divided : (b.pool.failures ++ b.saved.map Copy.asset).Perm assets
  complaints : b.reported = b.pool.complaints
  reported : b.reported.map Pool.Complaint.path = b.pool.failures.map Asset.path
  raised : ∀ listing, (∃ count first, b.outcome listing = .error (.exporting count first)) ↔ b.pool.failures ≠ []
  counted : ∀ listing count first, b.outcome listing = .error (.exporting count first) →
    count = b.pool.failures.length ∧ (b.reported.map Pool.Complaint.text).head? = some first
  written : Distinct files root assets → Complete files root given (b.saved.map Copy.asset) b.files
  parted : Parted files root assets → Complete files root given (b.saved.map Copy.asset) b.files

theorem over_settled (n : Nat) (positive : 1 ≤ n) (files : FileTree) (root : Path) (assets : List Asset)
    (grounded : files.root.isFolder = true) (given : List (Asset × Bytes)) (b : Retrieval)
    (delivered : Delivered (start root files n assets) given b) (steady : b.pool.crash? = none)
    (allOver : b.pool.isOver = true) : Settled files root assets given b := by
  have account := run_accounted root files n assets b (delivered_run _ b given delivered)
  have written : Distinct files root assets →
      Complete files root given (b.saved.map Copy.asset) b.files := fun distinct =>
    saved_complete files root given b (delivered_shelf n assets files root grounded distinct given b delivered)
  obtain ⟨taken, finished, divided⟩ := over_accounted n assets b positive account steady allOver
  have reported := reported_failures n assets b account
  have count : b.reported.length = b.pool.failures.length := by
    have same := congrArg List.length reported
    rwa [List.length_map, List.length_map] at same
  refine ⟨taken, finished, divided, account.reported, reported, ?_, ?_, written,
    fun parted => written (parted_distinct files root assets parted)⟩
  · intro listing
    rw [outcome]
    cases told : b.reported with
    | nil =>
        rw [told, List.length_nil] at count
        have clean := List.eq_nil_of_length_eq_zero count.symm
        simp [clean]
    | cons first rest =>
        have some_failed : b.pool.failures ≠ [] := by
          intro none
          rw [told, none] at count
          cases count
        simp [some_failed]
  · intro listing many first ended
    rw [outcome] at ended
    cases told : b.reported with
    | nil =>
        rw [told] at ended
        cases ended
    | cons head rest =>
        rw [told] at ended count
        cases ended
        exact ⟨count, rfl⟩

-- For every number of workers and every order of their steps, and however downloads
-- and files fail: as long as no worker is lost, an export ends, and settles its assets.
-- A worker is lost only to a URL that cannot be requested, a null character in a path,
-- or a link that leads back to itself. What runs here is such an order of steps, with
-- contents that the URLs of the assets were answered with.
theorem export_settles (n : Nat) (positive : 1 ≤ n) :
    (∀ (root : Path) (files : FileTree) (assets : List Asset), files.root.isFolder = true →
      ∀ given b, Delivered (start root files n assets) given b →
        (∀ m c, m.Lawful → b.step m = some c → c.size < b.size) ∧
        (∀ a f, (a, .crashed f) ∈ b.pool.finished → Fatal f) ∧
        (b.pool.crash? = none → b.pool.isOver = false → ∃ m c, m.Lawful ∧ b.step m = some c) ∧
        (b.pool.crash? = none → b.pool.isOver = true → Settled files root assets given b)) ∧
    ∀ send group app folder (style : ExportStyle) w, style.workers = n →
      ∃ r v, (exportAssets send group app folder style).perform w = (r, v) ∧
        ((∃ f, (openExport send group app folder).perform w = (.error f, v) ∧ r = .error f) ∨
          ∃ listing root u, (openExport send group app folder).perform w = (.ok (listing, root), u) ∧
            u.files.root.isFolder = true ∧
            (r = .error .interrupted ∨ ∃ given b,
              Delivered (start root u.files n (listing.filter fun a => !a.isFolder)) given b ∧
              Came style.redirects v given ∧ v.files = b.files ∧
              v.errors = told style.talks b.reported ++ u.errors ∧
              (b.pool.crash? = none → b.pool.isOver = true ∧ r = b.outcome listing) ∧
              ∀ f, b.pool.crash? = some f → r = .error f ∨ r = .error .stalled)) := by
  refine ⟨?_, ?_⟩
  · intro root files assets grounded given b delivered
    have account := run_accounted root files n assets b (delivered_run _ b given delivered)
    refine ⟨?_, ?_, ?_, ?_⟩
    · exact fun m c lawful moved => advance_smaller b c (step_advance b c m lawful moved)
    · exact fun a f lost => account.blamed (a, .crashed f) lost
    · exact step_possible n assets b positive account
    · exact over_settled n positive files root assets grounded given b delivered
  · intro send group app folder style w workers
    rw [export_split, perform_bind]
    rcases opened : (openExport send group app folder).perform w with ⟨f | ⟨listing, root⟩, u⟩
    · exact ⟨.error f, u, rfl, .inl ⟨f, rfl, rfl⟩⟩
    · obtain ⟨r, v, pulled, ended⟩ := pull_delivers app style listing root n positive workers u
      refine ⟨r, v, pulled, .inr ⟨listing, root, u, rfl, ?_, ended⟩⟩
      exact open_grounded send group app folder listing root w u opened

theorem step_aims (b : Retrieval) (i : Nat) (a : Asset) (p : Path) (busy : b.job? i = some a)
    (leg : b.legs[i]? = some .fresh) (found : aimed b.files b.root a.path = .ok p) :
    b.step (.aim i) = some (b.reach i (.aimed p)) := by
  simp only [step, aim, busy, leg, found]

theorem step_houses (b : Retrieval) (i : Nat) (a : Asset) (p : Path) (body : Bytes) (files : FileTree)
    (busy : b.job? i = some a) (leg : b.legs[i]? = some (.fetched p body))
    (made : changed b.files p.parent (fun t => t.makeFolders p.parent) = .ok files) :
    b.step (.house i) = some (({ b with files } : Retrieval).reach i (.housed p body)) := by
  simp only [step, house, busy, leg, made]

theorem step_stores (b : Retrieval) (i : Nat) (a : Asset) (p : Path) (body : Bytes) (files : FileTree) (modified : Int)
    (busy : b.job? i = some a) (leg : b.legs[i]? = some (.housed p body))
    (written : changed b.files p (fun t => t.write p body modified) = .ok files) :
    b.step (.store i modified) =
      ({ b with files, saved := b.saved ++ [⟨a, p, body⟩] } : Retrieval).settle i .done := by
  simp only [step, store, busy, leg, written]

def filesFolder (entries : List (String × Node)) : FileTree := ⟨.folder [("f", .folder entries)], []⟩

def goneAsset : Asset := ⟨"", "/a", "", 0, [], 0, "https://h/a"⟩

def heldAsset : Asset := ⟨"", "/b", "", 0, [], 0, "https://h/b"⟩

-- Two workers at once. The contents of one asset are not there, those of the other are
-- written first.
theorem export_settles_refusal : ∃ b, b.pool.failures = [goneAsset] ∧ b.saved = [⟨heldAsset, ⟨1, ["f", "b"]⟩, [0x62]⟩] ∧
    b.reported =
      [⟨"/a", "downloading '/a' failed => Realm API error (404): failed to get hosting asset - https://h/a"⟩] ∧
    b.files = filesFolder [("b", .file [0x62] 0)] ∧
    Settled (filesFolder []) ⟨1, ["f"]⟩ [goneAsset, heldAsset] [(heldAsset, [0x62])] b := by
  have belowA : relative "/a" = ⟨0, ["a"]⟩ := by decide
  have belowB : relative "/b" = ⟨0, ["b"]⟩ := by decide
  have realA : (filesFolder []).real ⟨1, ["f", "a"]⟩ = .ok ⟨1, ["f", "a"]⟩ := by
    simp [filesFolder, FileTree.real, Node.real, Node.linkCount, Node.linkCounts, Node.get?, Node.child?,
      Path.isAbsolute]
  have realB : (filesFolder []).real ⟨1, ["f", "b"]⟩ = .ok ⟨1, ["f", "b"]⟩ := by
    simp [filesFolder, FileTree.real, Node.real, Node.linkCount, Node.linkCounts, Node.get?, Node.child?,
      Path.isAbsolute]
  have placeA : aimed (filesFolder []) ⟨1, ["f"]⟩ "/a" = .ok ⟨1, ["f", "a"]⟩ := by
    simp only [aimed, target, perform_bind, real_guarded, World.start, belowA, Path.join]
    simp [realA, Path.isAbsolute, hasNull, Path.isWithin]
  have placeB : aimed (filesFolder []) ⟨1, ["f"]⟩ "/b" = .ok ⟨1, ["f", "b"]⟩ := by
    simp only [aimed, target, perform_bind, real_guarded, World.start, belowB, Path.join]
    simp [realB, Path.isAbsolute, hasNull, Path.isWithin]
  have there (follow : Bool) : (filesFolder []).locate follow ⟨1, ["f"]⟩ = .ok (.node ["f"] (.folder [])) := by
    simp +decide [filesFolder, FileTree.locate, Node.walk, Node.get?, Node.child?]
  have folder : (filesFolder []).isFolder ⟨1, ["f"]⟩ = true := by
    rw [FileTree.isFolder, FileTree.node, there]
    rfl
  have housed : changed (filesFolder []) ⟨1, ["f"]⟩ (fun t => t.makeFolders ⟨1, ["f"]⟩) = .ok (filesFolder []) := by
    have standing : (filesFolder []).makeFolder ⟨1, ["f"]⟩ = .error ⟨.exists, "/f"⟩ := by
      rw [FileTree.makeFolder, there]
      rfl
    have null : hasNull ⟨1, ["f"]⟩ = false := by decide
    rw [changed, null, FileTree.makeFolders, standing]
    simp [folder]
  have written : changed (filesFolder []) ⟨1, ["f", "b"]⟩ (fun t => t.write ⟨1, ["f", "b"]⟩ [0x62] 0) =
      .ok (filesFolder [("b", .file [0x62] 0)]) := by
    have vacant : (filesFolder []).locate true ⟨1, ["f", "b"]⟩ = .ok (.vacant ["f", "b"]) := by
      simp +decide [filesFolder, FileTree.locate, Node.walk, Node.get?, Node.child?]
    have null : hasNull ⟨1, ["f", "b"]⟩ = false := by decide
    rw [changed, null, FileTree.write, vacant]
    rfl
  have refused :
      (Move.answer 0 (.error (.rejected ⟨404, "failed to get hosting asset", some "https://h/a"⟩))).Lawful := by
    intro f same
    cases same
    exact .rejected _
  have came : (Move.answer 1 (.ok [0x62])).Lawful := by
    intro f same
    cases same
  have begun : Delivered (start ⟨1, ["f"]⟩ (filesFolder []) 2 [goneAsset, heldAsset]) [] _ :=
    .move [] _ _ (.take 1) (.move [] _ _ .put (.move [] _ _ (.take 0) (.move [] _ _ .put .rest trivial rfl) trivial rfl)
      trivial rfl) trivial rfl
  have aimedA := Delivered.move [] _ _ (.aim 0) begun trivial (step_aims _ 0 goneAsset ⟨1, ["f", "a"]⟩ rfl rfl placeA)
  have aimedB := Delivered.move _ _ _ (.aim 1) aimedA trivial (step_aims _ 1 heldAsset ⟨1, ["f", "b"]⟩ rfl rfl placeB)
  have fetched := Delivered.move _ _ _ (.answer 1 (.ok [0x62])) aimedB came rfl
  have housing := Delivered.move _ _ _ (.house 1) fetched trivial (step_houses _ 1 heldAsset _ [0x62] _ rfl rfl housed)
  have storing := Delivered.move _ _ _ (.store 1 0) housing trivial
    ((step_stores _ 1 heldAsset _ [0x62] _ 0 rfl rfl written).trans rfl)
  have failing := Delivered.move _ _ _
    (.answer 0 (.error (.rejected ⟨404, "failed to get hosting asset", some "https://h/a"⟩)))
    storing refused rfl
  have last : Delivered (start ⟨1, ["f"]⟩ (filesFolder []) 2 [goneAsset, heldAsset]) [(heldAsset, [0x62])] _ :=
    .move _ _ _ (.take 1) (.move _ _ _ .put (.move _ _ _ (.take 0) (.move _ _ _ .put failing trivial rfl) trivial rfl)
      trivial rfl) trivial rfl
  exact ⟨_, rfl, rfl, by decide, rfl, ((export_settles 2 (by decide)).1 _ _ _ rfl _ _ last).2.2.2 rfl rfl⟩

end Retrieval

end Hosting

end HostingAdmin
