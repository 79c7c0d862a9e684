import Mathlib.Computability.Primrec.List
import HostingAdmin.Proofs.DiffScan
import HostingAdmin.Proofs.ImportRequests
import HostingAdmin.Proofs.LocalListing

set_option autoImplicit false

namespace HostingAdmin

open HostingAdmin.Action

-- Only the files, the log and the marks differ.
def Aside (w v : World) : Prop := ∃ files marks log, v = { w with files, marks, log }

theorem aside_passage : Passage Aside where
  stay w := ⟨w.files, w.marks, w.log, rfl⟩
  chain u v w first second := by
    obtain ⟨_, _, _, rfl⟩ := first
    obtain ⟨files, marks, log, rfl⟩ := second
    exact ⟨files, marks, log, rfl⟩
  book w log marks := ⟨w.files, marks, log, rfl⟩

theorem logged_aside (w v : World) (logged : Logged w v) : Aside w v := by
  obtain ⟨marks, log, rfl⟩ := logged
  exact ⟨w.files, marks, log, rfl⟩

namespace Diff

open Asset

-- Local assets with the paths of some hosted ones.
section

variable (here listing : List Asset) (kept : Asset → Bool) (distinct : (listing.map Asset.path).Nodup)
  (paths : ∀ path, path ∈ here.map Asset.path ↔ path ∈ (listing.filter kept).map Asset.path)

include paths

theorem added_none (merge : Bool) : (between here listing merge).added = [] := by
  rw [between_added, List.filter_eq_nil_iff]
  intro a member new
  have listed := (firsts_paths here a.path).mp (List.mem_map_of_mem member)
  obtain ⟨b, there, same⟩ := List.mem_map.mp ((paths a.path).mp listed)
  have hosted := List.mem_of_mem_filter there
  cases found : latest? listing a.path with
  | some c => simp [isNew, by_path_lookup, found] at new
  | none =>
      have absent := List.find?_eq_none.mp found b (List.mem_reverse.mpr hosted)
      simp [same] at absent

include distinct

theorem local_kept (a : Asset) (hosted : a ∈ listing) : a.path ∈ here.map Asset.path ↔ kept a = true := by
  rw [paths]
  constructor
  · intro member
    obtain ⟨b, there, same⟩ := List.mem_map.mp member
    obtain ⟨listed, keeps⟩ := List.mem_filter.mp there
    rwa [List.inj_on_of_nodup_map distinct hosted listed same.symm]
  · intro keeps
    exact List.mem_map_of_mem (List.mem_filter.mpr ⟨hosted, keeps⟩)

theorem deleted_others : (between here listing false).deleted = listing.filter fun a => !kept a := by
  have whole : byPath listing = listing.map fun a => (a.path, a) := by
    apply Members.pairs_distinct
    rwa [Members.names, List.map_map]
  rw [between_deleted, if_neg Bool.false_ne_true, leftovers, whole, List.filter_map, List.map_map]
  have plain : (Prod.snd ∘ fun a : Asset => (a.path, a)) = id := rfl
  rw [plain, List.map_id]
  apply List.filter_congr
  intro a hosted
  have known := local_kept here listing kept distinct paths a hosted
  rw [← firsts_paths] at known
  show decide (a.path ∉ (firsts [] here).map Asset.path) = !kept a
  by_cases keeps : kept a = true
  · rw [keeps]
    exact decide_eq_false fun absent => absent (known.mpr keeps)
  · rw [Bool.not_eq_true] at keeps
    rw [keeps]
    refine decide_eq_true fun listed => ?_
    rw [known.mp listed] at keeps
    cases keeps

end

end Diff

namespace Listing

-- The first hosted asset that has a description and is not among those with a file.
def describedOther? (kept : Asset → Bool) (listing : List Asset) : Option Asset :=
  listing.find? fun a => !kept a && a.description?.isSome

-- When all of these are there, what is missing is another one.
theorem missing_other (kept : Asset → Bool) (listing here : List Asset) (distinct : (listing.map Asset.path).Nodup)
    (known : ∀ a ∈ listing, a.path ∈ here.map Asset.path ↔ kept a = true) :
    missing? (Manifest.byPath (Asset.descriptions listing)) here = (describedOther? kept listing).map Asset.path := by
  have plain := Manifest.descriptions_plain listing distinct
  have missing : ∀ a ∈ listing, (!here.any fun b => b.path = a.path) = !kept a := by
    intro a hosted
    have found : (here.any fun b => decide (b.path = a.path)) = true ↔ a.path ∈ here.map Asset.path := by simp
    rw [known a hosted] at found
    rw [Bool.eq_iff_iff.mpr found]
  rw [plain, missing?, describedOther?]
  clear plain distinct known
  induction listing with
  | nil => rfl
  | cons a rest ih =>
      have others := ih fun b member => missing b (List.mem_cons_of_mem a member)
      rw [Asset.descriptions, List.filterMap_cons]
      cases described : a.description? with
      | none =>
          rw [List.find?_cons_of_neg (by simp [described])]
          exact others
      | some d =>
          have first := missing a List.mem_cons_self
          cases keeps : kept a with
          | false =>
              rw [keeps] at first
              rw [List.map_cons, List.find?_cons_of_pos (by rw [Asset.described_path a d described]; exact first),
                List.find?_cons_of_pos (by simp [keeps, described])]
              simp [Asset.described_path a d described]
          | true =>
              rw [keeps] at first
              rw [List.map_cons, List.find?_cons_of_neg (by rw [Asset.described_path a d described, first]; decide),
                List.find?_cons_of_neg (by simp [keeps])]
              exact others

end Listing

namespace Hosting.Retrieval

open Listing CommandLine

def isFile (a : Asset) : Bool := !a.isFolder

-- What a comparison asks of everything else: a cache that can be read and written, and
-- the same listing again.
structure Answers (s : Settings) (send : Sender) (group app : String) (listing : List Asset) (w : World) : Prop where
  loads : ∃ known v, (Cache.load s.cachePath).perform w = (.ok known, v)
  saves : ∀ (c : Cache) v, Logged w v → ∃ saved x, (c.save s.cachePath).perform v = (.ok saved, x)
  lists : ∀ v, Aside w v → ∃ x, ((list group app).call send).perform v = (.ok listing, x)

theorem compare_performed (s : Settings) (send : Sender) (group app : String) (folder : Path) (listing : List Asset)
    (w v x : World) (known c : Cache) (result : Except Failure (List Asset))
    (answers : Answers s send group app listing w) (loaded : (Cache.load s.cachePath).perform w = (.ok known, v))
    (listed : (ofApp app folder known).perform v = (.ok (result, c), x)) (logged : Logged w x) :
    ((findDiff s send group app folder .replace).perform w).1 =
      result.map fun here => Diff.between here listing false := by
  rw [findDiff, perform_bind, loaded]
  simp only [perform_bind, listed]
  cases result with
  | error f => rfl
  | ok here =>
      cases dirty : c.dirty with
      | false =>
          obtain ⟨z, called⟩ := answers.lists x (logged_aside w x logged)
          simp only [Action.ofExcept, perform_pure, Bool.false_eq_true, if_false, perform_bind, called]
          rfl
      | true =>
          obtain ⟨saved, y, stored⟩ := answers.saves c x logged
          have stowed := stow_within aside_passage (fun w files => ⟨files, w.marks, w.log, rfl⟩) c s.cachePath x
          rw [stored] at stowed
          obtain ⟨z, called⟩ := answers.lists y (aside_passage.chain w x y (logged_aside w x logged) stowed)
          simp only [Action.ofExcept, perform_pure, if_true, perform_bind, stored, called]
          rfl

-- The files of a listing that are found in an app folder.
def isFound (folder : Path) (a : Asset) : Bool := inReach folder a && isFile a

-- They have paths that can be looked up.
def Short (folder : Path) (listing : List Asset) : Prop :=
  ∀ a ∈ listing.filter (isFound folder), ¬ TooLong (nearPath folder a)

-- What the comparison of an exported app comes to. Nothing is new, and what is hosted and
-- not found is to be deleted: folders, and files in folders with paths that are too long.
-- The first of these that has a description is missing, and makes the comparison fail, as
-- the path of a file does that is found and is too long.
inductive Compared (folder : Path) (listing : List Asset) : Except Failure Diff → Prop where
  | same (d : Diff) (short : Short folder listing) (plain : describedOther? (isFound folder) listing = none)
      (added : d.added = []) (deleted : d.deleted = listing.filter fun a => !isFound folder a) :
      Compared folder listing (.ok d)
  | described (a : Asset) (short : Short folder listing) (first : describedOther? (isFound folder) listing = some a) :
      Compared folder listing (.error (.hosting (.noFile a.path)))
  | long (a : Asset) (member : a ∈ listing.filter (isFound folder)) (long : TooLong (nearPath folder a)) :
      Compared folder listing (.error (.file ⟨.nameTooLong, (nearPath folder a).toString⟩))

theorem difference_exported (listing : List Asset) (distinct : (listing.map Asset.path).Nodup) (folder : Path)
    (tidy : Tidy (listing.filter isFile)) (hosting : List String) (s : Settings) (send : Sender) (group app : String)
    (w : World) (answers : Answers s send group app listing w)
    (exported : Exported w.files folder hosting (listing.filter isFile)
      (Manifest.fileText (Asset.descriptions listing)))
    (clean : hasNull (Manifest.location folder) = false) (also : hasNull (Manifest.filesFolder folder) = false) :
    Compared folder listing ((findDiff s send group app folder .replace).perform w).1 := by
  obtain ⟨known, v, loaded⟩ := answers.loads
  have first := Session.known_within logged_passage s.cachePath w
  rw [loaded] at first
  have files : v.files = w.files := by
    obtain ⟨_, _, rfl⟩ := first
    rfl
  rw [← files] at exported
  obtain ⟨result, c, x, listed, comes⟩ := app_listed app folder hosting _ _ v known exported tidy clean also
  have found : (listing.filter isFile).filter (inReach folder) = listing.filter (isFound folder) :=
    List.filter_filter
  rw [found] at comes
  have second := Session.listing_within logged_passage app folder known v
  rw [listed] at second
  rw [compare_performed s send group app folder listing w v x known c _ answers loaded listed
    (logged_passage.chain w v x first second)]
  cases comes with
  | long a member long => exact .long a member long
  | judged here short paths =>
      have missing := missing_other (isFound folder) listing here distinct
        fun a hosted => Diff.local_kept here listing (isFound folder) distinct paths a hosted
      rw [judged, missing]
      cases other : describedOther? (isFound folder) listing with
      | some a => exact .described a short other
      | none =>
          exact .same _ short other (Diff.added_none here listing (isFound folder) paths false)
            (Diff.deleted_others here listing (isFound folder) distinct paths)

theorem listing_tidy (listing : List Asset) (distinct : (listing.map Asset.path).Nodup)
    (named : ∀ a ∈ listing, isFile a = true → ∃ names, Named names ∧ a.path = assetPath names) :
    Tidy (listing.filter isFile) where
  distinct := (List.filter_sublist.map Asset.path).nodup distinct
  named a member := by
    obtain ⟨listed, file⟩ := List.mem_filter.mp member
    exact named a listed file

theorem run_compared (n : Nat) (positive : 1 ≤ n) (send : Sender) (group app : String) (folder : Path)
    (listing : List Asset) (w v : World) (listed : ((list group app).call send).perform w = (.ok listing, v))
    (distinct : (listing.map Asset.path).Nodup)
    (named : ∀ a ∈ listing, isFile a = true → ∃ names, Named names ∧ a.path = assetPath names)
    (t : FileTree) (parents : v.files.makeFolders folder = .ok t)
    (vacant : t.contains (folder.append "hosting") = false) (down : ".." ∉ t.current) (root : Path) (u : World)
    (opening : (openExport send group app folder).perform w = (.ok (listing, root), u)) (b : Retrieval)
    (run : Run (start root u.files n (listing.filter isFile)) b) (steady : b.pool.crash? = none)
    (allOver : b.pool.isOver = true) (clean : b.reported = []) (s : Settings) (again : Sender) (group' app' : String)
    (x : World) (same : x.files = b.files) (answers : Answers s again group' app' listing x) :
    Compared folder listing ((findDiff s again group' app' folder .replace).perform x).1 := by
  have tidy := listing_tidy listing distinct named
  have opened := open_steps send group app folder listing root w u opening
  obtain ⟨v', listed', t1, t2, now, above, written, below⟩ := opened.listed
  rw [listed] at listed'
  cases listed'
  obtain ⟨hosting, current, there⟩ := Manifest.hosting_opened v.files t t1 t2 u.files folder _ now parents vacant
    above written below
  have real := opened.real
  rw [FileTree.leads_real u.files _ _ (FileTree.opens_leads u.files _ _ there.opens)] at real
  cases real
  have exported := run_exported u.files folder hosting _ there n positive _ tidy (by rw [current]; exact down)
    (open_grounded send group app folder listing _ w u opening) b run steady allOver clean
  rw [← same] at exported
  exact difference_exported listing distinct folder tidy hosting s again group' app' x answers exported
    opened.location opened.files

theorem pull_returned (app : String) (style : ExportStyle) (listing assets : List Asset) (root : Path) (n : Nat)
    (positive : 1 ≤ n) (workers : style.workers = n) (u y : World)
    (performed : (pullExport app style listing root).perform u = (.ok assets, y)) :
    assets = listing ∧ ∃ b, Run (start root u.files n (listing.filter isFile)) b ∧ b.pool.crash? = none ∧
      b.pool.isOver = true ∧ b.reported = [] ∧ y.files = b.files := by
  obtain ⟨r, z, pulled, ended⟩ := pull_delivers app style listing root n positive workers u
  have returned := pulled.symm.trans performed
  cases returned
  rcases ended with interrupted | ⟨given, b, delivered, _, files, _, settled, lost⟩
  · cases interrupted
  · cases crash : b.pool.crash? with
    | some f =>
        rcases lost f crash with same | stalled
        · cases same
        · cases stalled
    | none =>
        obtain ⟨allOver, same⟩ := settled crash
        rw [outcome] at same
        cases reported : b.reported with
        | nil =>
            rw [reported] at same
            cases same
            exact ⟨rfl, b, delivered_run _ b given delivered, crash, allOver, reported, files⟩
        | cons first rest =>
            rw [reported] at same
            cases same

section

-- A hosted folder and a hosted file, and the answer that lists them.

def hostedFolder : Asset := ⟨"", "/d/", "", 0, [], 0, ""⟩

def hostedFile : Asset := ⟨"", "/a", "", 0, [], 0, "https://h/a"⟩

def answerJson : Json := .arr [.obj [("path", .str "/d/")], .obj [("path", .str "/a"), ("url", .str "https://h/a")]]

def answering : Sender := fun _ => pure ⟨200, [], Text.utf8 answerJson.spaced⟩

theorem answer_listed (w : World) :
    ((list "g" "a").call answering).perform w = (.ok [hostedFolder, hostedFile], w) := by
  have legible : Json.Legible .free 0 answerJson :=
    ⟨rfl, ⟨rfl, by decide, trivial, trivial⟩, ⟨rfl, by decide, trivial, trivial, trivial⟩, trivial⟩
  have front : ∃ rest, answerJson.spaced.toList = '[' :: '\x7b' :: rest := by
    rw [Json.spaced, answerJson, Json.array_chars, Json.object_chars]
    exact ⟨_, rfl⟩
  obtain ⟨rest, chars⟩ := front
  have parsed : Json.ofBytes (Text.utf8 answerJson.spaced) = .ok answerJson :=
    Json.bytes_read .spaced Json.spaced_regular answerJson legible '[' '\x7b' rest chars (.inl rfl) (by decide)
  have some_body : (Text.utf8 answerJson.spaced).isEmpty = false := by
    rw [Text.utf8, chars]
    rfl
  have read : (list "g" "a").read ⟨200, [], Text.utf8 answerJson.spaced⟩ = .ok [hostedFolder, hostedFile] := by
    simp only [list, Endpoint.readListing, Rejection.check, some_body, parsed]
    rfl
  rw [Endpoint.call, perform_bind]
  simp only [answering, perform_pure, read, Action.ofExcept]

-- The app folder, and what is in it once the export has begun.

def appWith (entries : List (String × Node)) : FileTree := ⟨.folder [("app", .folder entries)], []⟩

def metadata (time : Int) : String × Node := ("metadata.json", .file (Manifest.fileText []) time)

def hostingWith (time : Int) (files : List (String × Node)) : FileTree :=
  appWith [("hosting", .folder [metadata time, ("files", .folder files)])]

def appFiles : Path := ⟨1, ["app", "hosting", "files"]⟩

theorem app_opened (w : World) (files : w.files = appWith []) :
    (openExport answering "g" "a" ⟨1, ["app"]⟩).perform w =
      (.ok ([hostedFolder, hostedFile], appFiles), { w with files := hostingWith (nanoseconds w.clock) [] }) := by
  have location : Manifest.location ⟨1, ["app"]⟩ = ⟨1, ["app", "hosting", "metadata.json"]⟩ := by decide
  have above : (Manifest.location ⟨1, ["app"]⟩).parent = ⟨1, ["app", "hosting"]⟩ := by decide
  have below : Manifest.filesFolder ⟨1, ["app"]⟩ = appFiles := by decide
  have texts : Asset.descriptions [hostedFolder, hostedFile] = [] := by decide
  have made : (appWith []).makeFolders ⟨1, ["app", "hosting"]⟩ = .ok (appWith [("hosting", .folder [])]) := by
    cbv
  have written : (appWith [("hosting", .folder [])]).write ⟨1, ["app", "hosting", "metadata.json"]⟩
      (Manifest.fileText []) (nanoseconds w.clock) =
        .ok (appWith [("hosting", .folder [metadata (nanoseconds w.clock)])]) := by
    generalize nanoseconds w.clock = time
    cbv
  have filed : (appWith [("hosting", .folder [metadata (nanoseconds w.clock)])]).makeFolders appFiles =
      .ok (hostingWith (nanoseconds w.clock) []) := by
    generalize nanoseconds w.clock = time
    cbv
  have real : (hostingWith (nanoseconds w.clock) []).real appFiles = .ok appFiles := by
    generalize nanoseconds w.clock = time
    cbv
  have saved : (Manifest.save (Manifest.location ⟨1, ["app"]⟩) []).perform w =
      (.ok (), { w with files := appWith [("hosting", .folder [metadata (nanoseconds w.clock)])] }) := by
    rw [Manifest.save, above, location, perform_bind, Action.makeFolders,
      change_succeeds _ _ w _ (by decide) (by rw [files]; exact made)]
    exact (store_performed _ _ _).trans (change_succeeds _ _ _ _ (by decide) written)
  have built := change_succeeds appFiles (fun t => t.makeFolders appFiles)
    { w with files := appWith [("hosting", .folder [metadata (nanoseconds w.clock)])] } _ (by decide) filed
  have clean : hasNull appFiles = false := by decide
  rw [openExport, perform_bind, answer_listed]
  simp only [texts, perform_bind, saved, below, Action.makeFolders, built, real_guarded, clean, real]
  rfl

theorem app_delivered (time : Int) (body : Bytes) :
    ∃ b, Delivered (start appFiles (hostingWith time []) 1 [hostedFile]) [(hostedFile, body)] b ∧
      b.pool.crash? = none ∧ b.pool.isOver = true ∧ b.reported = [] ∧
      b.files = hostingWith time [("a", .file body 0)] := by
  have clean : hasNull (appFiles.append "a") = false := by decide
  have real : (hostingWith time []).real (appFiles.append "a") = .ok (appFiles.append "a") := by
    cbv
  have place : aimed (hostingWith time []) appFiles "/a" = .ok (appFiles.append "a") := by
    have below : appFiles.join (relative "/a") = appFiles.append "a" := by decide
    have within : (appFiles.append "a").isWithin appFiles = true := by decide
    simp only [aimed, target, perform_bind, real_guarded, World.start, below, clean, Bool.false_eq_true, if_false,
      real, mapped_ok, within]
    rfl
  have housed : changed (hostingWith time []) (appFiles.append "a").parent
      (fun t => t.makeFolders (appFiles.append "a").parent) = .ok (hostingWith time []) := by
    have above : (appFiles.append "a").parent = appFiles := by decide
    have there : hasNull appFiles = false := by decide
    have made : (hostingWith time []).makeFolders appFiles = .ok (hostingWith time []) := by
      cbv
    rw [above, changed, there, made]
    rfl
  have written : (hostingWith time []).write (appFiles.append "a") body 0 =
      .ok (hostingWith time [("a", .file body 0)]) := by
    cbv
  have stored : changed (hostingWith time []) (appFiles.append "a")
      (fun t => t.write (appFiles.append "a") body 0) = .ok (hostingWith time [("a", .file body 0)]) := by
    rw [changed, clean, written]
    rfl
  have lawful : (Move.answer 0 (.ok body)).Lawful := by
    intro f same
    cases same
  have begun : Delivered (start appFiles (hostingWith time []) 1 [hostedFile]) [] _ :=
    .move [] _ _ (.take 0) (.move [] _ _ .put .rest trivial rfl) trivial rfl
  have aiming := Delivered.move [] _ _ (.aim 0) begun trivial
    (step_aims _ 0 hostedFile (appFiles.append "a") rfl rfl place)
  have housing := Delivered.move _ _ _ (.house 0) (.move [] _ _ _ aiming lawful rfl) trivial
    (step_houses _ 0 hostedFile _ body _ rfl rfl housed)
  have storing := Delivered.move _ _ _ (.store 0 0) housing trivial
    ((step_stores _ 0 hostedFile _ body _ 0 rfl rfl stored).trans rfl)
  exact ⟨_, .move _ _ _ (.take 0) (.move _ _ _ .put storing trivial rfl) trivial rfl, rfl, rfl, rfl, rfl⟩

theorem app_pulled (time : Int) (body : Bytes) :
    ∃ b, Run (start appFiles (hostingWith time []) 1 [hostedFile]) b ∧ b.pool.crash? = none ∧
      b.pool.isOver = true ∧ b.reported = [] ∧ b.files = hostingWith time [("a", .file body 0)] := by
  obtain ⟨b, delivered, ended⟩ := app_delivered time body
  exact ⟨b, delivered_run _ b _ delivered, ended⟩

def rootSettings : Settings := ⟨"", ⟨1, ["profile.json"]⟩, 1, 0, "", false⟩

theorem root_answers (w : World) (time : Int) (body : Bytes)
    (files : w.files = hostingWith time [("a", .file body 0)]) :
    Answers rootSettings answering "g" "a" [hostedFolder, hostedFile] w := by
  have cache : rootSettings.cachePath = ⟨1, [".asset-cache.json"]⟩ := by decide
  have clean : hasNull ⟨1, [".asset-cache.json"]⟩ = false := by decide
  refine ⟨⟨.empty, w, ?_⟩, ?_, fun v _ => ⟨v, answer_listed v⟩⟩
  · have absent : w.files.node ⟨1, [".asset-cache.json"]⟩ = .error ⟨.notFound, "/.asset-cache.json"⟩ := by
      rw [files]
      cbv
    have missing : (fileExists ⟨1, [".asset-cache.json"]⟩).perform w = (.ok false, w) := by
      simp [fileExists, nodeAt?, clean, perform_bind, absent]
    rw [cache, Cache.load, perform_bind, missing]
    rfl
  · rintro c v ⟨marks, log, rfl⟩
    have above : (⟨1, [".asset-cache.json"]⟩ : Path).parent = ⟨1, []⟩ := by decide
    have made : w.files.makeFolders ⟨1, []⟩ = .ok w.files := by
      rw [files]
      cbv
    have vacant : w.files.locate true ⟨1, [".asset-cache.json"]⟩ = .ok (.vacant [".asset-cache.json"]) := by
      rw [files]
      cbv
    have written : ∃ t, w.files.write ⟨1, [".asset-cache.json"]⟩ c.fileText (nanoseconds w.clock) = .ok t :=
      ⟨_, by rw [FileTree.write, vacant]; rfl⟩
    obtain ⟨t, written⟩ := written
    have parents := change_succeeds ⟨1, []⟩ (fun t => t.makeFolders ⟨1, []⟩) { w with marks, log } _ (by decide) made
    have stored := (store_performed _ _ _).trans
      (change_succeeds ⟨1, [".asset-cache.json"]⟩ _ { w with marks, log } t clean written)
    refine ⟨{ c with dirty := false }, { w with files := t, marks, log }, ?_⟩
    rw [cache, Cache.save, above]
    simp only [Action.makeFolders, perform_bind, parents, stored, perform_pure]

end

end Hosting.Retrieval

end HostingAdmin
