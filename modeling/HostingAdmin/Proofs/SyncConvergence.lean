import HostingAdmin.Proofs.AcceptedChanges
import HostingAdmin.Proofs.AttributeOrder

set_option autoImplicit false

namespace HostingAdmin.Hosting

open Asset Diff

theorem planned_readable (here remote : List Asset) (merge : Bool) (hashed : ∀ a ∈ here, a.hash ≠ "")
    (short : ∀ a ∈ here, Json.Short a.size) (op : Operation) (planned : Planned here remote merge op) :
    op.Readable := by
  have uploaded : ∀ a, op.effect = .upload a → a ∈ here := by
    intro a uploads
    cases op with
    | add c =>
        cases uploads
        exact (first_path here a.path a planned.1).1
    | delete c => cases uploads
    | modify m =>
        obtain ⟨there, found, _⟩ := planned
        simp only [Operation.effect] at uploads
        split at uploads
        · cases uploads
          exact (first_path here m.asset.path m.asset found).1
        · split at uploads <;> cases uploads
  exact ⟨fun a uploads => hashed a (uploaded a uploads), fun a uploads => short a (uploaded a uploads)⟩

theorem unchanged_same (a there : Asset) (same : (Modification.between a there).isChange = false) :
    there.hash = a.hash ∧ there.attrs.Perm a.attrs := by
  simp only [Modification.isChange, Modification.between, Bool.or_eq_false_iff, bne_eq_false_iff_eq,
    Bool.not_eq_false'] at same
  exact ⟨same.1.symm, ((Attribute.same_all_perm _ _).mp same.2).symm⟩

section

variable (here remote : List Asset) (merge : Bool) (served : List Change)
  (order : served.Perm ((Operation.ofDiff (between here remote merge)).filterMap Operation.change?))

include order

theorem synced_local (path : String) (a : Asset) (found : first? here path = some a) :
    ∃ x, (Store.ofListing remote).changeAll served path = some x ∧ x.hash = a.hash ∧ x.attrs.Perm a.attrs := by
  have pathEq := (first_path here path a found).2
  subst pathEq
  cases last : latest? remote a.path with
  | none =>
      have planned : Planned here remote merge (.add a) := ⟨found, last⟩
      have stored := served_planned here remote merge served order (Store.ofListing remote) _ planned
      exact ⟨⟨a.hash, a.attrs⟩, stored, rfl, List.Perm.refl _⟩
  | some there =>
      have before : Store.ofListing remote a.path = some ⟨there.hash, there.attrs⟩ := by
        rw [Store.ofListing, last, Option.map_some]
      cases differs : (Modification.between a there).isChange with
      | true =>
          have planned : Planned here remote merge (.modify (Modification.between a there)) :=
            ⟨there, found, last, rfl, differs⟩
          have after := served_planned here remote merge served order (Store.ofListing remote) _ planned
          rw [show (Operation.modify (Modification.between a there)).path = a.path from rfl, before] at after
          rw [after]
          by_cases body : a.hash = there.hash
          · have attrs : (Modification.between a there).attrsChanged = true := by
              simpa [Modification.isChange, Modification.between, body] using differs
            have same : (Modification.between a there).bodyChanged = false := by simp [Modification.between, body]
            refine ⟨⟨there.hash, a.attrs⟩, ?_, body.symm, List.Perm.refl _⟩
            simp only [Operation.change?, Operation.effect, same, attrs, Bool.false_eq_true, if_false, if_true]
            rfl
          · have changed : (Modification.between a there).bodyChanged = true := by simp [Modification.between, body]
            refine ⟨⟨a.hash, a.attrs⟩, ?_, rfl, List.Perm.refl _⟩
            simp only [Operation.change?, Operation.effect, changed, if_true]
            rfl
      | false =>
          obtain ⟨hash, attrs⟩ := unchanged_same a there differs
          refine ⟨⟨there.hash, there.attrs⟩, ?_, hash, attrs⟩
          rw [← before]
          exact served_unplanned here remote merge served order _ a.path (by simp [planned?, found, last, differs])

theorem synced_remote (path : String) (missing : first? here path = none) :
    (Store.ofListing remote).changeAll served path = if merge then Store.ofListing remote path else none := by
  have unplanned : planned? here remote merge path = none → (Store.ofListing remote).changeAll served path =
      Store.ofListing remote path := served_unplanned here remote merge served order _ path
  cases last : latest? remote path with
  | none =>
      rw [unplanned (by simp [planned?, missing, last])]
      simp [Store.ofListing, last]
  | some there =>
      have pathEq := (latest_path remote path there last).2
      subst pathEq
      cases merge with
      | true => exact unplanned (by simp [planned?, missing, last])
      | false => exact served_planned here remote false served order _ (.delete there) ⟨rfl, last, missing⟩

end

theorem same_unchanged (a there : Asset) (hash : there.hash = a.hash) (attrs : there.attrs.Perm a.attrs) :
    (Modification.between a there).isChange = false := by
  have same := (Attribute.same_all_perm a.attrs there.attrs).mpr attrs.symm
  simp [Modification.isChange, Modification.between, hash, same]

theorem settled_empty (here listing : List Asset) (merge : Bool)
    (locals : ∀ path a, first? here path = some a →
      ∃ x, Store.ofListing listing path = some x ∧ x.hash = a.hash ∧ x.attrs.Perm a.attrs)
    (others : merge = false → ∀ path, first? here path = none → Store.ofListing listing path = none) :
    (between here listing merge).isEmpty = true := by
  have nothing : Operation.ofDiff (between here listing merge) = [] := by
    rw [List.eq_nil_iff_forall_not_mem]
    intro op member
    have planned := (plan_mem here listing merge op).mp member
    cases op with
    | add a =>
        obtain ⟨x, stored, _⟩ := locals a.path a planned.1
        simp [Store.ofListing, planned.2] at stored
    | delete a =>
        have gone := others planned.1 a.path planned.2.2
        simp [Store.ofListing, planned.2.1] at gone
    | modify m =>
        obtain ⟨there, found, last, built, changed⟩ := planned
        obtain ⟨x, stored, hash, attrs⟩ := locals m.asset.path m.asset found
        rw [Store.ofListing, last, Option.map_some, Option.some.injEq] at stored
        subst stored
        rw [built, same_unchanged m.asset there hash attrs] at changed
        cases changed
  simpa [Operation.ofDiff, isEmpty, and_assoc] using nothing

-- What hosting is brought to: the first local asset of each path, up to the order of its
-- attributes, and else nothing or what there was. Then nothing is left to be done.
structure Synced (here remote : List Asset) (merge : Bool) (after : Store) : Prop where
  locals : ∀ path a, first? here path = some a →
    ∃ x, after path = some x ∧ x.hash = a.hash ∧ x.attrs.Perm a.attrs
  others : ∀ path, first? here path = none → after path = if merge then Store.ofListing remote path else none
  listed : ∃ listing, Store.ofListing listing = after
  settled : ∀ listing, Store.ofListing listing = after → (between here listing merge).isEmpty = true

theorem served_synced (here remote : List Asset) (merge : Bool) (served : List Change)
    (order : served.Perm ((Operation.ofDiff (between here remote merge)).filterMap Operation.change?)) :
    Synced here remote merge ((Store.ofListing remote).changeAll served) := by
  have locals := synced_local here remote merge served order
  have others := synced_remote here remote merge served order
  refine ⟨locals, others, ?_, ?_⟩
  · refine ⟨_, Store.listing_stored _ (here.map Asset.path ++ remote.map Asset.path) ?_⟩
    intro path stored
    rw [List.mem_append]
    cases found : first? here path with
    | some a =>
        obtain ⟨member, same⟩ := first_path here path a found
        exact .inl (same ▸ List.mem_map_of_mem member)
    | none =>
        rw [others path found] at stored
        cases last : latest? remote path with
        | some a =>
            obtain ⟨member, same⟩ := latest_path remote path a last
            exact .inr (same ▸ List.mem_map_of_mem member)
        | none => cases merge <;> simp [Store.ofListing, last] at stored
  · intro listing same
    refine settled_empty here listing merge ?_ ?_
    · rw [same]
      exact locals
    · intro unmerged path missing
      rw [same, others path missing, unmerged]
      rfl

-- A batch that ended well has done all its operations.
open Batch in
theorem clean_done (n : Nat) (positive : 1 ≤ n) (ops : List Operation) (resetCache : Bool) (b : Batch Operation)
    (run : Run (start n ops resetCache) b) (clean : b.stage = .ended .clean) :
    (b.pool.finished.map Prod.fst).Perm ops ∧ ∀ x ∈ b.pool.finished, x.2.complaint? = none := by
  have settled := ended_settled n ops resetCache b .clean positive run clean
  refine ⟨settled.finished, fun x member => ?_⟩
  have none : b.failures = [] := by
    by_contra some
    obtain ⟨count, first, same⟩ := settled.raised.mpr some
    cases same
  have untold := List.filterMap_eq_nil_iff.mp none x member
  simpa using untold

theorem logged_accepts (base : Url) (site : Site) (w v : World) (logged : Logged w v) :
    Accepts base site w v [] := by
  obtain ⟨marks, log, rfl⟩ := logged
  exact silent_accepts base site w _ ⟨rfl, rfl⟩

-- Hosting is what the accepted requests have made of the listing, in whatever order they
-- took effect. Once an import has ended well, for any number of workers and any order of
-- their steps, that is what it should be.
theorem import_converges (n : Nat) (positive : 1 ≤ n) (here remote : List Asset) (hashed : ∀ a ∈ here, a.hash ≠ "")
    (short : ∀ a ∈ here, Json.Short a.size) (merge resetCache : Bool) (base : Url) (cfg : Path) (site : Site) :
    (∀ b w v, Batch.Trade.Course (importTrade site (session base cfg) n)
        (Batch.start n (Operation.ofDiff (between here remote merge)) resetCache) w b v →
      b.stage = .ended .clean → ∀ served, served.Perm (changes base site w v) →
        Synced here remote merge ((Store.ofListing remote).changeAll served)) ∧
    ∀ w, let run := (importAssets site (between here remote merge) resetCache (session base cfg) n).perform w
      run.1 = .ok () → ∀ served, served.Perm (changes base site w run.2) →
        Synced here remote merge ((Store.ofListing remote).changeAll served) := by
  have readable : ∀ op ∈ Operation.ofDiff (between here remote merge), op.Readable := fun op member =>
    planned_readable here remote merge hashed short op ((plan_mem here remote merge op).mp member)
  have made : ∀ b w v, Batch.Trade.Course (importTrade site (session base cfg) n)
      (Batch.start n (Operation.ofDiff (between here remote merge)) resetCache) w b v → b.stage = .ended .clean →
      ∃ all, all.Perm ((Operation.ofDiff (between here remote merge)).filterMap Operation.change?) ∧
        Accepts base site w v all := by
    intro b w v course clean
    obtain ⟨done, fine⟩ := clean_done n positive _ resetCache b (Batch.Trade.course_run _ _ b w v course) clean
    exact ⟨_, done.filterMap _, course_accepts base site cfg n _ readable resetCache b w v course fine⟩
  refine ⟨?_, ?_⟩
  · intro b w v course clean served order
    obtain ⟨all, planned, accepts⟩ := made b w v course clean
    rw [accepts_changes base site w v all accepts] at order
    exact served_synced here remote merge served (order.trans planned)
  · intro w run success served order
    obtain ⟨r, v, performed, concluded⟩ :=
      import_concludes site (between here remote merge) resetCache (session base cfg) n positive w
    have result : run = (r, v) := performed
    rw [result] at success order
    rcases concluded with ⟨interrupted, _⟩ | ⟨b, e, u, x, before, course, after, stageEq, outcome⟩
    · rw [interrupted] at success
      cases success
    · have clean : e = .clean := by
        rw [outcome] at success
        cases e with
        | clean => rfl
        | failed count first => cases success
        | refused f => cases success
      obtain ⟨all, planned, accepts⟩ := made b u x course (clean ▸ stageEq)
      have whole := accepts_chain base site w u v [] _ (logged_accepts base site w u before)
        (accepts_chain base site u x v all [] accepts (logged_accepts base site x v after))
      rw [accepts_changes base site w v _ whole, List.nil_append, List.append_nil] at order
      exact served_synced here remote merge served (order.trans planned)

def syncBase : Url := ⟨"https", "", "h", none, "/", none, none⟩

def syncSite : Site := ⟨"g", "a", ⟨1, ["files"]⟩⟩

def syncSend : Sender := session syncBase ⟨1, ["profile"]⟩

-- A server that agrees to everything.
def syncWorld : World :=
  { World.start ⟨.folder [("files", .folder [("a", .file [0x61] 0)])], []⟩ fun _ _ => .ok ⟨204, [], []⟩ with
    profile := ⟨"u", "", "", "t", "r"⟩ }

def freshAsset : Asset := ⟨"", "/a", "new", 1, [], 0, ""⟩

def staleAsset : Asset := ⟨"", "/b", "x", 0, [], 0, ""⟩

open HostingAdmin.Action

-- What is sent once the file is read.
def freshUpload : Action Unit := do
  let boundary ← mark
  (Hosting.upload syncSite.group { freshAsset with appId := syncSite.app } [0x61] boundary).call syncSend

def freshWorld : World :=
  ((record .debug "Asset operation done"
    [("worker", .int (0 : Nat)), ("op", .str "AddOp"), ("asset", .str freshAsset.path)]).perform
      (freshUpload.perform syncWorld).2).2

theorem fresh_loaded : (load (syncSite.root.join (relative freshAsset.path))).perform syncWorld =
    (.ok [0x61], syncWorld) := by
  have place : syncSite.root.join (relative freshAsset.path) = ⟨1, ["files", "a"]⟩ := by decide +kernel
  obtain ⟨path, first, second⟩ : ¬ maxPathSize < (Text.utf8 (Path.toString ⟨1, ["files", "a"]⟩)).length ∧
      ¬ maxNameSize < (Text.utf8 "files").length ∧ ¬ maxNameSize < (Text.utf8 "a").length := by decide +kernel
  have read : syncWorld.files.read ⟨1, ["files", "a"]⟩ = .ok [0x61] := by
    simp [syncWorld, World.start, FileTree.read, FileTree.node, FileTree.locate, path, Path.isAbsolute, Node.walk,
      Node.get?, Node.child?, first, second]
    rfl
  have plain : hasNull ⟨1, ["files", "a"]⟩ = false := by decide +kernel
  simp [place, load, guardPath, plain, read, HostingAdmin.Action.ofExcept, perform_bind]

theorem fresh_added : (Operation.work syncSite syncSend 0 (.add freshAsset)).perform syncWorld =
    (.ok none, freshWorld) := by
  have agreed : (freshUpload.perform syncWorld).1.toBool = true := by decide +kernel
  have performed :
      (Operation.upload syncSite syncSend freshAsset).perform syncWorld = freshUpload.perform syncWorld := by
    rw [Operation.upload, perform_bind, fresh_loaded]
    rfl
  obtain ⟨u, recorded⟩ := record_succeeds .debug "Asset operation done"
    [("worker", .int (0 : Nat)), ("op", .str "AddOp"), ("asset", .str freshAsset.path)]
    (freshUpload.perform syncWorld).2
  have after : u = freshWorld := by rw [freshWorld, recorded]
  rcases sent : freshUpload.perform syncWorld with ⟨f | ⟨⟩, v⟩
  · rw [sent] at agreed
    cases agreed
  · rw [sent] at performed recorded
    simp only [Operation.work, Operation.effect, Operation.Effect.perform, perform_bind, perform_outcome, performed,
      Operation.name, Operation.path, recorded, after, perform_pure]

theorem stale_deleted : ∃ v, (Operation.work syncSite syncSend 1 (.delete staleAsset)).perform freshWorld =
    (.ok none, v) := by
  have deleted : ((Operation.work syncSite syncSend 1 (.delete staleAsset)).perform freshWorld).1 = .ok none := by
    decide +kernel
  generalize (Operation.work syncSite syncSend 1 (.delete staleAsset)).perform freshWorld = ended at deleted ⊢
  exact ⟨ended.2, Prod.ext deleted rfl⟩

-- One asset to add and one to delete, each by a worker of its own, and the changes taking
-- effect in the other order.
theorem import_converges_adding : ∃ b v, Batch.Trade.Course (importTrade syncSite syncSend (2 : Nat))
      (Batch.start 2 (Operation.ofDiff (between [freshAsset] [staleAsset] false)) false) syncWorld b v ∧
    b.stage = .ended .clean ∧ changes syncBase syncSite syncWorld v = [.put "/a" "new" [], .delete "/b"] ∧
    Synced [freshAsset] [staleAsset] false
      ((Store.ofListing [staleAsset]).changeAll [.delete "/b", .put "/a" "new" []]) := by
  obtain ⟨v, deleted⟩ := stale_deleted
  have plan : Operation.ofDiff (between [freshAsset] [staleAsset] false) = [.add freshAsset, .delete staleAsset] := by
    decide +kernel
  obtain ⟨b, course, clean, finished⟩ : ∃ b, Batch.Trade.Course (importTrade syncSite syncSend (2 : Nat))
      (Batch.start 2 [.add freshAsset, .delete staleAsset] false) syncWorld b v ∧ b.stage = .ended .clean ∧
      b.pool.finished = [(.add freshAsset, .done), (.delete staleAsset, .done)] := by
    let t := importTrade syncSite syncSend (2 : Nat)
    have start : Batch.Trade.Course t (Batch.start 2 [.add freshAsset, .delete staleAsset] false) syncWorld
        (Batch.start 2 [.add freshAsset, .delete staleAsset] false) syncWorld := .rest
    have put := Batch.Trade.course_moves t _ _ _ _ _ start .put (by simp) trivial rfl
    have both := Batch.Trade.course_moves t _ _ _ _ _ put .put (by simp) trivial rfl
    have one := Batch.Trade.course_moves t _ _ _ _ _ both (.take 0) (by simp) trivial rfl
    have two := Batch.Trade.course_moves t _ _ _ _ _ one (.take 1) (by simp) trivial rfl
    have added := Batch.Trade.course_works t _ _ _ _ _ _ two 0 _ _ rfl fresh_added rfl
    have gone := Batch.Trade.course_works t _ _ _ _ _ _ added 1 _ _ rfl deleted rfl
    have mark := Batch.Trade.course_moves t _ _ _ _ _ gone .put (by simp) trivial rfl
    have marks := Batch.Trade.course_moves t _ _ _ _ _ mark .put (by simp) trivial rfl
    have stops := Batch.Trade.course_moves t _ _ _ _ _ marks (.take 0) (by simp) trivial rfl
    have stopped := Batch.Trade.course_moves t _ _ _ _ _ stops (.take 1) (by simp) trivial rfl
    have joined := Batch.Trade.course_moves t _ _ _ _ _ stopped .join (by simp) trivial rfl
    have told := Batch.Trade.Course.go _ _ _ _ (.move .collect) joined trivial rfl
    exact ⟨_, Batch.Trade.course_moves t _ _ _ _ _ told .conclude (by simp) trivial rfl, rfl, rfl⟩
  rw [← plan] at course
  have readable : ∀ op ∈ Operation.ofDiff (between [freshAsset] [staleAsset] false), op.Readable := fun op member =>
    planned_readable [freshAsset] [staleAsset] false (by decide) (by decide) op ((plan_mem _ _ _ op).mp member)
  have made : changes syncBase syncSite syncWorld v = [.put "/a" "new" [], .delete "/b"] := by
    have accepts := course_accepts syncBase syncSite ⟨1, ["profile"]⟩ 2 _ readable false b syncWorld v course
      (by rw [finished]; decide)
    rw [finished] at accepts
    exact accepts_changes syncBase syncSite syncWorld v _ accepts
  refine ⟨b, v, course, clean, made, ?_⟩
  refine (import_converges 2 (by decide) [freshAsset] [staleAsset] (by decide) (by decide) false false syncBase
    ⟨1, ["profile"]⟩ syncSite).1 b syncWorld v course clean _ ?_
  rw [made]
  exact List.Perm.swap _ _ _

end HostingAdmin.Hosting
