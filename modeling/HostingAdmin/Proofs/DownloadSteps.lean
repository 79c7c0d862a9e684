import HostingAdmin.Proofs.ExportSteps
import HostingAdmin.Proofs.Outcomes
import HostingAdmin.Proofs.RetrievalRuns
import HostingAdmin.Proofs.SessionFile

set_option autoImplicit false

namespace HostingAdmin

open HostingAdmin.Action

-- Neither files nor messages change.
def Calm (w v : World) : Prop := v.files = w.files ∧ v.errors = w.errors

theorem calm_passage : Passage Calm where
  stay _ := ⟨rfl, rfl⟩
  chain _ _ _ first second := ⟨second.1.trans first.1, second.2.trans first.2⟩
  book _ _ _ := ⟨rfl, rfl⟩

namespace Hosting

-- A download that is interrupted ends everything.
def Broken (f : Failure) : Prop := Mishap f ∨ f = .interrupted

theorem refusal_broken (r : Refusal) : Broken r.failure := by
  cases r with
  | fault f => exact .inl (.transport f)
  | interrupt => exact .inr rfl

theorem redirect_broken (u : Url) (r : Response) (f : Failure) (failed : Wire.redirect? u r = .error f) : Broken f := by
  unfold Wire.redirect? at failed
  split at failed
  · cases failed
  · split at failed
    · cases failed
    · split at failed
      · cases failed
        exact .inl (.transport _)
      · dsimp only at failed
        split at failed
        · cases failed
          exact .inl (.url _)
        · cases failed

theorem build_broken (base : Url) (url : String) (f : Failure)
    (failed : Wire.build base [] (.plain "GET" url) = .error f) : Broken f := by
  have bare : Wire.notAscii? ((Request.plain "GET" url).headers.getD []) = none := rfl
  unfold Wire.build at failed
  cases below : base.below (Request.plain "GET" url).path with
  | error fault =>
      rw [below] at failed
      cases failed
      exact .inl (.url fault)
  | ok u =>
      rw [below] at failed
      simp only [mapped_ok, bind, Except.bind, bare] at failed
      cases failed

-- Every download changes only what has been asked, and breaks in few ways.
def Breaks {α : Type} (a : Action α) : Prop := Within Calm a ∧ Ends (fun _ => True) Any Broken a

theorem breaks_bind {α β : Type} (a : Action α) (k : α → Action β) (first : Breaks a) (after : ∀ x, Breaks (k x)) :
    Breaks (a >>= k) :=
  ⟨within_bind calm_passage a k first.1 fun x => (after x).1, ends_bind a k first.2 fun x _ => (after x).2⟩

theorem breaks_pure {α : Type} (x : α) : Breaks (pure x) :=
  ⟨within_pure calm_passage x, ends_pure x trivial⟩

theorem breaks_throw {α : Type} (f : Failure) (broken : Broken f) : Breaks (throw f : Action α) :=
  ⟨within_throw calm_passage f, ends_throw f broken⟩

theorem breaks_except {ε α : Type} (wrap : ε → Failure) (x : Except ε α)
    (broken : ∀ e, x = .error e → Broken (wrap e)) : Breaks (ofExcept wrap x) :=
  ⟨within_except calm_passage wrap x, ends_except wrap x (fun _ _ => trivial) broken⟩

theorem breaks_outcome {α β : Type} (a : Action α) (k : Except Failure α → Action β) (first : Breaks a)
    (after : ∀ x, Judged Any Broken x → Breaks (k x)) : Breaks (outcome a >>= k) := by
  refine ⟨?_, ends_bind _ _ (ends_outcome _ first.2) fun x judged => (after x judged).2⟩
  intro w
  have done := within_outcome _ first.1 w
  have judged := (first.2 w trivial).2
  rw [perform_bind, perform_outcome]
  rw [perform_outcome] at done
  exact calm_passage.chain _ _ _ done ((after _ judged).1 _)

theorem once_breaks (r : WireRequest) : Breaks (Wire.once r) := by
  have exchanged : ∀ e, Breaks (exchange e) := by
    intro e
    refine ⟨within_exchange calm_passage e fun _ => ⟨rfl, rfl⟩, ?_⟩
    intro w _
    simp only [exchange, perform_bind, perform_get, perform_set]
    have ended : Ends (fun _ => True) Any Broken (ofExcept Refusal.failure (w.server w.exchanges e)) :=
      ends_except Refusal.failure _ (fun _ _ => trivial) fun refusal _ => refusal_broken refusal
    exact ended _ trivial
  rw [Wire.once]
  cases Wire.unsupported? r.url with
  | some fault =>
      refine breaks_bind _ _ ⟨within_modify _ fun _ => ⟨rfl, rfl⟩, ends_modify _ fun _ _ => trivial⟩ (fun _ => ?_)
      exact breaks_throw _ (.inl (.transport fault))
  | none =>
      refine breaks_bind _ _ (exchanged _) (fun response => ?_)
      refine breaks_bind _ _ (breaks_except id _ (redirect_broken r.url response)) (fun next => ?_)
      exact breaks_pure _

theorem follow_breaks (r : WireRequest) (left : Nat) : Breaks (Wire.follow r left) := by
  induction left generalizing r with
  | zero =>
      rw [Wire.follow]
      refine breaks_bind _ _ (once_breaks r) (fun x => ?_)
      obtain ⟨response, next⟩ := x
      dsimp only
      split
      · exact breaks_bind _ _ (breaks_throw _ (.inl (.transport _))) fun _ => breaks_pure response
      · exact breaks_pure response
  | succ left ih =>
      rw [Wire.follow]
      refine breaks_bind _ _ (once_breaks r) (fun x => ?_)
      obtain ⟨response, next⟩ := x
      cases next with
      | some url => exact ih _
      | none => exact breaks_pure response

theorem get_breaks (url : String) (redirects : Bool) : Breaks (Wire.get url redirects) := by
  rw [Wire.get]
  refine breaks_bind _ _ (breaks_except id _ (build_broken _ _)) (fun r => ?_)
  split
  · exact follow_breaks r _
  · exact breaks_bind _ _ (once_breaks r) fun x => breaks_pure x.1

theorem fetch_breaks (url : String) (redirects : Bool) (tries pause : Nat) :
    Breaks (fetch url redirects tries pause) := by
  have once := get_breaks url redirects
  induction tries generalizing pause with
  | zero => exact once
  | succ tries ih =>
      have waits : Breaks (Action.wait pause) :=
        ⟨within_modify _ fun _ => ⟨rfl, rfl⟩, ends_modify _ fun _ _ => trivial⟩
      rw [fetch]
      refine breaks_outcome _ _ once (fun outcome judged => ?_)
      split
      · exact breaks_pure _
      · split
        · exact breaks_bind _ _ waits fun _ => ih _
        · exact breaks_throw _ (.inl (.transport _))
      · exact breaks_throw _ (judged.2 _ rfl)

theorem download_breaks (url : String) (redirects : Bool) : Breaks (download url redirects) := by
  refine breaks_bind _ _ (fetch_breaks url redirects _ _) (fun r => ?_)
  split
  · exact breaks_pure _
  · exact breaks_throw _ (.inl (.rejected _))

theorem change_performed (p : Path) (change : FileTree → FileTree.Result FileTree) (w : World) :
    (changeFiles p change).perform w = match Retrieval.changed w.files p change with
      | .ok files => (.ok (), { w with files })
      | .error f => (.error f, w) := by
  rw [changeFiles, perform_bind, guardPath, Retrieval.changed]
  by_cases null : hasNull p = true
  · rw [if_pos null, if_pos null]
    rfl
  · rw [if_neg null, if_neg null]
    simp only [perform_pure, perform_bind, perform_get]
    cases change w.files <;> rfl

theorem change_succeeds (p : Path) (change : FileTree → FileTree.Result FileTree) (w : World) (t : FileTree)
    (clean : hasNull p = false) (changes : change w.files = .ok t) :
    (changeFiles p change).perform w = (.ok (), { w with files := t }) := by
  rw [change_performed, Retrieval.changed, clean, changes]
  rfl

theorem change_done (p : Path) (change : FileTree → FileTree.Result FileTree) (w u : World)
    (done : (changeFiles p change).perform w = (.ok (), u)) :
    hasNull p = false ∧ change w.files = .ok u.files := by
  rw [change_performed, Retrieval.changed] at done
  by_cases null : hasNull p = true
  · rw [if_pos null] at done
    cases done
  · rw [if_neg null] at done
    cases changed : change w.files with
    | error fault =>
        rw [changed] at done
        cases done
    | ok t =>
        rw [changed] at done
        cases done
        exact ⟨by simpa using null, rfl⟩

theorem store_performed (p : Path) (body : Bytes) (w : World) :
    (store p body).perform w = (changeFiles p fun t => t.write p body (nanoseconds w.clock)).perform w := by
  simp [store, now, perform_bind]

namespace Retrieval

-- A worker has come to an end with its asset.
structure Settles (b c : Retrieval) (i : Nat) (v : Pool.Verdict) : Prop where
  pool : b.pool.finish i v = some c.pool
  legs : c.legs = b.legs.set i .fresh
  root : c.root = b.root
  reported : c.reported = b.reported ++ v.complaint?.toList

-- Contents are what their URLs were answered with.
def Came (redirects : Bool) (w : World) (given : List (Asset × Bytes)) : Prop :=
  ∀ x ∈ given, Answered w.server w.exchanges redirects x.1.url x.2

-- From `b` on, the worker `i` can do with its asset `a` what is done.
def Does (b : Retrieval) (i : Nat) (a : Asset) (redirects : Bool) (w : World) (done : Except Failure Unit × World) :
    Prop :=
  done.1 = .error .interrupted ∨ ∃ given c, Delivered b given c ∧ Settles b c i (exportVerdict a done.1) ∧
    c.files = done.2.files ∧ done.2.errors = w.errors ∧ Came redirects done.2 given

theorem came_later (redirects : Bool) (w v : World) (given : List (Asset × Bytes)) (grows : Grows w v)
    (came : Came redirects w given) : Came redirects v given := by
  intro x member
  rw [grows.1]
  exact answered_later _ _ _ redirects x.1.url x.2 grows.2 (came x member)

theorem came_more (redirects : Bool) (w : World) (late early : List (Asset × Bytes)) (came : Came redirects w late)
    (before : Came redirects w early) : Came redirects w (late ++ early) := by
  intro x member
  exact (List.mem_append.mp member).elim (came x) (before x)

theorem settle_settles (b c : Retrieval) (i : Nat) (v : Pool.Verdict) (settled : b.settle i v = some c) :
    Settles b c i v ∧ c.files = b.files := by
  obtain ⟨q, pooled, rfl⟩ := Option.map_eq_some_iff.mp settled
  exact ⟨⟨pooled, rfl, rfl, rfl⟩, rfl⟩

theorem reach_does (b c : Retrieval) (i : Nat) (a : Asset) (redirects : Bool) (leg : Leg) (m : Move) (w u : World)
    (done : Except Failure Unit × World) (lawful : m.Lawful) (moved : b.step m = some c) (pool : c.pool = b.pool)
    (legs : c.legs = b.legs.set i leg) (root : c.root = b.root) (reported : c.reported = b.reported)
    (errors : u.errors = w.errors) (came : Came redirects done.2 (b.delivery m)) (after : Does c i a redirects u done) :
    Does b i a redirects w done := by
  rcases after with interrupted | ⟨given, d, run, settles, files, told, further⟩
  · exact .inl interrupted
  · refine .inr ⟨_, d, delivered_first b c d given m lawful moved run, ⟨?_, ?_, ?_, ?_⟩, files, told.trans errors,
      came_more redirects done.2 given _ further came⟩
    · rw [← pool]
      exact settles.pool
    · rw [settles.legs, legs, List.set_set]
    · rw [settles.root, root]
    · rw [settles.reported, reported]

theorem end_does (b c : Retrieval) (i : Nat) (a : Asset) (redirects : Bool) (m : Move) (w : World)
    (done : Except Failure Unit × World) (lawful : m.Lawful) (moved : b.step m = some c) (none : b.delivery m = [])
    (settles : Settles b c i (exportVerdict a done.1)) (files : c.files = done.2.files)
    (errors : done.2.errors = w.errors) : Does b i a redirects w done := by
  refine .inr ⟨b.delivery m ++ [], c, .move [] b c m .rest lawful moved, settles, files, errors, ?_⟩
  rw [none]
  exact fun x member => nomatch member

theorem fail_does (b : Retrieval) (i : Nat) (a : Asset) (redirects : Bool) (m : Move) (f : Failure) (w v : World)
    (lawful : m.Lawful) (none : b.delivery m = []) (busy : b.job? i = some a) (moves : b.step m = b.fail i a f)
    (files : v.files = b.files) (errors : v.errors = w.errors) : Does b i a redirects w (.error f, v) := by
  obtain ⟨c, settled⟩ := settle_possible b i a (exportVerdict a (.error f)) busy
  obtain ⟨settles, same⟩ := settle_settles b c i _ settled
  exact end_does b c i a redirects m w _ lawful (moves.trans settled) none settles (same.trans files.symm) errors

section

variable (b : Retrieval) (i : Nat) (a : Asset) (redirects : Bool) (w : World) (busy : b.job? i = some a)
  (files : b.files = w.files)

include busy files

theorem store_does (p : Path) (body : Bytes) (leg : b.legs[i]? = some (.housed p body)) :
    Does b i a redirects w ((Action.store p body).perform w) := by
  have moves : b.step (.store i (nanoseconds w.clock)) = b.store i (nanoseconds w.clock) := rfl
  rw [store_performed, change_performed]
  simp only [Retrieval.store, busy, leg, files] at moves
  cases written : changed w.files p fun t => t.write p body (nanoseconds w.clock) with
  | error f =>
      simp only [written] at moves
      exact fail_does b i a redirects (.store i _) f w w trivial rfl busy moves files.symm rfl
  | ok t =>
      simp only [written] at moves
      obtain ⟨c, settled⟩ := settle_possible { b with files := t, saved := b.saved ++ [⟨a, p, body⟩] } i a .done busy
      obtain ⟨settles, same⟩ := settle_settles _ c i _ settled
      have ends : Settles b c i .done := ⟨settles.pool, settles.legs, settles.root, settles.reported⟩
      exact end_does b c i a redirects (.store i _) w _ trivial (moves.trans settled) rfl ends same rfl

theorem house_does (p : Path) (body : Bytes) (leg : b.legs[i]? = some (.fetched p body)) :
    Does b i a redirects w ((do Action.makeFolders p.parent; Action.store p body).perform w) := by
  have moves : b.step (.house i) = b.house i := rfl
  rw [perform_bind, Action.makeFolders, change_performed]
  simp only [Retrieval.house, busy, leg, files] at moves
  cases made : changed w.files p.parent fun t => t.makeFolders p.parent with
  | error f =>
      simp only [made] at moves
      exact fail_does b i a redirects (.house i) f w w trivial rfl busy moves files.symm rfl
  | ok t =>
      simp only [made] at moves
      refine reach_does b _ i a redirects (.housed p body) (.house i) w _ _ trivial moves rfl rfl rfl rfl rfl
        (fun _ member => absurd member List.not_mem_nil) ?_
      exact store_does (reach { b with files := t } i (.housed p body)) i a redirects { w with files := t } busy rfl
        p body (set_found b.legs i _ _ leg)

theorem fetch_does (p : Path) (leg : b.legs[i]? = some (.aimed p)) : Does b i a redirects w ((do
      let body ← download a.url redirects
      Action.makeFolders p.parent
      Action.store p body).perform w) := by
  obtain ⟨calm, breaks⟩ := download_breaks a.url redirects
  have untouched := calm w
  have broken := (breaks w trivial).2.2
  rw [perform_bind]
  rcases performed : (download a.url redirects).perform w with ⟨f | body, u⟩
  · rw [performed] at untouched broken
    rcases broken f rfl with mishap | interrupted
    · have lawful : (Move.answer i (.error f)).Lawful := by
        intro g same
        cases same
        exact mishap
      have moves : b.step (.answer i (.error f)) = b.fail i a f := by
        simp only [step, answer, busy, leg]
      exact fail_does b i a redirects _ f w u lawful rfl busy moves (untouched.1.trans files.symm) untouched.2
    · rw [interrupted]
      exact .inl rfl
  · rw [performed] at untouched
    have lawful : (Move.answer i (.ok body)).Lawful := by
      intro f same
      cases same
    have moves : b.step (.answer i (.ok body)) = some (b.reach i (.fetched p body)) := by
      simp only [step, answer, busy, leg]
    have brought : b.delivery (.answer i (.ok body)) = [(a, body)] := by
      simp only [delivery, busy, Option.map_some, Option.toList_some]
    have heard : Came redirects u [(a, body)] := by
      intro x member
      rw [List.mem_singleton.mp member]
      exact download_heard a.url redirects w u body performed
    have grows : Within Grows (do Action.makeFolders p.parent; Action.store p body) :=
      within_bind grows_passage _ _ (within_change grows_passage grows_writes _ _)
        fun _ => within_store grows_passage grows_writes p body
    refine reach_does b _ i a redirects (.fetched p body) _ w u _ lawful moves rfl rfl rfl rfl untouched.2 ?_ ?_
    · rw [brought]
      exact came_later redirects u _ _ (grows u) heard
    · exact house_does (b.reach i (.fetched p body)) i a redirects u busy (files.trans untouched.1.symm) p body
        (set_found b.legs i _ _ leg)

-- What the export of one asset does is done by steps of its worker.
theorem asset_does (leg : b.legs[i]? = some .fresh) :
    Does b i a redirects w ((exportAsset b.root redirects a).perform w) := by
  have moves : b.step (.aim i) = b.aim i := rfl
  rw [exportAsset, perform_bind, target_aimed]
  simp only [aim, busy, leg, files] at moves
  cases found : aimed w.files b.root a.path with
  | error f =>
      simp only [found] at moves
      exact fail_does b i a redirects (.aim i) f w w trivial rfl busy moves files.symm rfl
  | ok p =>
      simp only [found] at moves
      refine reach_does b _ i a redirects (.aimed p) (.aim i) w w _ trivial moves rfl rfl rfl rfl rfl
        (fun _ member => absurd member List.not_mem_nil) ?_
      exact fetch_does (b.reach i (.aimed p)) i a redirects w busy files p (set_found b.legs i _ _ leg)

end

end Retrieval

-- What the user is told of complaints.
def told (talks : Bool) (complaints : List Pool.Complaint) : List String :=
  if talks then (complaints.map fun c => c.text ++ "\n").reverse else []

theorem report_told (talks : Bool) (c : Pool.Complaint) (w : World) :
    ∃ v, (reportExport talks c).perform w = (.ok (), v) ∧ v.files = w.files ∧
      v.errors = told talks [c] ++ w.errors := by
  obtain ⟨u, recorded, calm⟩ := record_within calm_passage .warning "Asset download failed"
    [("asset", .str c.path), ("error", .str c.text)] w
  rw [reportExport, perform_bind, recorded]
  cases talks with
  | false => exact ⟨u, rfl, calm⟩
  | true => exact ⟨_, rfl, calm.1, by rw [← calm.2]; rfl⟩

theorem told_more (talks : Bool) (before after : List Pool.Complaint) :
    told talks (before ++ after) = told talks after ++ told talks before := by
  cases talks <;> simp [told]

namespace Retrieval

theorem work_does (b : Retrieval) (i : Nat) (a : Asset) (redirects talks : Bool) (w : World)
    (busy : b.job? i = some a) (leg : b.legs[i]? = some .fresh) (files : b.files = w.files) :
    (∃ v, (exportWork b.root redirects talks i a).perform w = (.error .interrupted, v)) ∨
      ∃ verdict v given c, (exportWork b.root redirects talks i a).perform w = (.ok verdict, v) ∧
        Delivered b given c ∧ Settles b c i verdict ∧ c.files = v.files ∧
        v.errors = told talks verdict.complaint?.toList ++ w.errors ∧ Came redirects v given := by
  have does := asset_does b i a redirects w busy files leg
  rw [exportWork, perform_bind, perform_outcome]
  rcases performed : (exportAsset b.root redirects a).perform w with ⟨r, u⟩
  rw [performed] at does
  by_cases interrupted : r = .error .interrupted
  · subst interrupted
    exact .inl ⟨u, rfl⟩
  · obtain ⟨given, c, run, settles, same, quiet, came⟩ := does.resolve_left interrupted
    refine .inr ⟨exportVerdict a r, ?_⟩
    dsimp only
    split
    · exact (interrupted rfl).elim
    · cases complaint : (exportVerdict a r).complaint? with
      | none =>
          refine ⟨u, given, c, rfl, run, settles, same, ?_, came⟩
          rw [quiet]
          cases talks <;> rfl
      | some problem =>
          obtain ⟨v, reported, untouched, complained⟩ := report_told talks problem u
          have grows := told_within grows_passage (fun _ _ => ⟨rfl, List.suffix_rfl⟩) talks problem u
          rw [reported] at grows
          refine ⟨v, given, c, ?_, run, settles, same.trans untouched.symm, ?_,
            came_later redirects u v given grows came⟩
          · simp only [Option.forM, perform_bind, reported, perform_pure]
          · rw [complained, quiet]
            rfl

end Retrieval

end Hosting

end HostingAdmin
