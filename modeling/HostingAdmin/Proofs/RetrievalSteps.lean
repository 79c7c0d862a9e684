import HostingAdmin.Hosting.Retrieval
import HostingAdmin.Proofs.Actions
import HostingAdmin.Proofs.PoolRuns

set_option autoImplicit false

namespace HostingAdmin

namespace Pool

variable {α : Type}

def Verdict.isDone : Verdict → Bool
  | .done => true
  | _ => false

def State.successes (s : State α) : List α := (s.finished.filter fun x => x.2.isDone).map Prod.fst

def State.failures (s : State α) : List α := (s.finished.filter fun x => x.2.complaint?.isSome).map Prod.fst

end Pool

namespace Hosting

inductive Mishap : Failure → Prop where
  | rejected (r : Rejection) : Mishap (.rejected r)
  | transport (fault : TransportFault) : Mishap (.transport fault)
  | url (fault : UrlFault) : Mishap (.url fault)

inductive Trouble (assetPath : String) : Failure → Prop where
  | download (f : Failure) (mishap : Mishap f) : Trouble assetPath f
  | outside (text : String) : Trouble assetPath (.operation assetPath text)
  | file (fault : FileFault) : Trouble assetPath (.file fault)
  | nullCharacter : Trouble assetPath .nullCharacter
  | linkLoop (path : String) : Trouble assetPath (.linkLoop path)

-- The failures that take a worker along: nobody is told, and nothing else that this
-- worker would have done is done by it.
inductive Fatal : Failure → Prop where
  | url (fault : UrlFault) : Fatal (.url fault)
  | nullCharacter : Fatal .nullCharacter
  | linkLoop (path : String) : Fatal (.linkLoop path)

-- A complaint names its asset, and a worker that is lost is lost to a fatal failure.
def Blames (x : Asset × Pool.Verdict) : Prop :=
  match x.2 with
  | .done => True
  | .failed c => c.path = x.1.path
  | .crashed f => Fatal f

theorem trouble_blames (a : Asset) (f : Failure) (trouble : Trouble a.path f) :
    Blames (a, exportVerdict a (.error f)) := by
  cases trouble with
  | download f mishap =>
      cases mishap with
      | rejected r => exact rfl
      | transport fault => exact rfl
      | url fault => exact .url fault
  | outside text => exact rfl
  | file fault => exact rfl
  | nullCharacter => exact .nullCharacter
  | linkLoop path => exact .linkLoop path

namespace Retrieval

theorem real_guarded (p : Path) (w : World) : (realPath p).perform w =
    (if Action.hasNull p then .error .nullCharacter else (w.files.real p).mapError .linkLoop, w) := by
  rw [realPath, Action.perform_bind, Action.guardPath]
  by_cases null : Action.hasNull p = true
  · rw [if_pos null, if_pos null]
    rfl
  · rw [if_neg null, if_neg null]
    simp only [Action.perform_pure, Action.perform_bind, Action.perform_get]
    cases w.files.real p <;> rfl

theorem target_looked (root : Path) (assetPath : String) (w v : World) (same : w.files = v.files) :
    (target root assetPath).perform w = (((target root assetPath).perform v).1, w) := by
  simp only [target, Action.perform_bind, real_guarded, same]
  generalize (if Action.hasNull (root.join (relative assetPath)) = true then .error Failure.nullCharacter
    else (v.files.real (root.join (relative assetPath))).mapError .linkLoop : Except Failure Path) = found
  cases found with
  | error f => rfl
  | ok p => cases within : p.isWithin root <;> simp [within]

theorem target_aimed (root : Path) (assetPath : String) (w : World) :
    (target root assetPath).perform w = (aimed w.files root assetPath, w) :=
  target_looked root assetPath w _ rfl

-- A place that is found is a real path below the root.
theorem aimed_cases (files : FileTree) (root : Path) (assetPath : String) :
    (∃ p, aimed files root assetPath = .ok p ∧ files.real (root.join (relative assetPath)) = .ok p ∧
      p.isWithin root = true) ∨ ∃ f, aimed files root assetPath = .error f ∧ Trouble assetPath f := by
  simp only [aimed, target, Action.perform_bind, real_guarded, World.start]
  by_cases null : Action.hasNull (root.join (relative assetPath)) = true
  · rw [if_pos null]
    exact .inr ⟨_, rfl, .nullCharacter⟩
  · rw [if_neg null]
    cases real : files.real (root.join (relative assetPath)) with
    | error loop => exact .inr ⟨_, rfl, .linkLoop loop⟩
    | ok p =>
        by_cases within : p.isWithin root = true
        · exact .inl ⟨p, by simp [within], rfl, within⟩
        · exact .inr ⟨_, by simp [within]; rfl, .outside _⟩

theorem changed_cases (files : FileTree) (p : Path) (change : FileTree → FileTree.Result FileTree)
    (assetPath : String) :
    (∃ t, changed files p change = .ok t ∧ change files = .ok t) ∨
      ∃ f, changed files p change = .error f ∧ Trouble assetPath f := by
  rw [changed]
  by_cases null : Action.hasNull p = true
  · rw [if_pos null]
    exact .inr ⟨_, rfl, .nullCharacter⟩
  · rw [if_neg null]
    cases change files with
    | error fault => exact .inr ⟨_, rfl, .file fault⟩
    | ok t => exact .inl ⟨t, rfl, rfl⟩

def Move.Lawful : Move → Prop
  | .answer _ outcome => ∀ f, outcome = .error f → Mishap f
  | _ => True

-- The contents that an answer brings, with the asset that they belong to.
def delivery (b : Retrieval) : Move → List (Asset × Bytes)
  | .answer i (.ok body) => ((b.job? i).map fun a => (a, body)).toList
  | _ => []

-- What a step can do, with the contents that it brings.
inductive Advance (b : Retrieval) : List (Asset × Bytes) → Retrieval → Prop where
  | put (p : Pool.State Asset) (pooled : b.pool.put = some p) : Advance b [] { b with pool := p }
  | take (i : Nat) (p : Pool.State Asset) (pooled : b.pool.take i = some p) : Advance b [] { b with pool := p }
  | aimed (i : Nat) (a : Asset) (p : Path) (busy : b.job? i = some a) (leg : b.legs[i]? = some .fresh)
      (real : b.files.real (b.root.join (relative a.path)) = .ok p) (within : p.isWithin b.root = true)
      (found : Retrieval.aimed b.files b.root a.path = .ok p) : Advance b [] (b.reach i (.aimed p))
  | fetched (i : Nat) (a : Asset) (p : Path) (body : Bytes) (busy : b.job? i = some a)
      (leg : b.legs[i]? = some (.aimed p)) : Advance b [(a, body)] (b.reach i (.fetched p body))
  | housed (i : Nat) (a : Asset) (p : Path) (body : Bytes) (files : FileTree) (busy : b.job? i = some a)
      (leg : b.legs[i]? = some (.fetched p body)) (made : b.files.makeFolders p.parent = .ok files) :
      Advance b [] ({ b with files := files }.reach i (.housed p body))
  | stored (i : Nat) (a : Asset) (p : Path) (body : Bytes) (modified : Int) (files : FileTree) (q : Pool.State Asset)
      (busy : b.job? i = some a) (leg : b.legs[i]? = some (.housed p body))
      (written : b.files.write p body modified = .ok files) (pooled : b.pool.finish i .done = some q) :
      Advance b [] { b with
        pool := q, legs := b.legs.set i .fresh, files := files, saved := b.saved ++ [⟨a, p, body⟩] }
  | failed (i : Nat) (a : Asset) (f : Failure) (leg : Leg) (q : Pool.State Asset) (busy : b.job? i = some a)
      (reached : b.legs[i]? = some leg) (trouble : Trouble a.path f)
      (pooled : b.pool.finish i (exportVerdict a (.error f)) = some q) : Advance b [] { b with
        pool := q, legs := b.legs.set i .fresh,
        reported := b.reported ++ (exportVerdict a (.error f)).complaint?.toList }

theorem fail_advance (b c : Retrieval) (i : Nat) (a : Asset) (f : Failure) (leg : Leg) (busy : b.job? i = some a)
    (reached : b.legs[i]? = some leg) (trouble : Trouble a.path f) (moved : b.fail i a f = some c) :
    Advance b [] c := by
  obtain ⟨q, pooled, rfl⟩ := Option.map_eq_some_iff.mp moved
  exact .failed i a f leg q busy reached trouble pooled

theorem step_advance (b c : Retrieval) (m : Move) (lawful : m.Lawful) (moved : b.step m = some c) :
    Advance b (b.delivery m) c := by
  cases m with
  | put =>
      obtain ⟨p, pooled, rfl⟩ := Option.map_eq_some_iff.mp moved
      exact .put p pooled
  | take i =>
      obtain ⟨p, pooled, rfl⟩ := Option.map_eq_some_iff.mp moved
      exact .take i p pooled
  | aim i =>
      simp only [step, aim] at moved
      split at moved
      · rename_i a busy leg
        rcases aimed_cases b.files b.root a.path with ⟨p, found, real, within⟩ | ⟨f, failed, trouble⟩
        · rw [found] at moved
          cases moved
          exact .aimed i a p busy leg real within found
        · rw [failed] at moved
          exact fail_advance b c i a f _ busy leg trouble moved
      · cases moved
  | answer i outcome =>
      simp only [step, answer] at moved
      split at moved
      · rename_i a p busy leg
        cases outcome with
        | ok body =>
            cases moved
            simp only [delivery, busy, Option.map_some, Option.toList_some]
            exact .fetched i a p body busy leg
        | error f => exact fail_advance b c i a f _ busy leg (.download f (lawful f rfl)) moved
      · cases moved
  | house i =>
      simp only [step, house] at moved
      split at moved
      · rename_i a p body busy leg
        rcases changed_cases b.files p.parent (fun t => t.makeFolders p.parent) a.path with
          ⟨files, found, made⟩ | ⟨f, failed, trouble⟩
        · rw [found] at moved
          cases moved
          exact .housed i a p body files busy leg made
        · rw [failed] at moved
          exact fail_advance b c i a f _ busy leg trouble moved
      · cases moved
  | store i modified =>
      simp only [step, store] at moved
      split at moved
      · rename_i a p body busy leg
        rcases changed_cases b.files p (fun t => t.write p body modified) a.path with
          ⟨files, found, written⟩ | ⟨f, failed, trouble⟩
        · rw [found] at moved
          obtain ⟨q, pooled, rfl⟩ := Option.map_eq_some_iff.mp moved
          have same : b.reported ++ (Pool.Verdict.complaint? .done).toList = b.reported := by
            simp [Pool.Verdict.complaint?]
          simp only [same]
          exact .stored i a p body modified files q busy leg written pooled
        · rw [failed] at moved
          exact fail_advance b c i a f _ busy leg trouble moved
      · cases moved

end Retrieval

end Hosting

end HostingAdmin
