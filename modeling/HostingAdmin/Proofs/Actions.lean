import HostingAdmin.Api.Endpoint

set_option autoImplicit false

namespace HostingAdmin

@[simp] theorem mapped_ok {ε δ α : Type} (f : ε → δ) (x : α) : (Except.ok x).mapError f = .ok x := rfl

-- A request that says at most of what type its body is, and leaves the rest to the
-- sender.
inductive Request.Modest (r : Request) : Prop where
  | bare (headers : r.headers = none)
  | typed (type : String) (headers : r.headers = some [("Content-Type", type)])

namespace Action

variable {α β : Type}

@[simp] theorem perform_pure (a : α) (w : World) : (pure a : Action α).perform w = (.ok a, w) := rfl

@[simp] theorem perform_throw (f : Failure) (w : World) :
    (throw f : Action α).perform w = (.error f, w) := rfl

@[simp] theorem perform_get (w : World) : (get : Action World).perform w = (.ok w, w) := rfl

@[simp] theorem perform_set (v w : World) : (set v : Action Unit).perform w = (.ok (), v) := rfl

@[simp] theorem perform_modify (f : World → World) (w : World) :
    (modify f : Action Unit).perform w = (.ok (), f w) := rfl

@[simp] theorem perform_outcome (a : Action α) (w : World) :
    (outcome a).perform w = (.ok (a.perform w).1, (a.perform w).2) := rfl

theorem perform_bind (a : Action α) (f : α → Action β) (w : World) :
    (a >>= f).perform w = match a.perform w with
      | (.ok x, v) => (f x).perform v
      | (.error e, v) => (.error e, v) := by
  unfold perform
  simp only [ExceptT.run_bind, StateT.run_bind]
  rcases StateT.run (ExceptT.run a) w with ⟨result, v⟩
  cases result <;> rfl

theorem bind_ok (a : Action α) (f : α → Action β) (w u : World) (y : β)
    (performed : (a >>= f).perform w = (.ok y, u)) :
    ∃ x v, a.perform w = (.ok x, v) ∧ (f x).perform v = (.ok y, u) := by
  rw [perform_bind] at performed
  rcases firstEq : a.perform w with ⟨result, v⟩
  rw [firstEq] at performed
  cases result with
  | ok x => exact ⟨x, v, rfl, performed⟩
  | error e => cases performed

theorem value_ok {ε : Type} (wrap : ε → Failure) (x : Except ε α) (w u : World) (a : α)
    (performed : (ofExcept wrap x).perform w = (.ok a, u)) : x = .ok a := by
  cases x with
  | ok b =>
      cases performed
      rfl
  | error e => cases performed

theorem mark_succeeds (w : World) : ∃ id v, mark.perform w = (.ok id, v) := by
  rw [mark]
  rw [perform_bind, perform_get]
  dsimp only
  split
  · exact ⟨_, _, rfl⟩
  · exact ⟨_, _, rfl⟩
  · exact ⟨_, _, rfl⟩

theorem correlation_succeeds (w : World) : ∃ id v, correlation.perform w = (.ok id, v) := by
  rw [correlation]
  rw [perform_bind, perform_get]
  dsimp only
  split
  · obtain ⟨id, v, marked⟩ := mark_succeeds w
    rw [perform_bind, marked]
    exact ⟨_, _, rfl⟩
  · exact ⟨_, _, rfl⟩

theorem record_succeeds (level : Level) (event : String) (fields : Members Json) (w : World) :
    ∃ v, (record level event fields).perform w = (.ok (), v) := by
  unfold record now
  simp only [perform_bind, perform_get]
  split
  · obtain ⟨id, v, done⟩ := correlation_succeeds w
    simp only [perform_bind, perform_get, perform_pure, done, perform_modify]
    exact ⟨_, rfl⟩
  · exact ⟨w, rfl⟩

-- A relation between worlds that actions may stay within: it holds of a world
-- that nothing happens to, and it sees neither the log nor the marks.
structure Passage (R : World → World → Prop) : Prop where
  stay : ∀ w, R w w
  chain : ∀ u v w, R u v → R v w → R u w
  book : ∀ w log marks, R w { w with log, marks }

def Within (R : World → World → Prop) (a : Action α) : Prop := ∀ w, R w (a.perform w).2

section

variable {R : World → World → Prop}

theorem within_pure (passage : Passage R) (a : α) : Within R (pure a) := fun w => passage.stay w

theorem within_throw (passage : Passage R) (f : Failure) : Within R (throw f : Action α) :=
  fun w => passage.stay w

theorem within_get (passage : Passage R) : Within R get := fun w => passage.stay w

theorem within_modify (f : World → World) (step : ∀ w, R w (f w)) : Within R (modify f : Action Unit) := step

-- What follows an action may rely on what the action has come to.
theorem within_then (passage : Passage R) (a : Action α) (f : α → Action β) (first : Within R a)
    (after : ∀ w x v, a.perform w = (.ok x, v) → R v ((f x).perform v).2) : Within R (a >>= f) := by
  intro w
  have reached := first w
  rw [perform_bind]
  rcases performed : a.perform w with ⟨result, v⟩
  rw [performed] at reached
  cases result with
  | ok x => exact passage.chain w v _ reached (after w x v performed)
  | error e => exact reached

theorem within_bind (passage : Passage R) (a : Action α) (f : α → Action β) (first : Within R a)
    (after : ∀ x, Within R (f x)) : Within R (a >>= f) :=
  within_then passage a f first fun _ x v _ => after x v

theorem within_outcome (a : Action α) (inside : Within R a) : Within R (outcome a) := inside

theorem within_each {γ : Type} (passage : Passage R) (xs : List γ) (f : γ → Action Unit)
    (each : ∀ x ∈ xs, Within R (f x)) : Within R (xs.forM f) := by
  induction xs with
  | nil => exact within_pure passage ()
  | cons x rest ih =>
      apply within_bind passage (f x) (fun _ => rest.forM f) (each x List.mem_cons_self)
      exact fun _ => ih fun y member => each y (List.mem_cons_of_mem x member)

theorem within_except {ε : Type} (passage : Passage R) (wrap : ε → Failure) (x : Except ε α) :
    Within R (ofExcept wrap x) := by
  cases x with
  | ok a => exact within_pure passage a
  | error e => exact within_throw passage (wrap e)

theorem within_value {ε : Type} (passage : Passage R) (wrap : ε → Failure) (x : Except ε α) (f : α → Action β)
    (after : ∀ a, x = .ok a → Within R (f a)) : Within R (ofExcept wrap x >>= f) := by
  intro w
  cases x with
  | ok a => exact after a rfl w
  | error e => exact passage.stay w

theorem within_mark (passage : Passage R) : Within R mark := by
  intro w
  rw [mark]
  rw [perform_bind, perform_get]
  dsimp only
  split
  · exact passage.stay w
  · exact passage.stay w
  · exact passage.book w w.log _

theorem within_correlation (passage : Passage R) : Within R correlation := by
  apply within_bind passage _ _ (within_get passage)
  intro w
  dsimp only
  split
  · apply within_bind passage _ _ (within_mark passage)
    intro id
    refine within_bind passage _ _ (within_modify _ ?_) (fun _ => within_pure passage _)
    intro v
    exact passage.book v _ v.marks
  · exact within_pure passage _

theorem within_record (passage : Passage R) (level : Level) (event : String) (fields : Members Json) :
    Within R (record level event fields) := by
  apply within_bind passage _ _ (within_get passage)
  intro w
  dsimp only
  split
  · refine within_bind passage _ _ ?_ ?_
    · exact within_bind passage _ _ (within_get passage) (fun _ => within_pure passage _)
    · intro time
      apply within_bind passage _ _ (within_correlation passage)
      intro id
      refine within_modify _ ?_
      intro v
      exact passage.book v _ v.marks
  · exact within_pure passage _

theorem record_within (passage : Passage R) (level : Level) (event : String) (fields : Members Json) (w : World) :
    ∃ v, (record level event fields).perform w = (.ok (), v) ∧ R w v := by
  obtain ⟨v, recorded⟩ := record_succeeds level event fields w
  have kept := within_record passage level event fields w
  rw [recorded] at kept
  exact ⟨v, recorded, kept⟩

theorem within_load (passage : Passage R) (p : Path) : Within R (load p) := by
  refine within_bind passage _ _ ?_ ?_
  · rw [guardPath]
    split
    · exact within_throw passage _
    · exact within_pure passage _
  · intro _
    apply within_bind passage _ _ (within_get passage)
    intro w
    cases w.files.read p with
    | ok body => exact within_pure passage body
    | error fault => exact within_throw passage _

theorem within_call (passage : Passage R) (send : Sender) (e : Endpoint α) (inside : Within R (send e.request)) :
    Within R (e.call send) :=
  within_bind passage _ _ inside fun r => within_except passage id (e.read r)

theorem within_changed (passage : Passage R) (p : Path) (change : FileTree → FileTree.Result FileTree)
    (writes : ∀ w files, change w.files = .ok files → R w { w with files }) : Within R (changeFiles p change) := by
  apply within_bind passage
  · rw [guardPath]
    split
    · exact within_throw passage _
    · exact within_pure passage _
  · intro _ w
    rw [perform_bind, perform_get]
    dsimp only
    cases made : change w.files with
    | error fault => exact passage.stay w
    | ok files => exact writes w files made

theorem within_change (passage : Passage R) (writes : ∀ w files, R w { w with files }) (p : Path)
    (change : FileTree → FileTree.Result FileTree) : Within R (changeFiles p change) :=
  within_changed passage p change fun w files _ => writes w files

theorem within_store (passage : Passage R) (writes : ∀ w files, R w { w with files }) (p : Path) (body : Bytes) :
    Within R (store p body) :=
  within_bind passage _ _ (within_bind passage get (fun w => pure w.clock) (within_get passage)
    fun _ => within_pure passage _) fun _ => within_change passage writes p _

end

end Action

open HostingAdmin.Action

-- Only the log and the marks differ.
def Logged (w v : World) : Prop := ∃ marks log, v = { w with marks, log }

theorem logged_passage : Passage Logged where
  stay w := ⟨w.marks, w.log, rfl⟩
  chain u v w first second := by
    obtain ⟨_, _, rfl⟩ := first
    obtain ⟨marks, log, rfl⟩ := second
    exact ⟨marks, log, rfl⟩
  book w log marks := ⟨marks, log, rfl⟩

-- A relation that does not look at the terminal.
structure Lenient (R : World → World → Prop) : Prop where
  passage : Passage R
  tells : ∀ w output, R w { w with output }
  complains : ∀ w errors, R w { w with errors }
  hears : ∀ w output input, R w { w with output, input }

end HostingAdmin
