import HostingAdmin.Proofs.Actions

set_option autoImplicit false

namespace HostingAdmin.Action

variable {α β : Type}

-- Started where `I` holds, an action leaves `I` behind; its result is one of `Q` or its
-- failure one of `P`.
def Ends (I : World → Prop) (Q : α → Prop) (P : Failure → Prop) (a : Action α) : Prop :=
  ∀ w, I w → I (a.perform w).2 ∧ (∀ x, (a.perform w).1 = .ok x → Q x) ∧ ∀ f, (a.perform w).1 = .error f → P f

def Any (_ : α) : Prop := True

-- What a result is in terms of `Q` and `P`.
def Judged (Q : α → Prop) (P : Failure → Prop) (r : Except Failure α) : Prop :=
  (∀ x, r = .ok x → Q x) ∧ ∀ f, r = .error f → P f

section

variable {I : World → Prop} {Q : α → Prop} {P : Failure → Prop}

theorem ends_pure (x : α) (fine : Q x) : Ends I Q P (pure x) := by
  intro w holds
  refine ⟨holds, ?_, ?_⟩
  · rintro y same
    cases same
    exact fine
  · rintro f same
    cases same

theorem ends_throw (f : Failure) (fails : P f) : Ends I Q P (throw f : Action α) := by
  intro w holds
  refine ⟨holds, ?_, ?_⟩
  · rintro x same
    cases same
  · rintro g same
    cases same
    exact fails

theorem ends_get : Ends I I P get := by
  intro w holds
  refine ⟨holds, ?_, ?_⟩
  · rintro v same
    cases same
    exact holds
  · rintro f same
    cases same

theorem ends_modify (change : World → World) (kept : ∀ w, I w → I (change w)) :
    Ends I Any P (modify change : Action Unit) := by
  intro w holds
  refine ⟨kept w holds, fun _ _ => trivial, ?_⟩
  rintro f same
  cases same

theorem ends_bind {R : β → Prop} (a : Action α) (k : α → Action β) (first : Ends I Q P a)
    (after : ∀ x, Q x → Ends I R P (k x)) : Ends I R P (a >>= k) := by
  intro w holds
  obtain ⟨kept, fine, fails⟩ := first w holds
  rw [perform_bind]
  rcases performed : a.perform w with ⟨f | x, v⟩
  · rw [performed] at kept fails
    refine ⟨kept, ?_, ?_⟩
    · rintro y same
      cases same
    · rintro g same
      cases same
      exact fails f rfl
  · rw [performed] at kept fine
    exact after x (fine x rfl) v kept

theorem ends_weaken {R : α → Prop} {S : Failure → Prop} (a : Action α) (inside : Ends I Q P a)
    (results : ∀ x, Q x → R x) (failures : ∀ f, P f → S f) : Ends I R S a := by
  intro w holds
  obtain ⟨kept, fine, fails⟩ := inside w holds
  exact ⟨kept, fun x same => results x (fine x same), fun f same => failures f (fails f same)⟩

theorem ends_outcome {S : Failure → Prop} (a : Action α) (inside : Ends I Q P a) :
    Ends I (Judged Q P) S (outcome a) := by
  intro w holds
  obtain ⟨kept, fine, fails⟩ := inside w holds
  rw [perform_outcome]
  refine ⟨kept, ?_, ?_⟩
  · rintro r same
    cases same
    exact ⟨fine, fails⟩
  · rintro f same
    cases same

theorem ends_except {ε : Type} (wrap : ε → Failure) (x : Except ε α) (fine : ∀ a, x = .ok a → Q a)
    (fails : ∀ e, x = .error e → P (wrap e)) : Ends I Q P (ofExcept wrap x) := by
  cases x with
  | ok a => exact ends_pure a (fine a rfl)
  | error e => exact ends_throw (wrap e) (fails e rfl)

theorem ends_each {γ : Type} (xs : List γ) (k : γ → Action Unit) (each : ∀ x ∈ xs, Ends I Any P (k x)) :
    Ends I Any P (xs.forM k) := by
  induction xs with
  | nil => exact ends_pure () trivial
  | cons x rest ih =>
      apply ends_bind (k x) (fun _ => rest.forM k) (each x List.mem_cons_self)
      exact fun _ _ => ih fun y member => each y (List.mem_cons_of_mem x member)

-- After the first step, the condition on the world may be given up.
theorem judged_bind {R : β → Prop} (a : Action α) (k : α → Action β) (first : Ends I Q P a)
    (after : ∀ x v, Q x → I v → Judged R P ((k x).perform v).1) (w : World) (holds : I w) :
    Judged R P ((a >>= k).perform w).1 := by
  obtain ⟨kept, fine, fails⟩ := first w holds
  rw [perform_bind]
  rcases performed : a.perform w with ⟨f | x, v⟩
  · rw [performed] at fails
    refine ⟨?_, ?_⟩
    · rintro y same
      cases same
    · rintro g same
      cases same
      exact fails f rfl
  · rw [performed] at kept fine
    exact after x v (fine x rfl) kept

end

-- A condition on the world that is about its server, its files and its credentials only.
structure Sees (server : Server) (I : World → Prop) : Prop where
  server : ∀ w, I w → w.server = server
  blind : ∀ w v, v.server = w.server → v.files = w.files → v.profile = w.profile → I w → I v

-- The server of a world never changes; its files may.
def Serves (server : Server) (w : World) : Prop := w.server = server

def Finds (server : Server) (files : FileTree) (w : World) : Prop := w.server = server ∧ w.files = files

theorem serves_sees (server : Server) : Sees server (Serves server) where
  server _ holds := holds
  blind _ _ same _ _ holds := same.trans holds

theorem finds_sees (server : Server) (files : FileTree) : Sees server (Finds server files) where
  server _ holds := holds.1
  blind _ _ same untouched _ holds := ⟨same.trans holds.1, untouched.trans holds.2⟩

-- Nothing changes that conditions on the world are about.
structure Beside (w v : World) : Prop where
  server : v.server = w.server
  files : v.files = w.files
  profile : v.profile = w.profile

theorem beside_passage : Passage Beside where
  stay _ := ⟨rfl, rfl, rfl⟩
  chain _ _ _ first second :=
    ⟨second.server.trans first.server, second.files.trans first.files, second.profile.trans first.profile⟩
  book _ _ _ := ⟨rfl, rfl, rfl⟩

section

variable {server : Server} {I : World → Prop} (sees : Sees server I) {P : Failure → Prop}

include sees

theorem ends_beside (a : Action α) (inside : Within Beside a) (succeeds : ∀ w, ∃ x v, a.perform w = (.ok x, v)) :
    Ends I Any P a := by
  intro w holds
  obtain ⟨same, untouched, kept⟩ := inside w
  refine ⟨sees.blind w _ same untouched kept holds, fun _ _ => trivial, ?_⟩
  intro f failed
  obtain ⟨x, v, performed⟩ := succeeds w
  rw [performed] at failed
  cases failed

theorem record_ends (level : Level) (event : String) (fields : Members Json) :
    Ends I Any P (record level event fields) := by
  apply ends_beside sees _ (within_record beside_passage level event fields)
  intro w
  obtain ⟨v, done⟩ := record_succeeds level event fields w
  exact ⟨(), v, done⟩

theorem mark_ends : Ends I Any P mark :=
  ends_beside sees _ (within_mark beside_passage) mark_succeeds

theorem correlation_ends : Ends I Any P correlation :=
  ends_beside sees _ (within_correlation beside_passage) correlation_succeeds

theorem inform_ends (line : String) : Ends I Any P (inform line) :=
  ends_modify _ fun w holds => sees.blind w _ rfl rfl rfl holds

theorem complain_ends (line : String) : Ends I Any P (complain line) :=
  ends_modify _ fun w holds => sees.blind w _ rfl rfl rfl holds

theorem confirm_ends (question : String) : Ends I Any P (confirm question) := by
  apply ends_beside sees
  · intro w
    exact ⟨rfl, rfl, rfl⟩
  · exact fun w => ⟨_, _, rfl⟩

end

end HostingAdmin.Action
