import HostingAdmin.Api.Assets
import HostingAdmin.Api.Secrets
import HostingAdmin.Proofs.Actions
import HostingAdmin.Proofs.CheckedValues

set_option autoImplicit false

namespace HostingAdmin

inductive Json.Hollow : Json → Prop where
  | null : Hollow .null
  | no : Hollow (.bool false)
  | zero : Hollow (.int 0)
  | float (x : Float) (zero : (x == 0.0) = true) : Hollow (.float x)
  | text : Hollow (.str "")
  | array : Hollow (.arr [])
  | object : Hollow (.obj [])

theorem Json.hollow_iff (j : Json) : j.Hollow ↔ j.holds = false := by
  constructor
  · intro hollow
    cases hollow with
    | float x zero => simp [Json.holds, zero]
    | _ => rfl
  · intro empty
    cases j with
    | null => exact .null
    | bool b =>
        cases empty
        exact .no
    | int n =>
        obtain rfl : n = 0 := by simpa [Json.holds] using empty
        exact .zero
    | float x => exact .float x (by simpa [Json.holds] using empty)
    | str s =>
        obtain rfl : s = "" := by simpa [Json.holds] using empty
        exact .text
    | arr items =>
        obtain rfl : items = [] := by simpa [Json.holds] using empty
        exact .array
    | obj members =>
        obtain rfl : members = [] := by simpa [Json.holds] using empty
        exact .object

def Json.IsArray (j : Json) : Prop := ∃ items, j = .arr items

section

variable {α : Type}

def Checked.faults : Checked α → List Fault
  | .ok _ => []
  | .error faults => faults

def Checked.Fails (x : Checked α) : Prop := ∃ faults, x = .error faults

-- Either everything is accepted, or the faults of all that is not are put together, in
-- order.
theorem all_settles (checks : List (Checked α)) : (∃ xs, checks = xs.map .ok ∧ Checked.all checks = .ok xs) ∨
    (∃ c ∈ checks, c.Fails) ∧ Checked.all checks = .error (checks.flatMap Checked.faults) := by
  induction checks with
  | nil => exact .inl ⟨[], rfl, rfl⟩
  | cons first rest ih =>
      rw [Checked.all, List.flatMap_cons]
      cases first with
      | ok x =>
          rcases ih with ⟨xs, fine, all⟩ | ⟨⟨c, member, fails⟩, all⟩
          · exact .inl ⟨x :: xs, by rw [fine]; rfl, by rw [all]; rfl⟩
          · exact .inr ⟨⟨c, List.mem_cons_of_mem _ member, fails⟩, by rw [all]; rfl⟩
      | error faults =>
          refine .inr ⟨⟨.error faults, List.mem_cons_self, faults, rfl⟩, ?_⟩
          rcases ih with ⟨xs, fine, all⟩ | ⟨_, all⟩
          · have none : rest.flatMap Checked.faults = [] := by simp [fine, List.flatMap_map, Checked.faults]
            rw [all, none, List.append_nil]
            rfl
          · rw [all]
            rfl

-- All that is wrong with the elements of an array, each fault with the position of its
-- element.
def Check.blames (item : Json → Checked α) (items : List Json) : List Fault :=
  items.zipIdx.flatMap fun (x, i) => ((item x).under (toString i)).faults

theorem under_ok (name : String) (x : Checked α) (y : α) : x.under name = .ok y ↔ x = .ok y := by
  cases x with
  | ok a => exact Iff.rfl
  | error faults => exact ⟨fun same => (by cases same), fun same => (by cases same)⟩

theorem under_fails (name : String) (x : Checked α) (fails : (x.under name).Fails) : x.Fails := by
  obtain ⟨faults, failed⟩ := fails
  cases x with
  | ok a => cases failed
  | error faults => exact ⟨faults, rfl⟩

theorem list_settles (source : Source) (item : Json → Checked α) (items : List Json) :
    (∃ xs, items.map item = xs.map .ok ∧ Check.list source item (.arr items) = .ok xs) ∨
      (∃ x ∈ items, (item x).Fails) ∧ Check.list source item (.arr items) = .error (Check.blames item items) := by
  rw [Check.list]
  rcases all_settles (items.zipIdx.map fun (x, i) => (item x).under (toString i)) with
    ⟨xs, fine, all⟩ | ⟨⟨c, member, fails⟩, all⟩
  · refine .inl ⟨xs, ?_, all⟩
    have long : items.length = xs.length := by simpa using congrArg List.length fine
    apply List.ext_getElem
    · simpa using long
    · intro i first second
      have here := List.getElem_of_eq fine (by simpa using first)
      simpa [under_ok] using here
  · refine .inr ⟨?_, by rw [all, List.flatMap_map]; rfl⟩
    obtain ⟨⟨x, i⟩, place, rfl⟩ := List.mem_map.mp member
    exact ⟨x, List.fst_mem_of_mem_zipIdx place, under_fails _ _ fails⟩

theorem list_refuses (source : Source) (item : Json → Checked α) (j : Json) (other : ¬ j.IsArray) :
    Check.list source item j = .error [⟨.notList source, []⟩] := by
  cases j with
  | arr items => exact (other ⟨items, rfl⟩).elim
  | _ => rfl

-- What a listing comes to for the body of an answer.
structure Lists (title : String) (item : Json → Checked α) (body : Bytes) (result : Except Failure (List α)) :
    Prop where
  empty : result = .ok [] ↔ body = [] ∨ ∃ j, Json.ofBytes body = .ok j ∧ j.Hollow
  listed : ∀ items, Json.ofBytes body = .ok (.arr items) →
    (∃ xs, items.map item = xs.map .ok ∧ result = .ok xs) ∨
      (∃ x ∈ items, (item x).Fails) ∧ result = .error (.invalid ⟨listTitle title, Check.blames item items⟩)
  refused : ∀ j, Json.ofBytes body = .ok j → ¬ j.IsArray → ¬ j.Hollow →
    result = .error (.invalid ⟨listTitle title, [⟨.notList .parsed, []⟩]⟩)
  unread : ∀ fault, body ≠ [] → Json.ofBytes body = .error fault → result = .error (.json fault)

variable (title text : String) (check : Source → Json → Checked α) (r : Response) (fine : r.status = Status.ok)

include fine

theorem listing_bare (bare : r.body = []) : Endpoint.readListing title text check r = .ok [] := by
  simp [Endpoint.readListing, Rejection.check, fine, bare, Json.holds, Json.checked, Check.list, Checked.all,
    Checked.titled]
  rfl

theorem listing_read (some_body : r.body ≠ []) : Endpoint.readListing title text check r =
    ((Json.ofBytes r.body).mapError Failure.json).bind fun j =>
      ((Check.list .parsed (check .parsed) (if j.holds then j else .arr [])).titled (listTitle title)).mapError
        .invalid := by
  have filled : r.body.isEmpty = false := by simpa using some_body
  simp only [Endpoint.readListing, Rejection.check, if_pos fine, filled]
  rfl

theorem listing_hollow (j : Json) (read : Json.ofBytes r.body = .ok j) (hollow : j.Hollow) :
    Endpoint.readListing title text check r = .ok [] := by
  by_cases bare : r.body = []
  · exact listing_bare title text check r fine bare
  · rw [listing_read title text check r fine bare, read, mapped_ok, Except.bind,
      (Json.hollow_iff j).mp hollow]
    rfl

theorem listing_held (j : Json) (read : Json.ofBytes r.body = .ok j) (held : ¬ j.Hollow) :
    Endpoint.readListing title text check r =
      ((Check.list .parsed (check .parsed) j).titled (listTitle title)).mapError .invalid := by
  have some_body : r.body ≠ [] := by
    intro bare
    rw [bare] at read
    cases read
  have holds : j.holds = true := by simpa [Json.hollow_iff] using held
  rw [listing_read title text check r fine some_body, read, mapped_ok, Except.bind, holds]
  rfl

theorem listing_array (items : List Json) (read : Json.ofBytes r.body = .ok (.arr items)) :
    (∃ xs, items.map (check .parsed) = xs.map .ok ∧ Endpoint.readListing title text check r = .ok xs) ∨
      (∃ x ∈ items, (check .parsed x).Fails) ∧ Endpoint.readListing title text check r =
        .error (.invalid ⟨listTitle title, Check.blames (check .parsed) items⟩) := by
  cases items with
  | nil => exact .inl ⟨[], rfl, listing_hollow title text check r fine _ read .array⟩
  | cons first rest =>
      rw [listing_held title text check r fine _ read (by intro hollow; cases hollow)]
      rcases list_settles .parsed (check .parsed) (first :: rest) with ⟨xs, same, all⟩ | ⟨fails, all⟩
      · exact .inl ⟨xs, same, by rw [all]; rfl⟩
      · exact .inr ⟨fails, by rw [all]; rfl⟩

theorem listing_other (j : Json) (read : Json.ofBytes r.body = .ok j) (other : ¬ j.IsArray) (held : ¬ j.Hollow) :
    Endpoint.readListing title text check r =
      .error (.invalid ⟨listTitle title, [⟨.notList .parsed, []⟩]⟩) := by
  rw [listing_held title text check r fine j read held, list_refuses _ _ j other]
  rfl

theorem listing_unread (fault : Json.Fault) (some_body : r.body ≠ []) (unread : Json.ofBytes r.body = .error fault) :
    Endpoint.readListing title text check r = .error (.json fault) := by
  rw [listing_read title text check r fine some_body, unread]
  rfl

theorem listing_empty (none : Endpoint.readListing title text check r = .ok []) :
    r.body = [] ∨ ∃ j, Json.ofBytes r.body = .ok j ∧ j.Hollow := by
  by_cases bare : r.body = []
  · exact .inl bare
  · right
    cases read : Json.ofBytes r.body with
    | error fault =>
        rw [listing_unread title text check r fine fault bare read] at none
        cases none
    | ok j =>
        refine ⟨j, rfl, ?_⟩
        by_contra held
        by_cases array : j.IsArray
        · obtain ⟨items, rfl⟩ := array
          rcases listing_array title text check r fine items read with ⟨xs, same, listed⟩ | ⟨_, refused⟩
          · rw [none] at listed
            cases listed
            obtain rfl := List.map_eq_nil_iff.mp same
            exact held .array
          · rw [none] at refused
            cases refused
        · rw [listing_other title text check r fine j read array held] at none
          cases none

theorem listing_settles : Lists title (check .parsed) r.body (Endpoint.readListing title text check r) where
  empty := by
    refine ⟨listing_empty title text check r fine, fun empty => ?_⟩
    rcases empty with bare | ⟨j, read, hollow⟩
    · exact listing_bare title text check r fine bare
    · exact listing_hollow title text check r fine j read hollow
  listed := listing_array title text check r fine
  refused := listing_other title text check r fine
  unread := listing_unread title text check r fine

omit fine in
theorem call_settles (e : Endpoint α) (send : Sender) (w v : World)
    (answered : (send e.request).perform w = (.ok r, v)) : (e.call send).perform w = (e.read r, v) := by
  rw [Endpoint.call, Action.perform_bind, answered]
  dsimp only
  cases e.read r <;> rfl

end

-- Both listings of an app, for every answer that tells that all is well.
theorem listings_settle (send : Sender) (group app : String) (w v : World) (r : Response)
    (fine : r.status = Status.ok) :
    ((send (Hosting.list group app).request).perform w = (.ok r, v) → ∃ result,
      ((Hosting.list group app).call send).perform w = (result, v) ∧
        Lists Asset.title (Asset.check .parsed) r.body result) ∧
    ((send (Secret.list group app).request).perform w = (.ok r, v) → ∃ result,
      ((Secret.list group app).call send).perform w = (result, v) ∧
        Lists Secret.title (Secret.check .parsed) r.body result) :=
  ⟨fun answered => ⟨_, call_settles r _ send w v answered, listing_settles _ _ _ r fine⟩,
    fun answered => ⟨_, call_settles r _ send w v answered, listing_settles _ _ _ r fine⟩⟩

-- An object without members is no listing, and still counts as an empty one.
theorem listings_settle_object :
    let r : Response := ⟨200, [], Text.utf8 "\x7b\x7d"⟩
    let w := World.start ⟨.folder [], []⟩ fun _ _ => .ok r
    let send := Link.direct.send
    (((Hosting.list "g" "a").call send).perform w).1 = .ok [] ∧
      (((Secret.list "g" "a").call send).perform w).1 = .ok [] := by
  intro r w send
  have read : Json.ofBytes r.body = .ok (.obj []) := rfl
  have settles := fun v => listings_settle send "g" "a" w v r rfl
  obtain ⟨assets, listed, first⟩ := (settles _).1 rfl
  obtain ⟨secrets, told, second⟩ := (settles _).2 rfl
  rw [listed, told]
  exact ⟨first.empty.mpr (.inr ⟨_, read, .object⟩), second.empty.mpr (.inr ⟨_, read, .object⟩)⟩

end HostingAdmin
