import HostingAdmin.Proofs.JsonRoundTrip
import HostingAdmin.Proofs.JsonShapes

set_option autoImplicit false

namespace HostingAdmin

section

variable {α β : Type}

theorem all_checked (checks : List (Checked α)) (xs : List α) (fine : checks = xs.map .ok) :
    Checked.all checks = .ok xs := by
  subst fine
  induction xs with
  | nil => rfl
  | cons x rest ih =>
      rw [List.map_cons, Checked.all, ih]
      rfl

theorem list_checked (source : Source) (item : Json → Checked α) (encode : α → Json)
    (reads : ∀ x, item (encode x) = .ok x) (xs : List α) : Check.list source item (.arr (xs.map encode)) = .ok xs := by
  apply all_checked
  apply List.ext_getElem
  · simp
  · intro i first second
    simp only [List.getElem_map, List.getElem_zipIdx, reads]
    rfl

theorem map_checked (source : Source) (item : Json → Checked α) (encode : α → Json)
    (reads : ∀ x, item (encode x) = .ok x) (ms : Members α) :
    Check.map source item (.obj (ms.map fun m => (m.1, encode m.2))) = .ok ms := by
  apply all_checked
  rw [List.map_map]
  apply List.map_congr_left
  intro entry member
  simp only [Function.comp, reads]
  rfl

theorem checked_and (f : Checked (α → β)) (x : Checked α) (y : β) (checked : Checked.and f x = .ok y) :
    ∃ g a, f = .ok g ∧ x = .ok a ∧ y = g a := by
  cases f with
  | error faults => cases x <;> cases checked
  | ok g =>
      cases x with
      | error faults => cases checked
      | ok a =>
          cases checked
          exact ⟨g, a, rfl, rfl, rfl⟩

theorem checked_all (checks : List (Checked α)) (xs : List α) (checked : Checked.all checks = .ok xs) :
    checks = xs.map .ok := by
  induction checks generalizing xs with
  | nil =>
      cases checked
      rfl
  | cons first rest ih =>
      rw [Checked.all] at checked
      obtain ⟨g, others, front, back, rfl⟩ := checked_and _ _ xs checked
      cases first with
      | error faults => cases front
      | ok x =>
          cases front
          rw [List.map_cons, ← ih others back]

theorem checked_entries (item : Json → Checked α) (ms : Members Json) (out : Members α)
    (same : (ms.map fun m => ((item m.2).under m.1).map fun v => (m.1, v)) = out.map .ok) :
    Members.names out = Members.names ms ∧ ∀ key x, (key, x) ∈ out → ∃ y, (key, y) ∈ ms ∧ item y = .ok x := by
  induction ms generalizing out with
  | nil =>
      obtain rfl := List.map_eq_nil_iff.mp same.symm
      exact ⟨rfl, fun key x member => by cases member⟩
  | cons entry rest ih =>
      obtain ⟨k, y⟩ := entry
      cases out with
      | nil => cases same
      | cons first others =>
          obtain ⟨front, back⟩ := List.cons.inj same
          obtain ⟨names, found⟩ := ih others back
          cases itemEq : item y with
          | error faults =>
              simp only [itemEq] at front
              cases front
          | ok v =>
              simp only [itemEq] at front
              cases front
              refine ⟨congrArg (k :: ·) names, fun key x member => ?_⟩
              rcases List.mem_cons.mp member with here | later
              · cases here
                exact ⟨y, List.mem_cons_self, itemEq⟩
              · obtain ⟨z, inside, read⟩ := found key x later
                exact ⟨z, List.mem_cons_of_mem _ inside, read⟩

theorem checked_map (source : Source) (item : Json → Checked α) (j : Json) (out : Members α)
    (checked : Check.map source item j = .ok out) :
    ∃ ms, j = .obj ms ∧ Members.names out = Members.names ms ∧
      ∀ key x, (key, x) ∈ out → ∃ y, (key, y) ∈ ms ∧ item y = .ok x := by
  cases j with
  | obj ms => exact ⟨ms, rfl, checked_entries item ms out (checked_all _ out checked)⟩
  | _ => cases checked

theorem items_legible (r : Json.Rules) (depth : Nat) (encode : α → Json)
    (legible : ∀ x, Json.Legible r depth (encode x)) (xs : List α) : Json.LegibleItems r depth (xs.map encode) := by
  induction xs with
  | nil => trivial
  | cons x rest ih => exact ⟨legible x, ih⟩

theorem names_map (encode : α → Json) (ms : Members α) :
    Members.names (ms.map fun m => (m.1, encode m.2)) = Members.names ms := by
  simp [Members.names, Function.comp_def]

theorem map_legible (r : Json.Rules) (depth : Nat) (allowed : r.allows depth = true) (encode : α → Json)
    (ms : Members α) (unique : (Members.names ms).Nodup)
    (legible : ∀ key x, (key, x) ∈ ms → Json.Legible r (depth + 1) (encode x)) :
    Json.Legible r depth (.obj (ms.map fun m => (m.1, encode m.2))) := by
  refine ⟨allowed, by rw [names_map]; exact unique, ?_⟩
  clear unique
  induction ms with
  | nil => trivial
  | cons entry rest ih =>
      obtain ⟨key, x⟩ := entry
      exact ⟨legible key x List.mem_cons_self, ih fun key x member => legible key x (List.mem_cons_of_mem _ member)⟩

end

namespace Check

theorem digits_below (cs : List Char) (ds : List Nat) (read : digits?.go cs = some ds) : ∀ d ∈ ds, d < 10 := by
  fun_induction digits?.go cs generalizing ds with
  | case1 =>
      cases read
      simp
  | case2 c rest ih =>
      obtain ⟨d, digit, more⟩ := Option.bind_eq_some_iff.mp read
      obtain ⟨others, further, rfl⟩ := Option.map_eq_some_iff.mp more
      exact List.forall_mem_cons.mpr ⟨Json.ascii_digit c d digit, ih others further⟩
  | case3 c rest _ ih =>
      obtain ⟨d, digit, more⟩ := Option.bind_eq_some_iff.mp read
      obtain ⟨others, further, rfl⟩ := Option.map_eq_some_iff.mp more
      exact List.forall_mem_cons.mpr ⟨Json.ascii_digit c d digit, ih others further⟩

theorem digits_small (cs : List Char) (ds : List Nat) (read : digits? cs = some ds) : ∀ d ∈ ds, d < 10 := by
  unfold digits? at read
  split at read
  · cases read
  · cases read
  · exact digits_below _ ds read

theorem whole_short (x : Float) (n : Int) (checked : wholeFloat x = .ok n) : Json.Short n := by
  unfold wholeFloat at checked
  split at checked
  · rename_i negative b _
    dsimp only at checked
    split at checked
    · cases checked
    · split at checked
      · cases checked
      · rename_i small
        have below : n.natAbs < 2 ^ 63 := by
          cases checked
          split
          · rw [Int.natAbs_neg]
            exact Nat.lt_of_not_le small
          · exact Nat.lt_of_not_le small
        exact Nat.le_trans (Nat.toDigits_length 10 n.natAbs 19 (by decide) (by omega)) (by decide)
  · cases checked

theorem text_short (s : String) (n : Int) (checked : integerText s = .ok n) : Json.Short n := by
  unfold integerText at checked
  split at checked
  split at checked
  dsimp only at checked
  split at checked
  · rename_i ds read
    split at checked
    · cases checked
    · rename_i few
      have short := fun negative => Json.digits_short negative ds (digits_small _ ds read) (Nat.le_of_not_lt few)
      split at checked
      · split at checked
        · cases checked
          exact short _
        · cases checked
      · split at checked
        · cases checked
          exact short _
        · cases checked
  · cases checked

theorem integer_short (j : Json) (n : Int) (sound : j.Sound) (checked : integer j = .ok n) : Json.Short n := by
  cases sound with
  | int m short =>
      cases checked
      exact short
  | bool b =>
      cases checked
      cases b <;> decide
  | float x => exact whole_short x n checked
  | str s => exact text_short s n checked
  | _ => cases checked

theorem optional_short (ms : Members Json) (name : String) (n : Int) (sound : (Json.obj ms).Sound)
    (checked : optional ms [name] integer 0 = .ok n) : Json.Short n := by
  cases sound with
  | obj _ unique members =>
      cases found : ms.lookup name with
      | none =>
          simp only [optional, field, List.findSome?_cons, found, List.findSome?_nil] at checked
          cases checked
          decide
      | some x =>
          simp only [optional, field, List.findSome?_cons, found] at checked
          cases intEq : integer x with
          | error faults =>
              rw [intEq] at checked
              cases checked
          | ok m =>
              rw [intEq] at checked
              cases checked
              exact integer_short x _ (members name x (Members.lookup_some_mem name x ms found)) intEq

end Check

end HostingAdmin
