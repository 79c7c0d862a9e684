import Mathlib.Algebra.GroupWithZero.Nat

set_option autoImplicit false

namespace HostingAdmin

theorem set_at {α : Type} (list : List α) (i : Nat) (old fresh : α) (found : list[i]? = some old) :
    ∃ before after, list = before ++ old :: after ∧ list.set i fresh = before ++ fresh :: after := by
  induction list generalizing i with
  | nil => simp at found
  | cons head tail ih =>
      cases i with
      | zero =>
          have same : head = old := by simpa using found
          exact ⟨[], tail, by simp [same], rfl⟩
      | succ i =>
          obtain ⟨before, after, split, changed⟩ := ih i (by simpa using found)
          exact ⟨head :: before, after, by simp [split], by simp [changed]⟩

theorem set_found {α : Type} (list : List α) (i : Nat) (old fresh : α) (found : list[i]? = some old) :
    (list.set i fresh)[i]? = some fresh := by
  obtain ⟨bound, _⟩ := List.getElem?_eq_some_iff.mp found
  exact List.getElem?_set_self bound

theorem set_count {α : Type} (p : α → Bool) (list : List α) (i : Nat) (old fresh : α)
    (found : list[i]? = some old) :
    (list.set i fresh).countP p + (if p old then 1 else 0) = list.countP p + (if p fresh then 1 else 0) := by
  obtain ⟨before, after, split, changed⟩ := set_at list i old fresh found
  rw [changed, split]
  simp only [List.countP_append, List.countP_cons]
  omega

theorem set_values {α β : Type} (f : α → Option β) (list : List α) (i : Nat) (old fresh : α)
    (found : list[i]? = some old) :
    ((list.set i fresh).filterMap f ++ (f old).toList).Perm (list.filterMap f ++ (f fresh).toList) := by
  obtain ⟨before, after, split, changed⟩ := set_at list i old fresh found
  rw [changed, split]
  simp only [List.filterMap_append, List.append_assoc]
  apply List.Perm.append_left _
  cases oldEq : f old <;> cases freshEq : f fresh <;> simp only [List.filterMap_cons, oldEq, freshEq,
    Option.toList_none, Option.toList_some, List.append_nil, List.cons_append]
  · exact List.Perm.refl _
  · exact (List.perm_append_singleton _ _).symm
  · exact List.perm_append_singleton _ _
  · refine (List.Perm.cons _ (List.perm_append_singleton _ _)).trans ?_
    exact (List.Perm.swap _ _ _).trans (List.Perm.cons _ (List.perm_append_singleton _ _).symm)

theorem set_sum {α : Type} (f : α → Nat) (list : List α) (i : Nat) (old fresh : α) (found : list[i]? = some old) :
    ((list.set i fresh).map f).sum + f old = (list.map f).sum + f fresh := by
  obtain ⟨before, after, split, changed⟩ := set_at list i old fresh found
  rw [changed, split]
  simp only [List.map_append, List.map_cons, List.sum_append, List.sum_cons]
  omega

theorem one_at_most {α : Type} (p : α → Bool) (list : List α) (i j : Nat) (a b : α)
    (few : list.countP p ≤ 1) (atI : list[i]? = some a) (atJ : list[j]? = some b)
    (first : p a = true) (second : p b = true) : i = j := by
  induction list generalizing i j with
  | nil => simp at atI
  | cons head tail ih =>
      have none_after : p head = true → ∀ (k : Nat) (c : α), tail[k]? = some c → p c = true → False := by
        intro here k c found also
        rw [List.countP_cons_of_pos here] at few
        have absent : tail.countP p = 0 := by omega
        exact List.countP_eq_zero.mp absent c (List.mem_of_getElem? found) also
      have fewer : tail.countP p ≤ 1 := by
        have larger := List.countP_cons (p := p) (a := head) (l := tail)
        omega
      cases i with
      | zero =>
          cases j with
          | zero => rfl
          | succ j =>
              have same : head = a := by simpa using atI
              exact (none_after (same ▸ first) j b (by simpa using atJ) second).elim
      | succ i =>
          cases j with
          | zero =>
              have same : head = b := by simpa using atJ
              exact (none_after (same ▸ second) i a (by simpa using atI) first).elim
          | succ j => rw [ih i j fewer (by simpa using atI) (by simpa using atJ)]

end HostingAdmin
