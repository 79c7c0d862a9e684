import HostingAdmin.Asset.Diff

set_option autoImplicit false

namespace HostingAdmin.Attribute

theorem le_cases (a b : Attribute) : le a b = true ↔ a.name < b.name ∨ a.name = b.name ∧ a.value ≤ b.value := by
  simp [le]

theorem le_transitive (a b c : Attribute) (first : le a b = true) (second : le b c = true) : le a c = true := by
  rw [le_cases] at first second ⊢
  rcases first with below | ⟨same, lower⟩
  · rcases second with further | ⟨equal, _⟩
    · exact .inl (String.lt_trans below further)
    · exact .inl (equal ▸ below)
  · rcases second with further | ⟨equal, upper⟩
    · exact .inl (same ▸ further)
    · exact .inr ⟨same.trans equal, String.le_trans lower upper⟩

theorem le_total (a b : Attribute) : (le a b || le b a) = true := by
  rw [Bool.or_eq_true, le_cases, le_cases]
  by_cases below : a.name < b.name
  · exact .inl (.inl below)
  · by_cases above : b.name < a.name
    · exact .inr (.inl above)
    · have same : a.name = b.name :=
        String.le_antisymm (String.not_lt.mp above) (String.not_lt.mp below)
      rcases String.le_total a.value b.value with lower | upper
      · exact .inl (.inr ⟨same, lower⟩)
      · exact .inr (.inr ⟨same.symm, upper⟩)

theorem le_antisymmetric (a b : Attribute) (first : le a b = true) (second : le b a = true) : a = b := by
  rw [le_cases] at first second
  rcases first with below | ⟨same, lower⟩
  · rcases second with above | ⟨equal, _⟩
    · exact (String.lt_asymm below above).elim
    · exact (String.lt_irrefl _ (equal ▸ below)).elim
  · rcases second with above | ⟨_, upper⟩
    · exact (String.lt_irrefl _ (same ▸ above)).elim
    · cases a
      cases b
      simp only [Attribute.mk.injEq]
      exact ⟨same, String.le_antisymm lower upper⟩

theorem same_all_perm (a b : List Attribute) : sameAll a b = true ↔ a.Perm b := by
  rw [sameAll]
  constructor
  · intro same
    split at same
    · have sorted : a.mergeSort le = b.mergeSort le := by simpa using same
      have first := (List.mergeSort_perm a le).symm
      rw [sorted] at first
      exact first.trans (List.mergeSort_perm b le)
    · cases same
  · intro perm
    rw [if_pos perm.length_eq, beq_iff_eq]
    have rearranged : (a.mergeSort le).Perm (b.mergeSort le) :=
      ((List.mergeSort_perm a le).trans perm).trans (List.mergeSort_perm b le).symm
    have sortedA := List.pairwise_mergeSort le_transitive le_total a
    have sortedB := List.pairwise_mergeSort le_transitive le_total b
    exact rearranged.eq_of_pairwise (fun x y _ _ => le_antisymmetric x y) sortedA sortedB

theorem same_all_refl (attrs : List Attribute) : sameAll attrs attrs = true :=
  (same_all_perm attrs attrs).mpr (List.Perm.refl attrs)

theorem same_all_equivalence : Equivalence fun a b => sameAll a b = true where
  refl := same_all_refl
  symm same := (same_all_perm _ _).mpr ((same_all_perm _ _).mp same).symm
  trans first second := (same_all_perm _ _).mpr (((same_all_perm _ _).mp first).trans ((same_all_perm _ _).mp second))

theorem attrs_changed (here there : Asset) : (Modification.between here there).attrsChanged = true ↔
    ∃ x, here.attrs.count x ≠ there.attrs.count x := by
  have unchanged : sameAll here.attrs there.attrs = true ↔ ∀ x, here.attrs.count x = there.attrs.count x :=
    (same_all_perm _ _).trans List.perm_iff_count
  rw [Modification.between, Bool.not_eq_true', ← Bool.not_eq_true, unchanged, Classical.not_forall]

theorem comparison_unordered : (∀ a b, sameAll a b = true ↔ b.Perm a) ∧
    (Equivalence fun a b => sameAll a b = true) ∧
    ∀ here there, ((Modification.between here there).attrsChanged = false ↔ there.attrs.Perm here.attrs) ∧
      ((Modification.between here there).attrsChanged = true ↔
        ∃ x, here.attrs.count x ≠ there.attrs.count x) := by
  have unordered (a b : List Attribute) : sameAll a b = true ↔ b.Perm a :=
    (same_all_perm a b).trans List.perm_comm
  refine ⟨unordered, same_all_equivalence, fun here there => ⟨?_, attrs_changed here there⟩⟩
  rw [← unordered, Modification.between, Bool.not_eq_false']

end HostingAdmin.Attribute
