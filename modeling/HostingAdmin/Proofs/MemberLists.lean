import HostingAdmin.Json.Basic

set_option autoImplicit false

namespace HostingAdmin.Members

variable {α : Type}

def names (ms : Members α) : List String := ms.map Prod.fst

theorem lookup_entry (key name : String) (value : α) (rest : Members α) :
    List.lookup key ((name, value) :: rest) = if key = name then some value else rest.lookup key := by
  by_cases same : key = name
  · simp [same]
  · have unlike : (key == name) = false := by simpa using same
    rw [List.lookup_cons, unlike, if_neg same]

theorem lookup_values {β : Type} (f : α → β) (key : String) (ms : Members α) :
    (ms.map fun m => (m.1, f m.2)).lookup key = (ms.lookup key).map f := by
  induction ms with
  | nil => rfl
  | cons first rest ih =>
      rw [List.map_cons, lookup_entry, lookup_entry, ih]
      split <;> rfl

theorem lookup_put (name key : String) (value : α) (ms : Members α) :
    (put name value ms).lookup key = if key = name then some value else ms.lookup key := by
  induction ms with
  | nil => rw [put, lookup_entry]
  | cons first rest ih =>
      obtain ⟨n, v⟩ := first
      by_cases here : n = name
      · subst here
        by_cases same : key = n <;> simp [put, lookup_entry, same]
      · rw [put, if_neg here, lookup_entry, lookup_entry, ih]
        by_cases found : key = n
        · subst found
          rw [if_pos rfl, if_neg here, if_pos rfl]
        · rw [if_neg found, if_neg found]

theorem put_names (name : String) (value : α) (ms : Members α) :
    names (put name value ms) = if name ∈ names ms then names ms else names ms ++ [name] := by
  induction ms with
  | nil => simp [put, names]
  | cons first rest ih =>
      obtain ⟨n, v⟩ := first
      unfold names at ih ⊢
      by_cases here : n = name
      · simp [put, here]
      · have other : ¬ name = n := fun same => here same.symm
        by_cases listed : name ∈ rest.map Prod.fst
        · rw [if_pos listed] at ih
          simp [put, here, ih, listed]
        · rw [if_neg listed] at ih
          simp only [put, here, if_false, List.map_cons, ih, List.mem_cons, other, listed, or_self, List.cons_append]

theorem put_nodup (name : String) (value : α) (ms : Members α) (unique : (names ms).Nodup) :
    (names (put name value ms)).Nodup := by
  rw [put_names]
  by_cases listed : name ∈ names ms
  · rwa [if_pos listed]
  · rw [if_neg listed, List.nodup_append]
    refine ⟨unique, by simp, ?_⟩
    intro a old b fresh same
    rw [List.mem_singleton] at fresh
    exact listed (fresh ▸ same ▸ old)

theorem lookup_filter_other (name key : String) (ms : Members α) (other : key ≠ name) :
    (ms.filter fun entry => entry.1 != name).lookup key = ms.lookup key := by
  induction ms with
  | nil => rfl
  | cons first rest ih =>
      obtain ⟨n, v⟩ := first
      by_cases here : n = name
      · subst here
        simp [lookup_entry, other, ih]
      · simp [lookup_entry, here, ih]

theorem lookup_some_mem (key : String) (value : α) (ms : Members α) (found : ms.lookup key = some value) :
    (key, value) ∈ ms := by
  induction ms with
  | nil => cases found
  | cons first rest ih =>
      obtain ⟨n, v⟩ := first
      rw [lookup_entry] at found
      by_cases here : key = n
      · subst here
        rw [if_pos rfl, Option.some.injEq] at found
        simp [found]
      · rw [if_neg here] at found
        exact List.mem_cons_of_mem _ (ih found)

theorem mem_lookup (key : String) (value : α) (ms : Members α) (unique : (names ms).Nodup)
    (member : (key, value) ∈ ms) : ms.lookup key = some value := by
  induction ms with
  | nil => cases member
  | cons first rest ih =>
      obtain ⟨n, v⟩ := first
      simp only [names, List.map_cons, List.nodup_cons] at unique
      rw [lookup_entry]
      rcases List.mem_cons.mp member with same | later
      · cases same
        rw [if_pos rfl]
      · have other : key ≠ n := by
          intro same
          subst same
          exact unique.1 (List.mem_map_of_mem later)
        rw [if_neg other]
        exact ih unique.2 later

theorem mem_put (name key : String) (value x : α) (ms : Members α) (member : (key, x) ∈ put name value ms) :
    key = name ∧ x = value ∨ (key, x) ∈ ms := by
  induction ms with
  | nil =>
      rw [put, List.mem_singleton] at member
      exact .inl (Prod.mk.inj member)
  | cons first rest ih =>
      rw [put] at member
      split at member
      · rename_i here
        rcases List.mem_cons.mp member with same | later
        · obtain ⟨atKey, rfl⟩ := Prod.mk.inj same
          exact .inl ⟨atKey.trans here, rfl⟩
        · exact .inr (List.mem_cons_of_mem _ later)
      · rcases List.mem_cons.mp member with same | later
        · exact .inr (by rw [same]; exact List.mem_cons_self)
        · exact (ih later).imp id (List.mem_cons_of_mem _)

theorem put_fresh (name : String) (value : α) (ms : Members α) (fresh : name ∉ names ms) :
    put name value ms = ms ++ [(name, value)] := by
  induction ms with
  | nil => rfl
  | cons first rest ih =>
      obtain ⟨n, v⟩ := first
      simp only [names, List.map_cons, List.mem_cons, not_or] at fresh
      rw [put, if_neg fun same => fresh.1 same.symm, ih fresh.2, List.cons_append]

theorem puts_fresh (ms ps : Members α) (distinct : (names (ms ++ ps)).Nodup) :
    ps.foldl (fun ms p => put p.1 p.2 ms) ms = ms ++ ps := by
  induction ps generalizing ms with
  | nil => rw [List.foldl_nil, List.append_nil]
  | cons p rest ih =>
      have fresh : p.1 ∉ names ms := by
        intro known
        rw [names, List.map_append, List.nodup_append] at distinct
        exact distinct.2.2 p.1 known p.1 List.mem_cons_self rfl
      rw [List.foldl_cons, put_fresh p.1 p.2 ms fresh, ih, List.append_assoc, List.singleton_append]
      rwa [List.append_assoc, List.singleton_append]

theorem pairs_distinct (ps : List (String × α)) (distinct : (names ps).Nodup) : ofPairs ps = ps :=
  puts_fresh [] ps distinct

theorem puts_last (ms ps : Members α) (key : String) :
    (ps.foldl (fun ms p => put p.1 p.2 ms) ms).lookup key = (ps.reverse.lookup key).or (ms.lookup key) := by
  induction ps generalizing ms with
  | nil => rfl
  | cons p rest ih =>
      rw [List.foldl_cons, ih, lookup_put, List.reverse_cons, List.lookup_append, lookup_entry, Option.or_assoc]
      split
      · rfl
      · rfl

theorem pairs_last (ps : List (String × α)) (key : String) : (ofPairs ps).lookup key = ps.reverse.lookup key := by
  rw [ofPairs, puts_last, List.lookup_nil, Option.or_none]

end HostingAdmin.Members
