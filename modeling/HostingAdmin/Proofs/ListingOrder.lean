import HostingAdmin.Proofs.FolderContents

set_option autoImplicit false

namespace HostingAdmin

namespace Branch

-- One file is listed before another one.
inductive Before : List String → List String → Prop where
  | files (name other : String) (less : name < other) : Before [name] [other]
  | shallow (name other next : String) (rest : List String) : Before [name] (other :: next :: rest)
  | folders (name other first second : String) (rest more : List String) (less : name < other) :
      Before (name :: first :: rest) (other :: second :: more)
  | within (name : String) (rest more : List String) (before : Before rest more) : Before (name :: rest) (name :: more)

theorem before_irrefl (names : List String) : ¬ Before names names := by
  induction names with
  | nil =>
      intro before
      cases before
  | cons name rest ih =>
      intro before
      cases before with
      | files _ _ less => exact String.lt_irrefl name less
      | folders _ _ _ _ _ _ less => exact String.lt_irrefl name less
      | within _ _ _ before => exact ih before

theorem before_apart (files : List (List String)) (ordered : files.Pairwise Before) : files.Nodup := by
  refine ordered.imp ?_
  rintro names others before rfl
  exact before_irrefl names before

theorem named_increase (bs : List (String × Branch)) (unique : (Members.names bs).Nodup) :
    (byName bs).Pairwise fun a b => a.1 < b.1 := by
  have sorted : (byName bs).Pairwise fun a b => decide (a.1 ≤ b.1) = true := by
    apply List.pairwise_mergeSort
    · intro a b c first second
      exact decide_eq_true (String.le_trans (of_decide_eq_true first) (of_decide_eq_true second))
    · intro a b
      rw [Bool.or_eq_true, decide_eq_true_eq, decide_eq_true_eq]
      exact String.le_total a.1 b.1
  have apart : (byName bs).Pairwise fun a b => a.1 ≠ b.1 := by
    have same : ((byName bs).map Prod.fst).Perm (bs.map Prod.fst) := (List.mergeSort_perm bs _).map Prod.fst
    exact List.pairwise_map.mp (same.nodup_iff.mpr unique)
  refine sorted.imp₂ ?_ apart
  intro a b less other
  exact String.not_le.mp fun back => other (String.le_antisymm (of_decide_eq_true less) back)

theorem leaf_shape (e : String × Branch) (names : List String) (leaf : leaf? e = some names) : names = [e.1] := by
  obtain ⟨name, b⟩ := e
  cases b with
  | leaf => exact (Option.some.inj leaf).symm
  | _ => cases leaf

theorem below_shape (e : String × Branch) (names : List String) (inside : names ∈ below e) :
    ∃ rest files, names = e.1 :: rest ∧ e.2 = .folder files ∧ rest ∈ files := by
  obtain ⟨name, b⟩ := e
  cases b with
  | folder files =>
      obtain ⟨rest, member, rfl⟩ := List.mem_map.mp inside
      exact ⟨rest, files, rfl, rfl, member⟩
  | _ => cases inside

section

variable (bs : List (String × Branch)) (unique : (Members.names bs).Nodup)
  (inside : ∀ name files, (name, .folder files) ∈ bs → files.Pairwise Before ∧ [] ∉ files)

include unique

theorem leaves_before : ((byName bs).filterMap leaf?).Pairwise Before := by
  refine (named_increase bs unique).filterMap _ ?_
  intro a b less names leaf others also
  rw [leaf_shape a names leaf, leaf_shape b others also]
  exact .files a.1 b.1 less

include inside

theorem folders_before : ((byName bs).flatMap below).Pairwise Before := by
  have known : ∀ e ∈ byName bs, ∀ names ∈ below e, ∃ first rest, names = e.1 :: first :: rest := by
    rintro ⟨name, b⟩ member names listed
    obtain ⟨rest, files, rfl, rfl, there⟩ := below_shape _ names listed
    have some_name : rest ≠ [] := by
      rintro rfl
      exact (inside name files (List.mem_mergeSort.mp member)).2 there
    obtain ⟨first, more, rfl⟩ := List.exists_cons_of_ne_nil some_name
    exact ⟨first, more, rfl⟩
  rw [List.pairwise_flatMap]
  constructor
  · rintro ⟨name, b⟩ member
    cases b with
    | folder files =>
        refine List.pairwise_map.mpr ((inside name files (List.mem_mergeSort.mp member)).1.imp ?_)
        intro names others before
        exact .within name names others before
    | _ => exact .nil
  · refine (named_increase bs unique).imp_of_mem ?_
    intro a b first second less names listed others also
    obtain ⟨next, rest, rfl⟩ := known a first names listed
    obtain ⟨other, more, rfl⟩ := known b second others also
    exact .folders a.1 b.1 next other rest more less

theorem files_before : (files bs).Pairwise Before ∧ [] ∉ files bs := by
  constructor
  · refine List.pairwise_append.mpr
      ⟨leaves_before bs unique, folders_before bs unique inside, fun names first others second => ?_⟩
    obtain ⟨name, rfl, _⟩ := (leaf_mem (byName bs) names).mp first
    obtain ⟨other, rest, below, rfl, folder, there⟩ := (below_mem (byName bs) others).mp second
    cases rest with
    | nil => exact ((inside other below (List.mem_mergeSort.mp folder)).2 there).elim
    | cons next more => exact .shallow name other next more
  · intro listed
    obtain ⟨name, rest, b, same, _⟩ := (files_mem bs []).mp listed
    cases same

end

end Branch

namespace Node

theorem branches_names (opens : List String → Bool) (here : List String) (entries : List (String × Node)) :
    Members.names (branches opens here entries) = Members.names entries := by
  induction entries with
  | nil => rfl
  | cons e rest ih =>
      obtain ⟨name, n⟩ := e
      exact congrArg (name :: ·) ih

theorem branch_before (opens : List String → Bool) (n : Node) (here : List String) (clear : n.Clear)
    (files : List (List String)) (found : n.branch opens here = .folder files) :
    files.Pairwise Branch.Before ∧ [] ∉ files := by
  match n with
  | .file body modified => cases found
  | .link target => exact (clear.straight [] target rfl).elim
  | .folder entries =>
      rw [branch] at found
      split at found
      · cases found
        have unique := clear.unique [] entries rfl
        refine Branch.files_before _ (by rw [branches_names]; exact unique) ?_
        intro name below member
        obtain ⟨child, entry, same⟩ := (branches_mem opens here entries name _).mp member
        have there := Members.mem_lookup name child entries unique entry
        exact branch_before opens child (here ++ [name]) (clear_child entries name child clear there) below same.symm
      · cases found
termination_by n
decreasing_by
  all_goals
    have smaller := List.sizeOf_lt_of_mem entry
    simp only [Node.folder.sizeOf_spec, Prod.mk.sizeOf_spec] at smaller ⊢
    omega

end Node

namespace FileTree

theorem below_before (t : FileTree) (p : Path) (at_ : List String) (n : Node) (located : t.locate true p = .ok (.node at_ n))
    (clear : n.Clear) : (t.filesBelow p).Pairwise Branch.Before := by
  have reached : t.node p = .ok n := by
    rw [node, located]
    rfl
  rw [filesBelow, reached]
  dsimp only
  split
  · rename_i files found
    exact (Node.branch_before _ n [] clear files found).1
  · exact .nil

end FileTree

end HostingAdmin
