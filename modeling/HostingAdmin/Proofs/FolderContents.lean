import HostingAdmin.FileTree.Contents
import HostingAdmin.Proofs.AppFolders

set_option autoImplicit false

namespace HostingAdmin

namespace Branch

def Lists : Branch → List String → Prop
  | .leaf, names => names = []
  | .folder files, names => names ∈ files
  | .skipped, _ => False

-- All folders on the way to a file open.
def Reached (opens : List String → Bool) (here names : List String) : Prop :=
  ∀ above name below, names = above ++ name :: below → opens (here ++ above) = true

theorem reached_first (opens : List String → Bool) (here : List String) : Reached opens here [] := by
  intro above name below whole
  simp at whole

theorem reached_next (opens : List String → Bool) (here : List String) (name : String) (rest : List String) :
    Reached opens here (name :: rest) ↔ opens here = true ∧ Reached opens (here ++ [name]) rest := by
  constructor
  · intro reached
    refine ⟨by simpa using reached [] name rest rfl, fun above last below whole => ?_⟩
    have further := reached (name :: above) last below (by rw [whole, List.cons_append])
    rwa [List.append_cons] at further
  · rintro ⟨first, later⟩ above last below whole
    cases above with
    | nil => simpa using first
    | cons part before =>
        obtain ⟨rfl, rest⟩ := List.cons.inj whole
        rw [List.append_cons]
        exact later before last below rest

theorem leaf_mem (bs : List (String × Branch)) (names : List String) :
    names ∈ bs.filterMap leaf? ↔ ∃ name, names = [name] ∧ (name, .leaf) ∈ bs := by
  rw [List.mem_filterMap]
  constructor
  · rintro ⟨⟨name, b⟩, member, found⟩
    cases b with
    | leaf =>
        cases found
        exact ⟨name, rfl, member⟩
    | _ => cases found
  · rintro ⟨name, rfl, member⟩
    exact ⟨(name, .leaf), member, rfl⟩

theorem below_mem (bs : List (String × Branch)) (names : List String) :
    names ∈ bs.flatMap below ↔
      ∃ name rest files, names = name :: rest ∧ (name, .folder files) ∈ bs ∧ rest ∈ files := by
  rw [List.mem_flatMap]
  constructor
  · rintro ⟨⟨name, b⟩, member, found⟩
    cases b with
    | folder files =>
        obtain ⟨rest, inside, rfl⟩ := List.mem_map.mp found
        exact ⟨name, rest, files, rfl, member, inside⟩
    | _ => cases found
  · rintro ⟨name, rest, files, rfl, member, inside⟩
    exact ⟨(name, .folder files), member, List.mem_map_of_mem inside⟩

theorem files_mem (bs : List (String × Branch)) (names : List String) :
    names ∈ files bs ↔ ∃ name rest b, names = name :: rest ∧ (name, b) ∈ bs ∧ b.Lists rest := by
  rw [files, List.mem_append, leaf_mem, below_mem]
  simp only [byName, List.mem_mergeSort]
  constructor
  · rintro (⟨name, rfl, member⟩ | ⟨name, rest, files, rfl, member, inside⟩)
    · exact ⟨name, [], .leaf, rfl, member, rfl⟩
    · exact ⟨name, rest, .folder files, rfl, member, inside⟩
  · rintro ⟨name, rest, b, rfl, member, listed⟩
    cases b with
    | leaf =>
        cases listed
        exact .inl ⟨name, rfl, member⟩
    | folder files => exact .inr ⟨name, rest, files, rfl, member, listed⟩
    | skipped => exact listed.elim

end Branch

namespace Node

-- No name stands twice in a folder, and nothing is a link.
structure Clear (n : Node) : Prop where
  unique : ∀ at_ entries, n.get? at_ = some (.folder entries) → (Members.names entries).Nodup
  straight : ∀ at_ target, n.get? at_ ≠ some (.link target)

theorem clear_child (entries : List (String × Node)) (name : String) (child : Node)
    (clear : Clear (.folder entries)) (entry : entries.lookup name = some child) : Clear child := by
  have inside : ∀ at_, (Node.folder entries).get? (name :: at_) = child.get? at_ := by
    intro at_
    rw [get?, child?, entry, Option.bind_some]
  refine ⟨?_, ?_⟩
  · intro at_ others there
    rw [← inside] at there
    exact clear.unique _ others there
  · intro at_ target there
    rw [← inside] at there
    exact clear.straight _ target there

theorem branches_mem (opens : List String → Bool) (here : List String) (entries : List (String × Node))
    (name : String) (b : Branch) : (name, b) ∈ branches opens here entries ↔
      ∃ child, (name, child) ∈ entries ∧ b = child.branch opens (here ++ [name]) := by
  induction entries with
  | nil => simp [branches]
  | cons e rest ih =>
      obtain ⟨first, n⟩ := e
      rw [branches, List.mem_cons, ih]
      constructor
      · rintro (same | ⟨child, member, rfl⟩)
        · cases same
          exact ⟨n, List.mem_cons_self, rfl⟩
        · exact ⟨child, List.mem_cons_of_mem _ member, rfl⟩
      · rintro ⟨child, member, rfl⟩
        rcases List.mem_cons.mp member with same | later
        · cases same
          exact .inl rfl
        · exact .inr ⟨child, later, rfl⟩

theorem folder_lists (opens : List String → Bool) (here names : List String) (entries : List (String × Node)) :
    ((folder entries).branch opens here).Lists names ↔ opens here = true ∧ ∃ name rest child,
      names = name :: rest ∧ (name, child) ∈ entries ∧ (child.branch opens (here ++ [name])).Lists rest := by
  rw [branch]
  by_cases opened : opens here = true
  · rw [if_pos opened, Branch.Lists, Branch.files_mem]
    constructor
    · rintro ⟨name, rest, b, rfl, member, listed⟩
      obtain ⟨child, entry, rfl⟩ := (branches_mem opens here entries name b).mp member
      exact ⟨opened, name, rest, child, rfl, entry, listed⟩
    · rintro ⟨_, name, rest, child, rfl, entry, listed⟩
      exact ⟨name, rest, _, rfl, (branches_mem opens here entries name _).mpr ⟨child, entry, rfl⟩, listed⟩
  · rw [if_neg opened]
    exact ⟨False.elim, fun both => opened both.1⟩

theorem branch_lists (opens : List String → Bool) (n : Node) (here names : List String) (clear : n.Clear) :
    (n.branch opens here).Lists names ↔
      (∃ body modified, n.get? names = some (.file body modified)) ∧ Branch.Reached opens here names := by
  match n with
  | .file body modified =>
      cases names with
      | nil => simp [branch, Branch.Lists, get?, Branch.reached_first]
      | cons name rest => simp [branch, Branch.Lists, get?, child?]
  | .link target => exact (clear.straight [] target rfl).elim
  | .folder entries =>
      rw [folder_lists]
      constructor
      · rintro ⟨opened, name, rest, child, rfl, entry, listed⟩
        have found := Members.mem_lookup name child entries (clear.unique [] entries rfl) entry
        obtain ⟨⟨body, modified, there⟩, reached⟩ := (branch_lists opens child (here ++ [name]) rest
          (clear_child entries name child clear found)).mp listed
        exact ⟨⟨body, modified, by rw [get?, child?, found, Option.bind_some, there]⟩,
          (Branch.reached_next opens here name rest).mpr ⟨opened, reached⟩⟩
      · rintro ⟨⟨body, modified, there⟩, reached⟩
        cases names with
        | nil => cases there
        | cons name rest =>
            obtain ⟨child, found, below⟩ := Option.bind_eq_some_iff.mp there
            obtain ⟨opened, onward⟩ := (Branch.reached_next opens here name rest).mp reached
            have entry := Members.lookup_some_mem name child entries found
            exact ⟨opened, name, rest, child, rfl, entry, (branch_lists opens child (here ++ [name]) rest
              (clear_child entries name child clear found)).mpr ⟨⟨body, modified, below⟩, onward⟩⟩
termination_by n
decreasing_by
  all_goals
    have smaller := List.sizeOf_lt_of_mem entry
    simp only [Node.folder.sizeOf_spec, Prod.mk.sizeOf_spec] at smaller ⊢
    omega

end Node

namespace FileTree

-- The folders below a path that open.
def opensBelow (t : FileTree) (p : Path) (names : List String) : Bool := t.isFolder (p.join ⟨0, names⟩)

theorem below_branch (t : FileTree) (p : Path) (at_ : List String) (n : Node) (folder : n.isFolder = true)
    (located : t.locate true p = .ok (.node at_ n)) (names : List String) :
    names ∈ t.filesBelow p ↔ (n.branch (t.opensBelow p) []).Lists names := by
  have reached : t.node p = .ok n := by
    rw [node, located]
    rfl
  cases n with
  | folder entries =>
      simp only [filesBelow, reached, Node.branch]
      by_cases opened : t.opensBelow p [] = true
      · simp only [if_pos opened, if_pos (show t.isFolder (p.join ⟨0, []⟩) = true from opened), Branch.Lists]
        rfl
      · simp [if_neg opened, if_neg (show ¬ t.isFolder (p.join ⟨0, []⟩) = true from opened), Branch.Lists]
  | _ => cases folder

theorem below_files (t : FileTree) (p : Path) (at_ : List String) (n : Node) (folder : n.isFolder = true)
    (located : t.locate true p = .ok (.node at_ n)) (clear : n.Clear) (names : List String) :
    names ∈ t.filesBelow p ↔ (∃ body modified, t.root.get? (at_ ++ names) = some (.file body modified)) ∧
      Branch.Reached (t.opensBelow p) [] names := by
  have there := Node.walk_there t.root true _ _ _ at_ n ((locate_walk t true p _).mp located).2
  rw [Node.get_append, there, Option.bind_some, ← Node.branch_lists _ n [] names clear]
  exact below_branch t p at_ n folder located names

theorem join_join (p : Path) (above : List String) (name : String) :
    (p.join ⟨0, above ++ [name]⟩).parent = p.join ⟨0, above⟩ := by
  simp [Path.join, Path.isAbsolute, Path.parent, ← List.append_assoc]

-- A path to a folder is no longer than one to what is below it.
theorem above_size (p : Path) (above more : List String)
    (fits : ¬ maxPathSize < (Text.utf8 (p.join ⟨0, above ++ more⟩).toString).length) :
    ¬ maxPathSize < (Text.utf8 (p.join ⟨0, above⟩).toString).length := by
  induction more generalizing above with
  | nil => rwa [List.append_nil] at fits
  | cons name rest ih =>
      rw [List.append_cons] at fits
      rw [← join_join p above name]
      exact parent_size _ (by simp [Path.join, Path.isAbsolute]) (ih (above ++ [name]) fits)

theorem below_reaches (t : FileTree) (p : Path) (at_ : List String) (opens : t.Opens p at_) (names : List String)
    (plain : t.root.Plain (at_ ++ names)) (fits : ∀ name ∈ names, ¬ maxNameSize < (Text.utf8 name).length) (n : Node)
    (there : t.root.get? (at_ ++ names) = some n)
    (short : ¬ maxPathSize < (Text.utf8 (p.join ⟨0, names⟩).toString).length) :
    t.locate true (p.join ⟨0, names⟩) = .ok (.node (at_ ++ names) n) := by
  obtain ⟨entries, walked⟩ := opens
  apply (locate_walk t true _ _).mpr
  refine ⟨short, ?_⟩
  cases names with
  | nil =>
      have folder := Node.walk_there t.root true _ _ _ at_ _ walked
      rw [List.append_nil] at there ⊢
      rw [folder, Option.some.injEq] at there
      rw [← there]
      simpa [Path.join, Path.isAbsolute] using walked
  | cons first rest =>
      obtain ⟨fewer, same⟩ := Node.walk_further t.root _ _ _ _ _ walked
      exact (same true first rest).trans
        (Node.walk_reaches t.root n true fewer at_ (first :: rest) plain fits there)

-- All folders on the way to a file open when the path to its own folder is not too long.
theorem reached_short (t : FileTree) (p : Path) (at_ : List String) (opens : t.Opens p at_) (names : List String)
    (named : names ≠ []) (plain : t.root.Plain (at_ ++ names))
    (fits : ∀ name ∈ names, ¬ maxNameSize < (Text.utf8 name).length) (n : Node)
    (there : t.root.get? (at_ ++ names) = some n) : Branch.Reached (t.opensBelow p) [] names ↔
      ¬ maxPathSize < (Text.utf8 (p.join ⟨0, names.dropLast⟩).toString).length := by
  constructor
  · intro reached
    have last := reached names.dropLast (names.getLast named) [] (List.dropLast_concat_getLast named).symm
    exact (folder_opens t _ last).1
  · rintro short above name below rfl
    rw [List.dropLast_append_of_ne_nil (List.cons_ne_nil name below)] at short
    have seen : t.root.look (at_ ++ above ++ name :: below) ≠ none := by
      rw [Node.look, List.append_assoc, there]
      exact Option.some_ne_none _
    obtain ⟨entries, folder⟩ := (Node.look_folder t.root _).mp (Node.look_beyond t.root _ name below seen)
    have located := below_reaches t p at_ opens above
      (Node.plain_above t.root _ _ ⟨name :: below, by rw [List.append_assoc]⟩ plain)
      (fun part member => fits part (List.mem_append_left _ member)) _ folder (above_size p above _ short)
    rw [List.nil_append, opensBelow, isFolder, node, located]
    rfl

end FileTree

end HostingAdmin
