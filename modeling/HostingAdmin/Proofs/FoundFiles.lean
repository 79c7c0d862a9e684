import HostingAdmin.Proofs.AssetPaths
import HostingAdmin.Proofs.FolderContents

set_option autoImplicit false

namespace HostingAdmin

namespace Node

-- In every folder all names stand for themselves, and none of them twice.
structure Spelled (n : Node) : Prop where
  unique : ∀ at_ entries, n.get? at_ = some (.folder entries) → (Members.names entries).Nodup
  proper : ∀ at_ entries, n.get? at_ = some (.folder entries) → ∀ name ∈ Members.names entries, Proper name

theorem spelled_below (n below : Node) (at_ : List String) (spelled : Spelled n) (there : n.get? at_ = some below) :
    Spelled below := by
  have inside : ∀ more, n.get? (at_ ++ more) = below.get? more := by
    intro more
    rw [get_append, there, Option.bind_some]
  refine ⟨?_, ?_⟩
  · intro more entries found
    exact spelled.unique (at_ ++ more) entries (by rw [inside, found])
  · intro more entries found
    exact spelled.proper (at_ ++ more) entries (by rw [inside, found])

theorem spelled_leaf (n : Node) (leaf : n.isFolder = false) : Spelled n := by
  have none : ∀ at_ entries, n.get? at_ ≠ some (.folder entries) := by
    intro at_ entries there
    cases n with
    | folder others => cases leaf
    | _ => cases at_ <;> cases there
  exact ⟨fun at_ entries there => (none at_ entries there).elim, fun at_ entries there => (none at_ entries there).elim⟩

theorem spelled_folder (entries : List (String × Node)) (unique : (Members.names entries).Nodup)
    (proper : ∀ name ∈ Members.names entries, Proper name)
    (below : ∀ name child, entries.lookup name = some child → Spelled child) : Spelled (.folder entries) := by
  have inside : ∀ at_ others, (Node.folder entries).get? at_ = some (.folder others) →
      others = entries ∨ ∃ child more, Spelled child ∧ child.get? more = some (.folder others) := by
    intro at_ others there
    cases at_ with
    | nil =>
        cases there
        exact .inl rfl
    | cons name rest =>
        obtain ⟨child, found, further⟩ := Option.bind_eq_some_iff.mp there
        exact .inr ⟨child, rest, below name child found, further⟩
  refine ⟨?_, ?_⟩
  · intro at_ others there
    rcases inside at_ others there with rfl | ⟨child, more, spelled, further⟩
    · exact unique
    · exact spelled.unique more others further
  · intro at_ others there
    rcases inside at_ others there with rfl | ⟨child, more, spelled, further⟩
    · exact proper
    · exact spelled.proper more others further

theorem branch_found (opens : List String → Bool) (n : Node) (here names : List String) (spelled : n.Spelled)
    (listed : (n.branch opens here).Lists names) : (∀ name ∈ names, Proper name) ∧
      ((∃ body modified, n.get? names = some (.file body modified)) ∨ opens (here ++ names) = false) := by
  match n with
  | .file body modified =>
      obtain rfl : names = [] := listed
      exact ⟨by simp, .inl ⟨body, modified, rfl⟩⟩
  | .link target =>
      rw [branch] at listed
      cases leads : opens here with
      | true =>
          rw [leads] at listed
          exact listed.elim
      | false =>
          rw [leads] at listed
          obtain rfl : names = [] := listed
          exact ⟨by simp, .inr (by rw [List.append_nil]; exact leads)⟩
  | .folder entries =>
      obtain ⟨_, name, rest, child, rfl, entry, inside⟩ := (folder_lists opens here names entries).mp listed
      have found := Members.mem_lookup name child entries (spelled.unique [] entries rfl) entry
      have there : (Node.folder entries).get? [name] = some child := by
        rw [get?, child?, found, Option.bind_some, get?]
      obtain ⟨proper, shape⟩ := branch_found opens child (here ++ [name]) rest
        (spelled_below _ child [name] spelled there) inside
      refine ⟨?_, ?_⟩
      · intro other listed
        rcases List.mem_cons.mp listed with rfl | later
        · exact spelled.proper [] entries rfl _ (List.mem_map_of_mem entry)
        · exact proper other later
      · rcases shape with ⟨body, modified, file⟩ | leads
        · exact .inl ⟨body, modified, by rw [get?, child?, found, Option.bind_some, file]⟩
        · rw [List.append_assoc] at leads
          exact .inr leads
termination_by n
decreasing_by
  all_goals
    have smaller := List.sizeOf_lt_of_mem entry
    simp only [Node.folder.sizeOf_spec, Prod.mk.sizeOf_spec] at smaller ⊢
    omega

theorem walk_file (root : Node) (links : Nat) (here names : List String) (body : Bytes) (modified : Int) (s : Spot)
    (down : ".." ∉ names) (there : root.get? (here ++ names) = some (.file body modified))
    (walked : root.walk true links here names = .ok s) : s = .node (here ++ names) (.file body modified) := by
  induction names generalizing here with
  | nil =>
      rw [List.append_nil] at there ⊢
      rw [walk, there] at walked
      cases walked
      rfl
  | cons part rest ih =>
      have further : here ++ part :: rest = here ++ [part] ++ rest := by simp
      rw [List.mem_cons, not_or] at down
      have goesOn := ih (here ++ [part]) down.2 (further ▸ there)
      rw [further] at there ⊢
      cases folder : root.get? here with
      | none =>
          rw [get_append, get_append, folder] at there
          cases there
      | some n =>
          cases n with
          | folder entries =>
              have entry := get_entry root here entries part folder
              rw [get_append] at there
              cases child : entries.lookup part with
              | none =>
                  rw [entry, child] at there
                  cases there
              | some n =>
                  have straight : ∀ target, n ≠ .link target := by
                    rintro target rfl
                    rw [entry, child, Option.bind_some] at there
                    cases rest <;> cases there
                  rw [walk, folder] at walked
                  simp only [if_neg (Ne.symm down.1), child] at walked
                  split at walked
                  · cases walked
                  · cases n with
                    | link target => exact (straight target rfl).elim
                    | _ => exact goesOn walked
          | _ =>
              rw [walk, folder] at walked
              cases walked

end Node

namespace FileTree

theorem below_found (t : FileTree) (p : Path) (spelled : t.root.Spelled) (names : List String)
    (listed : names ∈ t.filesBelow p) : ∃ at_ entries, t.locate true p = .ok (.node at_ (.folder entries)) ∧
      Named names ∧ ((∃ body modified, t.root.get? (at_ ++ names) = some (.file body modified)) ∨
        t.isFolder (p.join ⟨0, names⟩) = false) := by
  cases located : t.locate true p with
  | error fault =>
      rw [filesBelow, node, located] at listed
      cases listed
  | ok s =>
      cases s with
      | vacant at_ =>
          rw [filesBelow, node, located] at listed
          cases listed
      | node at_ n =>
          have reached : t.node p = .ok n := by
            rw [node, located]
            rfl
          have there := Node.walk_there t.root true _ _ _ at_ n ((locate_walk t true p _).mp located).2
          cases n with
          | folder entries =>
              have inside := (below_branch t p at_ (.folder entries) rfl located names).mp listed
              obtain ⟨proper, shape⟩ := Node.branch_found _ (.folder entries) [] names
                (Node.spelled_below _ _ at_ spelled there) inside
              have some_name : names ≠ [] := by
                rintro rfl
                obtain ⟨_, name, rest, child, same, _⟩ := (Node.folder_lists _ _ _ entries).mp inside
                cases same
              refine ⟨at_, entries, rfl, ⟨some_name, proper⟩, ?_⟩
              rcases shape with file | leads
              · rw [Node.get_append, there]
                exact .inl file
              · exact .inr leads
          | file body modified =>
              rw [filesBelow, reached] at listed
              cases listed
          | link target =>
              rw [filesBelow, reached] at listed
              simp only [Node.branch] at listed
              split at listed
              · rename_i files same
                split at same <;> cases same
              · cases listed

theorem below_named (t : FileTree) (p : Path) (spelled : t.root.Spelled) (names : List String)
    (listed : names ∈ t.filesBelow p) : Named names := by
  obtain ⟨_, _, _, named, _⟩ := below_found t p spelled names listed
  exact named

theorem found_file (t : FileTree) (p : Path) (spelled : t.root.Spelled) (names : List String)
    (listed : names ∈ t.filesBelow p) (size : Nat) (modified : Int)
    (stat : t.stat (p.join ⟨0, names⟩) = .ok (size, modified)) :
    ∃ at_ body, t.locate true (p.join ⟨0, names⟩) = .ok (.node at_ (.file body modified)) ∧ size = body.length := by
  obtain ⟨start, entries, opens, named, shape⟩ := below_found t p spelled names listed
  cases located : t.locate true (p.join ⟨0, names⟩) with
  | error fault =>
      rw [FileTree.stat, node, located] at stat
      cases stat
  | ok s =>
      have file : ∃ at_ body changed, s = .node at_ (.file body changed) := by
        have walked := ((locate_walk t true _ s).mp located).2
        rcases shape with ⟨body, changed, there⟩ | leads
        · obtain ⟨fewer, same⟩ := Node.walk_further t.root _ _ _ _ _ ((locate_walk t true p _).mp opens).2
          obtain ⟨first, rest, rfl⟩ := List.exists_cons_of_ne_nil named.some_name
          have down : ".." ∉ first :: rest := fun up => (named.proper _ up).down rfl
          exact ⟨_, body, changed, Node.walk_file t.root fewer start (first :: rest) body changed s down there
            ((same true first rest).symm.trans walked)⟩
        · cases s with
          | vacant at_ =>
              rw [FileTree.stat, node, located] at stat
              cases stat
          | node at_ n =>
              have target : n.isLink = false :=
                Node.walk_named t.root _ _ _ at_ n (by simp [Path.join, Path.isAbsolute, named.some_name]) walked
              cases n with
              | file body changed => exact ⟨at_, body, changed, rfl⟩
              | link target => cases target
              | folder below =>
                  rw [isFolder, node, located] at leads
                  cases leads
      obtain ⟨at_, body, changed, rfl⟩ := file
      rw [FileTree.stat, node, located] at stat
      cases stat
      exact ⟨at_, body, rfl, rfl⟩

end FileTree

end HostingAdmin
