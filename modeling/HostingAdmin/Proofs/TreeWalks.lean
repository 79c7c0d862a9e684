import HostingAdmin.FileTree
import HostingAdmin.Proofs.MemberLists

set_option autoImplicit false

namespace HostingAdmin

namespace Node

-- What resolving a path sees of a node.
inductive Kind where
  | file
  | link (target : String)
  | folder

def kind : Node → Kind
  | .file _ _ => .file
  | .link target => .link target
  | .folder _ => .folder

-- Whatever is in a tree is in the other one, as a node of the same kind.
def Grows (root other : Node) : Prop :=
  ∀ at_ n, root.get? at_ = some n → ∃ m, other.get? at_ = some m ∧ m.kind = n.kind

theorem grows_chain (first second third : Node) (before : Grows first second) (after : Grows second third) :
    Grows first third := by
  intro at_ n there
  obtain ⟨m, between, same⟩ := before at_ n there
  obtain ⟨k, found, again⟩ := after at_ m between
  exact ⟨k, found, again.trans same⟩

-- A file can be put where nothing is or where a file is.
def Free (root : Node) (spot : List String) : Prop := ∀ n, root.get? spot = some n → n.kind = .file

theorem bind_put (name : String) (n : Node) (entries : List (String × Node)) :
    bind name n entries = Members.put name n entries := by
  induction entries with
  | nil => rfl
  | cons e rest ih => by_cases same : e.1 = name <;> simp [bind, Members.put, same, ih]

theorem bind_lookup (name : String) (n : Node) (entries : List (String × Node)) (key : String) :
    (bind name n entries).lookup key = if key = name then some n else entries.lookup key := by
  rw [bind_put, Members.lookup_put]

theorem get_append (root : Node) (before after : List String) :
    root.get? (before ++ after) = (root.get? before).bind (get? · after) := by
  induction before generalizing root with
  | nil => rfl
  | cons name rest ih =>
      rw [List.cons_append, get?, get?]
      cases root.child? name with
      | none => rfl
      | some child => exact ih child

theorem get_entry (root : Node) (here : List String) (entries : List (String × Node)) (name : String)
    (folder : root.get? here = some (.folder entries)) : root.get? (here ++ [name]) = entries.lookup name := by
  rw [get_append, folder, Option.bind_some, get?, child?]
  cases entries.lookup name <;> rfl

theorem put_get (root : Node) (spot : List String) (old x : Node) (there : root.get? spot = some old) :
    (root.put spot x).get? spot = some x := by
  induction spot generalizing root with
  | nil => cases root <;> rfl
  | cons name rest ih =>
      obtain ⟨child, found, below⟩ := Option.bind_eq_some_iff.mp there
      cases root with
      | file body modified => cases found
      | link target => cases found
      | folder entries =>
          have entry : entries.lookup name = some child := found
          cases rest with
          | nil => simp [put, get?, child?, bind_lookup]
          | cons second others =>
              simp only [put, entry, get?, child?, bind_lookup, if_true, Option.bind_some]
              exact ih child below

theorem bind_known (name : String) (n : Node) (entries : List (String × Node)) (known : entries.lookup name = some n) :
    bind name n entries = entries := by
  induction entries with
  | nil => cases known
  | cons e rest ih =>
      obtain ⟨first, child⟩ := e
      rw [Members.lookup_entry] at known
      by_cases here : first = name
      · rw [if_pos here.symm] at known
        cases known
        rw [bind, if_pos here, here]
      · rw [if_neg fun same => here same.symm] at known
        rw [bind, if_neg here, ih known]

theorem bind_twice (name : String) (n m : Node) (entries : List (String × Node)) :
    bind name n (bind name m entries) = bind name n entries := by
  induction entries with
  | nil => simp [bind]
  | cons e rest ih => by_cases here : e.1 = name <;> simp [bind, here, ih]

-- Putting back what was there undoes a change.
theorem put_back (root : Node) (spot : List String) (old x : Node) (there : root.get? spot = some old) :
    (root.put spot x).put spot old = root := by
  induction spot generalizing root with
  | nil =>
      cases there
      cases old <;> cases x <;> rfl
  | cons name rest ih =>
      obtain ⟨child, found, below⟩ := Option.bind_eq_some_iff.mp there
      cases root with
      | file body modified => cases found
      | link target => cases found
      | folder entries =>
          have entry : entries.lookup name = some child := found
          cases rest with
          | nil =>
              cases below
              simp only [put, bind_twice, bind_known name old entries entry]
          | cons second others =>
              simp only [put, entry, bind_lookup, if_true, bind_twice, ih child below,
                bind_known name child entries entry]

theorem file_leaf (n below : Node) (at_ : List String) (file : n.kind = .file) (there : n.get? at_ = some below) :
    at_ = [] ∧ below = n := by
  cases n with
  | file body modified =>
      cases at_ with
      | nil => exact ⟨rfl, (Option.some.inj there).symm⟩
      | cons name rest => cases there
  | _ => cases file

-- A node is still there, as one of its kind, and a file is the same file
-- unless it is the one that was written.
def Kept (other : Node) (spot at_ : List String) (n : Node) : Prop :=
  ∃ m, other.get? at_ = some m ∧ m.kind = n.kind ∧ (at_ ≠ spot → n.kind = .file → m = n)

theorem kept_same (other : Node) (spot at_ : List String) (n : Node) (there : other.get? at_ = some n) :
    Kept other spot at_ n :=
  ⟨n, there, rfl, fun _ _ => rfl⟩

theorem kept_folder (entries others : List (String × Node)) (spot : List String) :
    Kept (.folder others) spot [] (.folder entries) :=
  ⟨.folder others, rfl, rfl, fun _ file => by cases file⟩

theorem leaf_keeps (entries : List (String × Node)) (name : String) (fresh : Bytes) (now : Int)
    (free : Free (.folder entries) [name]) (at_ : List String) (n : Node)
    (there : (Node.folder entries).get? at_ = some n) :
    Kept ((Node.folder entries).put [name] (.file fresh now)) [name] at_ n := by
  cases at_ with
  | nil =>
      cases there
      exact kept_folder entries _ [name]
  | cons first others =>
      by_cases here : first = name
      · subst here
        obtain ⟨child, entry, below⟩ := Option.bind_eq_some_iff.mp there
        have file : child.kind = .file := free child (by rw [get?, entry]; rfl)
        obtain ⟨rfl, rfl⟩ := file_leaf child n others file below
        refine ⟨.file fresh now, ?_, file.symm, fun other => (other rfl).elim⟩
        simp [put, get?, child?, bind_lookup]
      · apply kept_same
        simpa [put, get?, child?, bind_lookup, here] using there

theorem put_keeps (root : Node) (spot : List String) (fresh : Bytes) (now : Int) (free : Free root spot)
    (at_ : List String) (n : Node) (there : root.get? at_ = some n) :
    Kept (root.put spot (.file fresh now)) spot at_ n := by
  induction spot generalizing root at_ with
  | nil =>
      obtain ⟨rfl, rfl⟩ := file_leaf root n at_ (free root rfl) there
      refine ⟨.file fresh now, ?_, (free n rfl).symm, fun other => (other rfl).elim⟩
      cases n <;> rfl
  | cons name rest ih =>
      cases root with
      | file body modified => exact kept_same _ _ at_ n there
      | link target => exact kept_same _ _ at_ n there
      | folder entries =>
          cases rest with
          | nil => exact leaf_keeps entries name fresh now free at_ n there
          | cons second more =>
              cases entry : entries.lookup name with
              | none =>
                  apply kept_same
                  simpa only [put, entry] using there
              | some child =>
                  cases at_ with
                  | nil =>
                      cases there
                      simpa only [put, entry] using kept_folder entries _ (name :: second :: more)
                  | cons first others =>
                      by_cases here : first = name
                      · subst here
                        have below : child.get? others = some n := by simpa [get?, child?, entry] using there
                        have freeBelow : Free child (second :: more) := by
                          intro m found
                          exact free m (by simpa [get?, child?, entry] using found)
                        obtain ⟨m, found, same, kept⟩ := ih child freeBelow others below
                        refine ⟨m, ?_, same, fun other => kept fun equal => other (by rw [equal])⟩
                        simpa [put, entry, get?, child?, bind_lookup] using found
                      · apply kept_same
                        simpa [put, entry, get?, child?, bind_lookup, here] using there

theorem put_grows (root : Node) (spot : List String) (fresh : Bytes) (now : Int) (free : Free root spot) :
    Grows root (root.put spot (.file fresh now)) := by
  intro at_ n there
  obtain ⟨m, found, same, _⟩ := put_keeps root spot fresh now free at_ n there
  exact ⟨m, found, same⟩

theorem walk_there (root : Node) (follow : Bool) (links : Nat) (here todo at_ : List String) (n : Node)
    (walked : root.walk follow links here todo = .ok (.node at_ n)) : root.get? at_ = some n := by
  fun_induction Node.walk root follow links here todo with
  | case1 links here child found =>
      cases walked
      exact found
  | case3 links here rest entries folder ih => exact ih walked
  | case7 links here part rest entries folder up long target entry last =>
      cases walked
      rw [get_entry root here entries part folder, entry]
  | case9 here part rest entries folder up long target entry goesOn links t ih => exact ih walked
  | case10 links here part rest entries folder up long child notLink entry ih => exact ih walked
  | _ => cases walked

theorem put_shrinks (root : Node) (spot : List String) (old : Node) (fresh : Bytes) (now : Int)
    (there : root.get? spot = some old) (file : old.kind = .file) : Grows (root.put spot (.file fresh now)) root := by
  cases old with
  | file body modified =>
      have grown := put_grows (root.put spot (.file fresh now)) spot body modified ?_
      · rwa [put_back root spot _ _ there] at grown
      · intro n found
        rw [put_get root spot _ _ there] at found
        cases found
        rfl
  | _ => cases file

theorem kind_folder (n : Node) (folder : n.kind = .folder) : ∃ entries, n = .folder entries := by
  cases n with
  | folder entries => exact ⟨entries, rfl⟩
  | _ => cases folder

theorem kind_link (n : Node) (target : String) (link : n.kind = .link target) : n = .link target := by
  cases n with
  | link other =>
      cases link
      rfl
  | _ => cases link

section

variable (root other : Node) (grows : Grows root other)

include grows

theorem grows_folder (here : List String) (entries : List (String × Node))
    (folder : root.get? here = some (.folder entries)) : ∃ others, other.get? here = some (.folder others) := by
  obtain ⟨m, there, same⟩ := grows here _ folder
  obtain ⟨others, rfl⟩ := kind_folder m same
  exact ⟨others, there⟩

theorem grows_entry (here : List String) (entries others : List (String × Node)) (part : String) (child : Node)
    (folder : root.get? here = some (.folder entries)) (there : other.get? here = some (.folder others))
    (entry : entries.lookup part = some child) : ∃ m, others.lookup part = some m ∧ m.kind = child.kind := by
  rw [← get_entry root here entries part folder] at entry
  rw [← get_entry other here others part there]
  exact grows (here ++ [part]) child entry

-- What a path leads to is still found after the tree has grown, though it may
-- be another node by then.
theorem walk_grown (follow : Bool) (links : Nat) (here todo at_ : List String) (n : Node)
    (walked : root.walk follow links here todo = .ok (.node at_ n)) :
    ∃ m, other.get? at_ = some m ∧ other.walk follow links here todo = .ok (.node at_ m) := by
  have folders := grows_folder root other grows
  have entries_grow := grows_entry root other grows
  fun_induction Node.walk root follow links here todo with
  | case1 links here child found =>
      cases walked
      obtain ⟨m, there, _⟩ := grows _ _ found
      exact ⟨m, there, by rw [walk, there]⟩
  | case3 links here rest entries folder ih =>
      obtain ⟨others, there⟩ := folders here entries folder
      obtain ⟨m, found, again⟩ := ih walked
      exact ⟨m, found, by simpa only [walk, there, if_true] using again⟩
  | case7 links here part rest entries folder up long target entry last =>
      cases walked
      obtain ⟨others, there⟩ := folders here entries folder
      obtain ⟨m, found, same⟩ := entries_grow here entries others part _ folder there entry
      obtain rfl := kind_link m target same
      refine ⟨.link target, ?_, ?_⟩
      · rw [get_entry other here others part there, found]
      · simp only [walk, there, up, long, found, last, if_true, if_false]
  | case9 here part rest entries folder up long target entry goesOn links t ih =>
      obtain ⟨others, there⟩ := folders here entries folder
      obtain ⟨m, found, same⟩ := entries_grow here entries others part _ folder there entry
      obtain rfl := kind_link m target same
      obtain ⟨m, reached, again⟩ := ih walked
      refine ⟨m, reached, ?_⟩
      simp only [walk, there, up, long, found, goesOn, if_false]
      exact again
  | case10 links here part rest entries folder up long child notLink entry ih =>
      obtain ⟨others, there⟩ := folders here entries folder
      obtain ⟨m, found, same⟩ := entries_grow here entries others part child folder there entry
      have noLink : ∀ target, m = .link target → False := by
        intro target link
        subst link
        exact notLink target (kind_link child target same.symm)
      obtain ⟨m, reached, again⟩ := ih walked
      refine ⟨m, reached, ?_⟩
      simp only [walk, there, up, long, found, if_false]
      exact again
  | _ => cases walked

end

theorem walk_vacant (root : Node) (follow : Bool) (links : Nat) (here todo at_ : List String)
    (walked : root.walk follow links here todo = .ok (.vacant at_)) : root.get? at_ = none := by
  fun_induction Node.walk root follow links here todo with
  | case3 links here rest entries folder ih => exact ih walked
  | case5 links here part rest entries folder up long entry last =>
      cases walked
      rw [get_entry root here entries part folder, entry]
  | case9 here part rest entries folder up long target entry goesOn links t ih => exact ih walked
  | case10 links here part rest entries folder up long child notLink entry ih => exact ih walked
  | _ => cases walked

def isLink : Node → Bool
  | .link _ => true
  | _ => false

theorem folder_root (root : Node) (here : List String) (entries : List (String × Node))
    (folder : root.get? here = some (.folder entries)) : root.isLink = false := by
  cases here with
  | nil =>
      cases folder
      rfl
  | cons name rest =>
      cases root with
      | link target => cases folder
      | _ => rfl

theorem folder_parent (root : Node) (here : List String) (entries : List (String × Node)) (n : Node)
    (folder : root.get? here = some (.folder entries)) (above : root.get? here.dropLast = some n) :
    n.isLink = false := by
  by_cases top : here = []
  · subst top
    cases above
    exact folder_root root [] entries folder
  · rw [← List.dropLast_concat_getLast top, get_append, above, Option.bind_some] at folder
    cases n with
    | link target => cases folder
    | _ => rfl

theorem walk_resolved (root : Node) (links : Nat) (here todo at_ : List String) (n : Node)
    (start : ∀ m, root.get? here = some m → m.isLink = false)
    (walked : root.walk true links here todo = .ok (.node at_ n)) : n.isLink = false := by
  fun_induction Node.walk root true links here todo with
  | case1 links here child found =>
      cases walked
      exact start _ found
  | case3 links here rest entries folder ih =>
      exact ih (fun m above => folder_parent root here entries m folder above) walked
  | case7 links here part rest entries folder up long target entry last => simp at last
  | case9 here part rest entries folder up long target entry goesOn links t ih =>
      refine ih ?_ walked
      intro m found
      split at found
      · cases found
        exact folder_root root here entries folder
      · rw [folder] at found
        cases found
        rfl
  | case10 links here part rest entries folder up long child notLink entry ih =>
      refine ih ?_ walked
      intro m found
      rw [get_entry root here entries part folder, entry] at found
      cases found
      cases child with
      | link target => exact (notLink target rfl).elim
      | _ => rfl
  | _ => cases walked

theorem walk_named (root : Node) (links : Nat) (here todo at_ : List String) (n : Node) (named : todo ≠ [])
    (walked : root.walk true links here todo = .ok (.node at_ n)) : n.isLink = false := by
  refine walk_resolved root links here todo at_ n ?_ walked
  intro m found
  cases todo with
  | nil => exact (named rfl).elim
  | cons part rest =>
      cases m with
      | link target => simp [walk, found] at walked
      | _ => rfl

theorem walk_before (root : Node) (follow : Bool) (links : Nat) (here before : List String) (name : String)
    (after : List String) (s : Spot) (walked : root.walk true links here (before ++ name :: after) = .ok s) :
    ∃ at_ n, root.walk follow links here before = .ok (.node at_ n) ∧
      (follow = true → ∃ entries, n = .folder entries) := by
  have goesOn : ∀ rest : List String, ¬ (rest ++ name :: after).isEmpty = true := by simp
  fun_induction Node.walk root follow links here before with
  | case1 links here child found =>
      refine ⟨here, child, rfl, fun _ => ?_⟩
      cases child with
      | folder entries => exact ⟨entries, rfl⟩
      | _ => simp [walk, found] at walked
  | case2 links here missing => simp [walk, missing] at walked
  | case3 links here rest entries folder ih =>
      simp only [List.cons_append, walk, folder, if_true] at walked
      exact ih walked
  | case4 links here part rest entries folder up long => simp [walk, folder, up, long] at walked
  | case5 links here part rest entries folder up long entry last =>
      simp [walk, folder, up, long, entry, goesOn] at walked
  | case6 links here part rest entries folder up long entry last =>
      simp [walk, folder, up, long, entry, goesOn] at walked
  | case7 links here part rest entries folder up long target entry last =>
      refine ⟨_, _, rfl, fun follows => ?_⟩
      simp [follows] at last
  | case8 here part rest entries folder up long target entry final =>
      simp [walk, folder, up, long, entry] at walked
  | case9 here part rest entries folder up long target entry final links t ih =>
      simp only [List.cons_append, walk, folder, up, long, entry, Bool.not_true, Bool.and_false, Bool.false_eq_true,
        if_false] at walked
      apply ih
      rw [List.append_assoc]
      exact walked
  | case10 links here part rest entries folder up long child notLink entry ih =>
      simp only [List.cons_append, walk, folder, up, long, entry, if_false] at walked
      exact ih walked
  | case11 links here part rest n notFolder found => simp [walk, found] at walked
  | case12 links here part rest missing => simp [walk, missing] at walked

end Node

end HostingAdmin
