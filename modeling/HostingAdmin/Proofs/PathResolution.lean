import Mathlib.Data.List.Perm.Subperm
import HostingAdmin.Proofs.RealPaths

set_option autoImplicit false

namespace HostingAdmin

namespace Node

-- Where the target of a link starts from.
def base (at_ : List String) (target : String) : List String :=
  if (Path.ofString target).isAbsolute then [] else at_.dropLast

-- Replaces the links on a path, where at most `depth` of them may be inside one another.
def resolve? (root : Node) (depth : Nat) (here todo : List String) : Option (List String) :=
  match todo with
  | [] => some here
  | part :: rest =>
    if part = ".." then root.resolve? depth here.dropLast rest
    else
      match root.get? (here ++ [part]) with
      | some (.link target) =>
        match depth with
        | 0 => none
        | depth' + 1 =>
          (root.resolve? depth' (base (here ++ [part]) target) (Path.ofString target).parts).bind fun found =>
            root.resolve? (depth' + 1) found rest
      | _ => root.resolve? depth (here ++ [part]) rest
termination_by (depth, todo.length)

section

variable (root : Node)

theorem resolve_end (depth : Nat) (here : List String) : root.resolve? depth here [] = some here := by
  rw [resolve?]

theorem resolve_up (depth : Nat) (here rest : List String) :
    root.resolve? depth here (".." :: rest) = root.resolve? depth here.dropLast rest := by
  rw [resolve?, if_pos rfl]

theorem resolve_link (depth : Nat) (here : List String) (part : String) (rest : List String) (target : String)
    (down : part ≠ "..") (link : root.get? (here ++ [part]) = some (.link target)) :
    root.resolve? (depth + 1) here (part :: rest) =
      (root.resolve? depth (base (here ++ [part]) target) (Path.ofString target).parts).bind fun found =>
        root.resolve? (depth + 1) found rest := by
  rw [resolve?, if_neg down]
  simp only [link]

theorem resolve_stuck (here : List String) (part : String) (rest : List String) (target : String)
    (down : part ≠ "..") (link : root.get? (here ++ [part]) = some (.link target)) :
    root.resolve? 0 here (part :: rest) = none := by
  rw [resolve?, if_neg down]
  simp only [link]

theorem resolve_plain (depth : Nat) (here : List String) (part : String) (rest : List String) (down : part ≠ "..")
    (plain : ∀ target, root.get? (here ++ [part]) ≠ some (.link target)) :
    root.resolve? depth here (part :: rest) = root.resolve? depth (here ++ [part]) rest := by
  rw [resolve?, if_neg down]
  split
  · rename_i target link
    exact (plain target link).elim
  · rfl

theorem resolve_append (depth : Nat) (here before after : List String) :
    root.resolve? depth here (before ++ after) =
      (root.resolve? depth here before).bind fun found => root.resolve? depth found after := by
  induction before generalizing here with
  | nil => rw [List.nil_append, resolve_end, Option.bind_some]
  | cons part rest ih =>
      rw [List.cons_append]
      by_cases up : part = ".."
      · subst up
        rw [resolve_up, resolve_up, ih]
      · by_cases link : ∃ target, root.get? (here ++ [part]) = some (.link target)
        · obtain ⟨target, there⟩ := link
          cases depth with
          | zero => rw [resolve_stuck root here part _ target up there, resolve_stuck root here part _ target up there,
              Option.bind_none]
          | succ depth =>
              rw [resolve_link root depth here part _ target up there,
                resolve_link root depth here part _ target up there,
                Option.bind_assoc]
              exact Option.bind_congr fun found _ => ih found
        · have plain : ∀ target, root.get? (here ++ [part]) ≠ some (.link target) :=
            fun target there => link ⟨target, there⟩
          rw [resolve_plain root depth here part _ up plain, resolve_plain root depth here part _ up plain, ih]

theorem resolve_more (depth : Nat) (here todo found : List String)
    (resolved : root.resolve? depth here todo = some found) : root.resolve? (depth + 1) here todo = some found := by
  fun_induction Node.resolve? root depth here todo generalizing found with
  | case1 depth here => rwa [resolve_end]
  | case2 depth here rest ih =>
      rw [resolve_up]
      exact ih found resolved
  | case3 here part rest down target link => cases resolved
  | case4 here part rest down target link depth first after =>
      obtain ⟨between, reached, further⟩ := Option.bind_eq_some_iff.mp resolved
      rw [resolve_link root _ here part rest target down link, first between reached]
      exact after between found further
  | case5 depth here part rest down plain ih =>
      rw [resolve_plain root _ here part rest down plain]
      exact ih found resolved

theorem resolve_within (depth more : Nat) (here todo found : List String) (fewer : depth ≤ more)
    (resolved : root.resolve? depth here todo = some found) : root.resolve? more here todo = some found := by
  induction fewer with
  | refl => exact resolved
  | step _ ih => exact resolve_more root _ here todo found ih

theorem walk_resolves (links : Nat) (here todo : List String) (s : Spot)
    (walked : root.walk true links here todo = .ok s) : root.resolve? links here todo = some s.place := by
  fun_induction Node.walk root true links here todo with
  | case1 links here child found =>
      cases walked
      exact resolve_end root links _
  | case3 links here rest entries folder ih =>
      rw [resolve_up]
      exact ih walked
  | case5 links here part rest entries folder up long entry last =>
      cases walked
      have plain : ∀ target, root.get? (here ++ [part]) ≠ some (.link target) := by
        intro target link
        rw [get_entry root here entries part folder, entry] at link
        cases link
      rw [resolve_plain root links here part rest up plain, List.isEmpty_iff.mp last, resolve_end]
      rfl
  | case7 links here part rest entries folder up long target entry last => simp at last
  | case9 here part rest entries folder up long target entry goesOn links t ih =>
      have link : root.get? (here ++ [part]) = some (.link target) := by
        rw [get_entry root here entries part folder, entry]
      have start : (if t.isAbsolute then [] else here) = base (here ++ [part]) target := by
        rw [base, List.dropLast_concat]
      have whole := ih walked
      rw [dite_eq_ite, start, resolve_append] at whole
      obtain ⟨between, reached, further⟩ := Option.bind_eq_some_iff.mp whole
      rw [resolve_link root links here part rest target up link, reached]
      exact resolve_more root links between rest _ further
  | case10 links here part rest entries folder up long child notLink entry ih =>
      have plain : ∀ target, root.get? (here ++ [part]) ≠ some (.link target) := by
        intro target link
        rw [get_entry root here entries part folder, entry] at link
        exact notLink target (Option.some.inj link)
      rw [resolve_plain root links here part rest up plain]
      exact ih walked
  | _ => cases walked

end

mutual

-- The places of all links.
def links : Node → List (List String)
  | .file _ _ => []
  | .link _ => [[]]
  | .folder entries => linksBelow entries

def linksBelow : List (String × Node) → List (List String)
  | [] => []
  | (name, n) :: rest => n.links.map (name :: ·) ++ linksBelow rest

end

mutual

theorem links_count (n : Node) : n.links.length = n.linkCount := by
  cases n with
  | file body modified => rfl
  | link target => rfl
  | folder entries => exact below_count entries

theorem below_count (entries : List (String × Node)) : (linksBelow entries).length = linkCounts entries := by
  cases entries with
  | nil => rfl
  | cons e rest =>
      rw [linksBelow, linkCounts, List.length_append, List.length_map, links_count e.2, below_count rest]

end

theorem below_listed (entries : List (String × Node)) (name : String) (child : Node) (at_ : List String)
    (member : (name, child) ∈ entries) (listed : at_ ∈ child.links) : name :: at_ ∈ linksBelow entries := by
  induction entries with
  | nil => cases member
  | cons e rest ih =>
      rw [linksBelow, List.mem_append]
      rcases List.mem_cons.mp member with rfl | later
      · exact .inl (List.mem_map_of_mem listed)
      · exact .inr (ih later)

theorem links_listed (n : Node) (at_ : List String) (target : String) (there : n.get? at_ = some (.link target)) :
    at_ ∈ n.links := by
  induction at_ generalizing n with
  | nil =>
      cases there
      exact List.mem_singleton_self []
  | cons name rest ih =>
      obtain ⟨child, entry, below⟩ := Option.bind_eq_some_iff.mp there
      cases n with
      | folder entries =>
          have member := Members.lookup_some_mem name child entries entry
          exact below_listed entries name child rest member (ih child below)
      | _ => cases entry

-- The target of a link resolves.
def Replaced (root : Node) (depth : Nat) (at_ : List String) : Prop :=
  ∃ target found, root.get? at_ = some (.link target) ∧
    root.resolve? depth (base at_ target) (Path.ofString target).parts = some found

-- The links that are being replaced are not among those that take less than `limit`.
structure Underway (root : Node) (limit depth : Nat) (active : List (List String)) : Prop where
  distinct : active.Nodup
  links : ∀ at_ ∈ active, ∃ target, root.get? at_ = some (.link target)
  room : depth + active.length = root.linkCount
  pending : ∀ at_ ∈ active, ∀ less, less < limit → ¬ root.Replaced less at_

-- A link that is not being replaced yet leaves room for its own replacement.
theorem underway_room (root : Node) (limit depth : Nat) (active : List (List String)) (next : List String)
    (target : String) (underway : root.Underway limit depth active) (link : root.get? next = some (.link target))
    (fresh : next ∉ active) : ∃ depth', depth = depth' + 1 := by
  have distinct : (next :: active).Nodup := List.nodup_cons.mpr ⟨fresh, underway.distinct⟩
  have within : next :: active ⊆ root.links := by
    intro at_ member
    rcases List.mem_cons.mp member with rfl | before
    · exact links_listed root at_ target link
    · obtain ⟨other, there⟩ := underway.links at_ before
      exact links_listed root at_ other there
  have bound := (distinct.subperm within).length_le
  rw [links_count, List.length_cons, ← underway.room] at bound
  exact ⟨depth - 1, by omega⟩

theorem replaced_least (root : Node) (depth : Nat) (at_ : List String) (replaced : root.Replaced depth at_) :
    ∃ least, least ≤ depth ∧ root.Replaced least at_ ∧ ∀ less, less < least → ¬ root.Replaced less at_ := by
  induction depth using Nat.strongRecOn with
  | ind depth ih =>
    by_cases sooner : ∃ less, less < depth ∧ root.Replaced less at_
    · obtain ⟨less, fewer, again⟩ := sooner
      obtain ⟨least, within, first⟩ := ih less fewer again
      exact ⟨least, by omega, first⟩
    · exact ⟨depth, Nat.le_refl depth, replaced, fun less fewer again => sooner ⟨less, fewer, again⟩⟩

theorem underway_next (root : Node) (limit least depth : Nat) (active : List (List String)) (next : List String)
    (target : String) (underway : root.Underway limit (depth + 1) active) (within : least ≤ limit)
    (link : root.get? next = some (.link target)) (fresh : next ∉ active)
    (first : ∀ less, less < least → ¬ root.Replaced less next) : root.Underway least depth (next :: active) where
  distinct := List.nodup_cons.mpr ⟨fresh, underway.distinct⟩
  links at_ member := by
    rcases List.mem_cons.mp member with rfl | before
    · exact ⟨target, link⟩
    · exact underway.links at_ before
  room := by
    rw [← underway.room, List.length_cons]
    omega
  pending at_ member less fewer := by
    rcases List.mem_cons.mp member with rfl | before
    · exact first less fewer
    · exact underway.pending at_ before less (by omega)

-- Whatever resolves is a real path: a link that led back to itself would never resolve,
-- so none of those being replaced is met again.
theorem real_resolves (root : Node) (limit depth : Nat) (active : List (List String)) (here todo parts : List String)
    (underway : root.Underway limit depth active) (resolved : root.resolve? limit here todo = some parts) :
    root.real depth active here todo = .ok parts := by
  induction limit using Nat.strongRecOn generalizing depth active here todo parts with
  | ind limit below =>
    induction todo generalizing here with
    | nil =>
        rw [resolve_end] at resolved
        cases resolved
        rw [real]
    | cons part rest ih =>
        by_cases up : part = ".."
        · subst up
          rw [resolve_up] at resolved
          rw [real, if_pos rfl]
          exact ih here.dropLast resolved
        · by_cases link : ∃ target, root.get? (here ++ [part]) = some (.link target)
          · obtain ⟨target, there⟩ := link
            cases limit with
            | zero =>
                rw [resolve_stuck root here part rest target up there] at resolved
                cases resolved
            | succ limit =>
                rw [resolve_link root limit here part rest target up there] at resolved
                obtain ⟨between, reached, further⟩ := Option.bind_eq_some_iff.mp resolved
                have fresh : here ++ [part] ∉ active := by
                  intro again
                  exact underway.pending _ again limit (Nat.lt_succ_self limit) ⟨target, between, there, reached⟩
                obtain ⟨depth', rfl⟩ := underway_room root _ depth active _ target underway there fresh
                obtain ⟨least, within, ⟨other, found, again, soonest⟩, first⟩ :=
                  replaced_least root limit _ ⟨target, between, there, reached⟩
                rw [there] at again
                cases again
                have same := resolve_within root least limit _ _ found within soonest
                rw [reached] at same
                cases same
                have replaced := below least (by omega) depth' _ _ _ between
                  (underway_next root _ least depth' active _ target underway (by omega) there fresh first) soonest
                rw [base, List.dropLast_concat] at replaced
                have further := ih between further
                rw [real, if_neg up]
                simp only [there, List.contains_iff_mem, fresh, if_false, replaced]
                exact further
          · have plain : ∀ target, root.get? (here ++ [part]) ≠ some (.link target) :=
              fun target there => link ⟨target, there⟩
            rw [resolve_plain root limit here part rest up plain] at resolved
            rw [real, if_neg up]
            dsimp only
            split
            · rename_i target there
              exact (plain target there).elim
            · exact ih (here ++ [part]) resolved

theorem underway_none (root : Node) (limit : Nat) : root.Underway limit root.linkCount [] where
  distinct := List.nodup_nil
  links _ member := by cases member
  room := rfl
  pending _ member := by cases member

theorem walk_real (root : Node) (links : Nat) (here todo : List String) (s : Spot)
    (walked : root.walk true links here todo = .ok s) : root.real root.linkCount [] here todo = .ok s.place :=
  real_resolves root links _ [] here todo s.place (underway_none root links)
    (walk_resolves root links here todo s walked)

theorem walk_further (root : Node) (links : Nat) (here before at_ : List String) (n : Node)
    (walked : root.walk true links here before = .ok (.node at_ n)) :
    ∃ fewer, ∀ follow name after,
      root.walk follow links here (before ++ name :: after) = root.walk follow fewer at_ (name :: after) := by
  have goesOn : ∀ (rest : List String) name after, ¬ (rest ++ name :: after).isEmpty = true := by simp
  fun_induction Node.walk root true links here before with
  | case1 links here child found =>
      cases walked
      exact ⟨links, fun follow name after => rfl⟩
  | case3 links here rest entries folder ih =>
      obtain ⟨fewer, same⟩ := ih walked
      refine ⟨fewer, fun follow name after => ?_⟩
      rw [← same, List.cons_append, walk]
      simp only [folder, if_true]
  | case7 links here part rest entries folder up long target entry last => simp at last
  | case9 here part rest entries folder up long target entry final links t ih =>
      obtain ⟨fewer, same⟩ := ih walked
      refine ⟨fewer, fun follow name after => ?_⟩
      rw [← same, List.cons_append, walk]
      simp only [folder, up, long, entry, goesOn, Bool.false_and, Bool.false_eq_true, if_false, List.append_assoc,
        dite_eq_ite, t]
  | case10 links here part rest entries folder up long child notLink entry ih =>
      obtain ⟨fewer, same⟩ := ih walked
      refine ⟨fewer, fun follow name after => ?_⟩
      rw [← same, List.cons_append, walk]
      simp only [folder, up, long, entry, if_false]
  | _ => cases walked

theorem walk_free (root : Node) (links : Nat) (here todo at_ : List String)
    (walked : root.walk false links here todo = .ok (.vacant at_)) :
    root.walk true links here todo = .ok (.vacant at_) := by
  fun_induction Node.walk root false links here todo with
  | case3 links here rest entries folder ih =>
      rw [walk]
      simp only [folder, if_true]
      exact ih walked
  | case5 links here part rest entries folder up long entry last =>
      rw [walk]
      simp only [folder, up, long, entry, last, if_true, if_false]
      exact walked
  | case9 here part rest entries folder up long target entry goesOn links t ih =>
      rw [walk]
      simp only [folder, up, long, entry, Bool.not_true, Bool.and_false, Bool.false_eq_true, if_false]
      exact ih walked
  | case10 links here part rest entries folder up long child notLink entry ih =>
      rw [walk]
      simp only [folder, up, long, entry, if_false]
      exact ih walked
  | _ => cases walked

end Node

end HostingAdmin
