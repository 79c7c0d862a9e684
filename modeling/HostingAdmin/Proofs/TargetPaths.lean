import HostingAdmin.Proofs.AssetPaths
import HostingAdmin.Proofs.RetrievalFiles
import HostingAdmin.Proofs.UrlEncoding

set_option autoImplicit false

namespace HostingAdmin

-- The folder that a segment leads to.
def Path.go (here : List String) (segment : String) : List String :=
  if segment = "" ∨ segment = "." then here
  else if segment = ".." then here.dropLast
  else here ++ [segment]

-- A tree in which no path leads anywhere else than it says.
def FileTree.Linkless (t : FileTree) : Prop := ∀ at_ target, t.root.look at_ ≠ some (.link target)

theorem go_empty (here : List String) : Path.go here "" = here := if_pos (.inl rfl)

theorem go_proper (here : List String) (name : String) (proper : Proper name) : Path.go here name = here ++ [name] := by
  have named : ¬ (name = "" ∨ name = ".") := fun empty => empty.elim proper.given proper.here
  rw [Path.go, if_neg named, if_neg proper.down]

theorem all_proper (here names : List String) (proper : ∀ name ∈ names, Proper name) :
    names.foldl Path.go here = here ++ names := by
  induction names generalizing here with
  | nil => rw [List.foldl_nil, List.append_nil]
  | cons name rest ih =>
      rw [List.foldl_cons, go_proper here name (proper name List.mem_cons_self),
        ih _ fun other member => proper other (List.mem_cons_of_mem name member), List.append_assoc]
      rfl

theorem go_down (here : List String) (segment : String) (down : ".." ∉ here) : ".." ∉ Path.go here segment := by
  rw [Path.go]
  split
  · exact down
  split
  · exact fun up => down ((List.dropLast_prefix here).subset up)
  · rename_i other
    intro up
    rcases List.mem_append.mp up with before | last
    · exact down before
    · exact other (List.mem_singleton.mp last).symm

theorem Node.real_linkless (root : Node) (straight : ∀ at_ target, root.look at_ ≠ some (.link target)) (depth : Nat)
    (active : List (List String)) (here todo : List String) (named : ∀ part ∈ todo, part ≠ "" ∧ part ≠ ".") :
    root.real depth active here todo = .ok (todo.foldl Path.go here) := by
  induction todo generalizing here with
  | nil => rw [real, List.foldl_nil]
  | cons part rest ih =>
      have onward := ih (Path.go here part) fun other member => named other (List.mem_cons_of_mem part member)
      obtain ⟨given, other⟩ := named part List.mem_cons_self
      have visible : ¬ (part = "" ∨ part = ".") := fun empty => empty.elim given other
      rw [List.foldl_cons, ← onward, real, Path.go, if_neg visible]
      by_cases up : part = ".."
      · rw [if_pos up, if_pos up]
      · rw [if_neg up, if_neg up]
        dsimp only
        split
        · rename_i target link
          exact (straight _ target ((look_link root _ target).mpr link)).elim
        · rfl

namespace Hosting

open HostingAdmin.Action

-- The segments of an asset path, with the empty ones that repeated slashes leave.
def segments (assetPath : String) : List String := (assetPath.toList.splitOn '/').map String.ofList

def normalForm (root : List String) (assetPath : String) : List String := (segments assetPath).foldl Path.go root

theorem split_go (here : List String) (text : String) :
    (Path.split text).foldl Path.go here = (segments text).foldl Path.go here := by
  have idle : (fun here segment => if (segment != "" && segment != ".") = true then Path.go here segment else here) =
      Path.go := by
    funext here segment
    by_cases empty : segment = "" ∨ segment = "."
    · rw [Path.go, if_pos empty]
      rcases empty with rfl | rfl <;> rfl
    · have named : (segment != "" && segment != ".") = true := by simpa using empty
      rw [if_pos named]
  rw [Path.split, List.foldl_filter, idle]
  rfl

theorem front_go (here : List String) (cs : List Char) :
    (segments (String.ofList (cs.dropWhile (· == '/')))).foldl Path.go here =
      (segments (String.ofList cs)).foldl Path.go here := by
  induction cs with
  | nil => rfl
  | cons c rest ih =>
      by_cases slash : c = '/'
      · subst slash
        have first : segments (String.ofList ('/' :: rest)) = "" :: segments (String.ofList rest) := by
          simp only [segments, String.toList_ofList, List.splitOn_cons_eq_if_modifyHead]
          rfl
        rw [List.dropWhile_cons_of_pos rfl, ih, first, List.foldl_cons, go_empty]
      · rw [List.dropWhile_cons_of_neg (by simpa using slash)]

theorem relative_go (root : List String) (assetPath : String) :
    (relative assetPath).parts.foldl Path.go root = normalForm root assetPath := by
  have parts : (relative assetPath).parts = Path.split (String.ofList (assetPath.toList.dropWhile (· == '/'))) := rfl
  rw [parts, split_go, front_go, String.ofList_toList]
  rfl

theorem segments_char (text : String) (c : Char) (other : c ≠ '/') :
    (∃ segment ∈ segments text, c ∈ segment.toList) ↔ c ∈ text.toList := by
  rw [← Url.pieces_char text.toList c other]
  simp [segments]

theorem path_char (text : String) (c : Char) (slash : c ≠ '/') (dot : c ≠ '.') :
    (∃ part ∈ Path.split text, c ∈ part.toList) ↔ c ∈ text.toList := by
  rw [← segments_char text c slash]
  constructor
  · rintro ⟨part, member, inside⟩
    exact ⟨part, (List.mem_filter.mp member).1, inside⟩
  · rintro ⟨segment, member, inside⟩
    have named : segment ≠ "" ∧ segment ≠ "." := by
      constructor
      · rintro rfl
        cases inside
      · rintro rfl
        exact dot (List.mem_singleton.mp inside)
    exact ⟨segment, List.mem_filter.mpr ⟨member, by simpa using named⟩, inside⟩

theorem relative_char (assetPath : String) (c : Char) (slash : c ≠ '/') (dot : c ≠ '.') :
    (∃ part ∈ (relative assetPath).parts, c ∈ part.toList) ↔ c ∈ assetPath.toList := by
  have trimmed : ∀ cs : List Char, c ∈ cs.dropWhile (· == '/') ↔ c ∈ cs := by
    intro cs
    induction cs with
    | nil => rfl
    | cons d rest ih =>
        by_cases front : d = '/'
        · subst front
          rw [List.dropWhile_cons_of_pos rfl, ih, List.mem_cons]
          simp [slash]
        · rw [List.dropWhile_cons_of_neg (by simpa using front)]
  rw [← trimmed]
  have chars := path_char (String.ofList (assetPath.toList.dropWhile (· == '/'))) c slash dot
  rwa [String.toList_ofList] at chars

section

variable (root : List String) (proper : ∀ name ∈ root, Proper name) (clean : hasNull ⟨1, root⟩ = false)

theorem joined_relative (assetPath : String) :
    (⟨1, root⟩ : Path).join (relative assetPath) = ⟨1, root ++ (relative assetPath).parts⟩ := by
  rw [Path.join, Retrieval.relative_down]
  rfl

include clean in
theorem joined_null (assetPath : String) :
    hasNull ((⟨1, root⟩ : Path).join (relative assetPath)) = true ↔ '\x00' ∈ assetPath.toList := by
  rw [joined_relative, ← relative_char assetPath '\x00' (by decide) (by decide), hasNull, List.any_append]
  rw [hasNull] at clean
  simp only [clean, Bool.false_or, List.any_eq_true, List.contains_iff_mem]

include proper in
theorem joined_real (t : FileTree) (linkless : t.Linkless) (assetPath : String) :
    t.real ((⟨1, root⟩ : Path).join (relative assetPath)) = .ok ⟨1, normalForm root assetPath⟩ := by
  have named : ∀ part ∈ root ++ (relative assetPath).parts, part ≠ "" ∧ part ≠ "." := by
    intro part member
    rcases List.mem_append.mp member with above | below
    · exact ⟨(proper part above).given, (proper part above).here⟩
    · have kept := (List.mem_filter.mp below).2
      simpa using kept
  apply FileTree.leads_real
  have found := Node.real_linkless t.root linkless t.root.linkCount [] [] _ named
  rw [List.foldl_append, all_proper [] root proper, List.nil_append, relative_go] at found
  rw [joined_relative]
  exact found

def outside (assetPath : String) : Failure :=
  .operation assetPath ("asset path '" ++ assetPath ++ "' is outside the files directory")

-- What the lookup of a target comes to.
def destination (root : List String) (assetPath : String) : Except Failure Path :=
  if '\x00' ∈ assetPath.toList then .error .nullCharacter
  else if root <+: normalForm root assetPath then .ok ⟨1, normalForm root assetPath⟩
  else .error (outside assetPath)

include proper clean

theorem target_lands (assetPath : String) (w : World) (linkless : w.files.Linkless) :
    (target ⟨1, root⟩ assetPath).perform w = (destination root assetPath, w) := by
  have null := joined_null root clean assetPath
  have within : (⟨1, normalForm root assetPath⟩ : Path).isWithin ⟨1, root⟩ = true ↔ root <+: normalForm root assetPath := by
    simp [Path.isWithin]
  rw [target, perform_bind, Retrieval.real_guarded, joined_real root proper w.files linkless, destination]
  by_cases holds : '\x00' ∈ assetPath.toList
  · rw [if_pos (null.mpr holds), if_pos holds]
  · rw [if_neg fun has => holds (null.mp has), if_neg holds]
    dsimp only [Except.mapError]
    by_cases inside : root <+: normalForm root assetPath
    · rw [if_pos (within.mpr inside), if_pos inside]
      rfl
    · rw [if_neg fun has => inside (within.mp has), if_neg inside]
      rfl

end

end Hosting

end HostingAdmin
