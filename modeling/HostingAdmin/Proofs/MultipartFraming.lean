import Mathlib.Data.List.Basic
import HostingAdmin.Http.Multipart
import HostingAdmin.Proofs.Utf8RoundTrip

set_option autoImplicit false

namespace HostingAdmin.Multipart

def lineEnd : Bytes := [0x0D, 0x0A]

def dashes (boundary : String) : Bytes := Text.utf8 ("--" ++ boundary)

-- What divides parts: two dashes and the boundary at the start of a line.
def delimiter (boundary : String) : Bytes := lineEnd ++ dashes boundary

def extend (b : UInt8) : List Bytes → List Bytes
  | [] => [[b]]
  | piece :: pieces => (b :: piece) :: pieces

-- The pieces between the places where a mark stands, from the left.
def cut (mark bytes : Bytes) : List Bytes :=
  match bytes with
  | [] => [[]]
  | b :: rest =>
    if mark.isPrefixOf (b :: rest) then [] :: cut mark (rest.drop (mark.length - 1))
    else extend b (cut mark rest)
termination_by bytes.length
decreasing_by
  all_goals
    simp only [List.length_drop, List.length_cons]
    omega

def opensName : Bytes := Text.utf8 "\r\nContent-Disposition: form-data; name=\""

def closesName : Bytes := Text.utf8 "\"\r\n\r\n"

-- A part as it stands behind its delimiter: a header that names it, an empty line, its contents.
def part? (piece : Bytes) : Option (String × Bytes) := do
  let header ← opensName.isPrefixOf? piece
  let name := header.takeWhile (· != 0x22)
  let content ← closesName.isPrefixOf? (header.drop name.length)
  return (← Text.ofUtf8? name, content)

-- The named parts of a body that starts with the boundary and ends with the boundary
-- between dashes. The start of the body counts as the start of a line.
def read? (boundary : String) (payload : Bytes) : Option (List (String × Bytes)) :=
  match cut (delimiter boundary) (lineEnd ++ payload) with
  | [] :: pieces =>
    if pieces.getLast? = some (Text.utf8 "--\r\n") then pieces.dropLast.mapM part? else none
  | _ => none

section

variable (mark : Bytes)

theorem cut_clear (bytes : Bytes) (clear : ¬ mark <:+: bytes) : cut mark bytes = [bytes] := by
  induction bytes with
  | nil => rw [cut]
  | cons b rest ih =>
      rw [List.infix_cons_iff, not_or, ← List.isPrefixOf_iff_prefix] at clear
      rw [cut, if_neg clear.1, ih clear.2]
      rfl

-- A mark that starts with an octet that it does not repeat cannot overlap with itself.
theorem overlap_none (first : UInt8) (more piece rest : Bytes) (marks : mark = first :: more) (single : first ∉ more)
    (b : UInt8) (clear : ¬ mark <:+: b :: piece) : ¬ mark <+: (b :: piece) ++ (mark ++ rest) := by
  intro front
  by_cases short : mark.length ≤ (b :: piece).length
  · exact clear (List.prefix_of_prefix_length_le front (List.prefix_append _ _) short).isInfix
  · have inside : b :: piece <+: mark :=
      List.prefix_of_prefix_length_le (List.prefix_append _ _) front (by omega)
    obtain ⟨others, split⟩ := inside
    rw [← split, List.prefix_append_right_inj] at front
    cases others with
    | nil =>
        rw [List.append_nil] at split
        exact clear (split ▸ List.infix_rfl)
    | cons c last =>
        rw [split, marks, List.cons_append, List.cons_prefix_cons] at front
        rw [marks, List.cons_append] at split
        apply single
        rw [← (List.cons.inj split).2, ← front.1]
        exact List.mem_append_right _ List.mem_cons_self

theorem cut_marked (first : UInt8) (more piece rest : Bytes) (marks : mark = first :: more) (single : first ∉ more)
    (clear : ¬ mark <:+: piece) : cut mark (piece ++ (mark ++ rest)) = piece :: cut mark rest := by
  induction piece with
  | nil =>
      have found : mark.isPrefixOf (mark ++ rest) = true := List.isPrefixOf_iff_prefix.mpr (List.prefix_append _ _)
      subst marks
      rw [List.cons_append] at found
      rw [List.nil_append, List.cons_append, cut, if_pos found, List.length_cons, Nat.add_sub_cancel,
        List.drop_left]
  | cons b piece ih =>
      have further : ¬ mark <:+: piece := fun within => clear (List.infix_cons within)
      have apart := overlap_none mark first more piece rest marks single b clear
      rw [← List.isPrefixOf_iff_prefix, List.cons_append] at apart
      rw [List.cons_append, cut, if_neg apart, ih further]
      rfl

theorem cut_joined (first : UInt8) (more x last : Bytes) (pieces : List Bytes) (marks : mark = first :: more)
    (single : first ∉ more) (start : ¬ mark <:+: x) (clear : ∀ piece ∈ pieces, ¬ mark <:+: piece)
    (ends : ¬ mark <:+: last) :
    cut mark (x ++ (pieces.flatMap (mark ++ ·) ++ (mark ++ last))) = x :: (pieces ++ [last]) := by
  induction pieces generalizing x with
  | nil => rw [List.flatMap_nil, List.nil_append, cut_marked mark first more x last marks single start,
      cut_clear mark last ends, List.nil_append]
  | cons piece pieces ih =>
      have goesOn := ih piece (clear piece List.mem_cons_self) fun q member => clear q (List.mem_cons_of_mem _ member)
      rw [List.flatMap_cons, List.append_assoc, List.append_assoc, cut_marked mark first more x _ marks single start,
        goesOn, List.cons_append]

theorem infix_past (first : UInt8) (more before rest : Bytes) (marks : mark = first :: more) (other : first ∉ before)
    (within : mark <:+: before ++ rest) : mark <:+: rest := by
  induction before with
  | nil => exact within
  | cons b before ih =>
      rw [List.mem_cons, not_or] at other
      rcases List.infix_cons_iff.mp within with front | further
      · rw [marks, List.cons_prefix_cons] at front
        exact (other.1 front.1).elim
      · exact ih other.2 further

end

def piece (part : String × Bytes) : Bytes := opensName ++ (Text.utf8 part.1 ++ (closesName ++ part.2))

-- A name that can stand between quotes on one line.
structure Nameable (name : String) : Prop where
  quote : 0x22 ∉ Text.utf8 name
  line : 0x0D ∉ Text.utf8 name

-- Contents without a line that starts with the boundary.
structure Framed (boundary : String) (content : Bytes) : Prop where
  first : ¬ dashes boundary <+: content
  within : ¬ delimiter boundary <:+: content

theorem part_piece (name : String) (content : Bytes) (nameable : Nameable name) :
    part? (piece (name, content)) = some (name, content) := by
  have stops : ((Text.utf8 name ++ (closesName ++ content)).takeWhile (· != 0x22)) = Text.utf8 name := by
    have quoted : closesName ++ content = 0x22 :: ([0x0D, 0x0A, 0x0D, 0x0A] ++ content) := rfl
    rw [List.takeWhile_append_of_pos, quoted, List.takeWhile_cons_of_neg (by decide), List.append_nil]
    intro b member
    have other : b ≠ 0x22 := by
      rintro rfl
      exact nameable.quote member
    simpa using other
  have header : opensName.isPrefixOf? (piece (name, content)) = some (Text.utf8 name ++ (closesName ++ content)) :=
    List.isPrefixOf?_eq_some_iff_append_eq.mpr rfl
  have rest : closesName.isPrefixOf? (closesName ++ content) = some content :=
    List.isPrefixOf?_eq_some_iff_append_eq.mpr rfl
  simp only [part?, header, Option.bind_eq_bind, Option.bind_some, stops, List.drop_left, rest, Text.utf8_read]
  rfl

theorem pieces_read (parts : List (String × Bytes)) (nameable : ∀ p ∈ parts, Nameable p.1) :
    (parts.map piece).mapM part? = some parts := by
  induction parts with
  | nil => rfl
  | cons p rest ih =>
      have further := ih fun q member => nameable q (List.mem_cons_of_mem _ member)
      rw [List.map_cons, List.mapM_cons, part_piece p.1 p.2 (nameable p List.mem_cons_self), further]
      rfl

section

variable (boundary : String)

theorem dashes_octets : dashes boundary = 0x2D :: 0x2D :: Text.utf8 boundary := by
  simp only [dashes, Text.utf8, String.toList_append, List.flatMap_append]
  rfl

theorem delimiter_octets : delimiter boundary = 0x0D :: 0x0A :: 0x2D :: 0x2D :: Text.utf8 boundary := by
  rw [delimiter, dashes_octets]
  rfl

theorem encode_pieces (parts : List (String × Bytes)) :
    lineEnd ++ encode boundary parts =
      (parts.map piece).flatMap (delimiter boundary ++ ·) ++ (delimiter boundary ++ Text.utf8 "--\r\n") := by
  have closes : closing boundary = dashes boundary ++ Text.utf8 "--\r\n" := by
    simp [closing, dashes, Text.utf8]
  induction parts with
  | nil => simp only [encode, closes, delimiter, List.flatMap_nil, List.map_nil, List.nil_append, List.append_assoc]
  | cons p rest ih =>
      have opens : opening boundary p.1 ++ p.2 = dashes boundary ++ piece p := by
        simp [opening, dashes, piece, opensName, closesName, Text.utf8]
      have ends : Text.utf8 "\r\n" = lineEnd := by decide
      simp only [encode, List.flatMap_cons, List.map_cons, List.append_assoc, ends] at ih ⊢
      rw [← List.append_assoc (opening _ _), opens, ih, delimiter]
      simp only [List.append_assoc]

theorem piece_clear (name : String) (content : Bytes) (nameable : Nameable name) (framed : Framed boundary content) :
    ¬ delimiter boundary <:+: piece (name, content) := by
  intro within
  obtain ⟨text, header, plain⟩ : ∃ text, opensName = 0x0D :: 0x0A :: 0x43 :: text ∧ 0x0D ∉ 0x0A :: 0x43 :: text :=
    ⟨opensName.drop 3, by decide, by decide⟩
  have parts : piece (name, content) = 0x0D :: ((0x0A :: 0x43 :: text ++ Text.utf8 name ++ [0x22]) ++
      (0x0D :: 0x0A :: 0x0D :: 0x0A :: content)) := by
    have closes : closesName = [0x22, 0x0D, 0x0A, 0x0D, 0x0A] := by decide
    simp [piece, header, closes]
  have octets := delimiter_octets boundary
  have before : (0x0D : UInt8) ∉ 0x0A :: 0x43 :: text ++ Text.utf8 name ++ [0x22] := by
    simp only [List.mem_append, not_or]
    exact ⟨⟨plain, nameable.line⟩, by decide⟩
  rw [parts, List.infix_cons_iff] at within
  rcases within with front | further
  · rw [octets] at front
    simp at front
  · have blank := infix_past _ _ _ _ _ octets before further
    simp only [List.infix_cons_iff] at blank
    rcases blank with front | front | front | front | inside
    · rw [octets] at front
      simp at front
    · rw [octets] at front
      simp at front
    · rw [delimiter, lineEnd] at front
      simp only [List.cons_append, List.cons_prefix_cons, true_and, List.nil_append] at front
      exact framed.first front
    · rw [octets] at front
      simp at front
    · exact framed.within inside

theorem encode_read (plain : 0x0D ∉ Text.utf8 boundary) (parts : List (String × Bytes))
    (fits : ∀ p ∈ parts, Nameable p.1 ∧ Framed boundary p.2) : read? boundary (encode boundary parts) = some parts := by
  have octets := delimiter_octets boundary
  have single : (0x0D : UInt8) ∉ 0x0A :: 0x2D :: 0x2D :: Text.utf8 boundary := by
    simp only [List.mem_cons, not_or]
    exact ⟨by decide, by decide, by decide, plain⟩
  have clear : ∀ q ∈ parts.map piece, ¬ delimiter boundary <:+: q := by
    intro q member
    obtain ⟨p, listed, rfl⟩ := List.mem_map.mp member
    exact piece_clear boundary p.1 p.2 (fits p listed).1 (fits p listed).2
  have ends : ¬ delimiter boundary <:+: Text.utf8 "--\r\n" := by
    have last : Text.utf8 "--\r\n" = [0x2D, 0x2D, 0x0D, 0x0A] := by decide
    rw [octets, last]
    simp [List.infix_cons_iff]
  have start : ¬ delimiter boundary <:+: [] := by
    rw [octets]
    simp
  have pieces := cut_joined _ _ _ [] _ (parts.map piece) octets single start clear ends
  rw [List.nil_append] at pieces
  rw [read?, encode_pieces, pieces]
  simp only [List.getLast?_concat, List.dropLast_concat, if_true]
  exact pieces_read parts fun p member => (fits p member).1

end

end HostingAdmin.Multipart
