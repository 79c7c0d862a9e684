import HostingAdmin.Proofs.JsonNumbers
import HostingAdmin.Proofs.JsonStrings
import HostingAdmin.Proofs.MemberLists
import HostingAdmin.Proofs.Utf8RoundTrip

set_option autoImplicit false

namespace HostingAdmin.Json

mutual

-- Values at a depth that a reader gives back unchanged.
def Legible (r : Rules) (depth : Nat) : Json → Prop
  | .int n => (Nat.toDigits 10 n.natAbs).length ≤ maxDigits
  | .float _ => False
  | .arr xs => r.allows depth = true ∧ LegibleItems r (depth + 1) xs
  | .obj ms => r.allows depth = true ∧ (Members.names ms).Nodup ∧ LegibleMembers r (depth + 1) ms
  | _ => True

def LegibleItems (r : Rules) (depth : Nat) : List Json → Prop
  | [] => True
  | x :: xs => Legible r depth x ∧ LegibleItems r depth xs

def LegibleMembers (r : Rules) (depth : Nat) : List (String × Json) → Prop
  | [] => True
  | (_, x) :: ms => Legible r depth x ∧ LegibleMembers r depth ms

end

def Blank (cs : List Char) : Prop := ∀ c ∈ cs, isSpace c = true

structure Layout.Regular (l : Layout) : Prop where
  spells : ∃ codes, Spells l.char codes
  comma : ∃ blanks, l.comma.toList = ',' :: blanks ∧ Blank blanks
  colon : ∃ blanks, l.colon.toList = ':' :: blanks ∧ Blank blanks

theorem skip_blank (blanks rest : List Char) (blank : Blank blanks) : skip (blanks ++ rest) = skip rest :=
  List.dropWhile_append_of_pos blank

theorem skip_visible (c : Char) (rest : List Char) (visible : isSpace c = false) : skip (c :: rest) = c :: rest := by
  simp [skip, visible]

theorem line_blank (l : Layout) (depth : Nat) : Blank (l.line depth).toList := by
  intro c member
  rw [Layout.line] at member
  cases widthEq : l.indent with
  | none => simp [widthEq] at member
  | some width =>
      simp only [widthEq, String.toList_append, String.toList_ofList, List.mem_append] at member
      rcases member with newline | space
      · simp at newline
        subst newline
        rfl
      · rw [List.eq_of_mem_replicate space]
        rfl

theorem quoted_chars (l : Layout) (s : String) :
    (l.quoted s).toList = '"' :: (s.toList.flatMap l.char ++ ['"']) := by
  simp [Layout.quoted]

theorem quoted_reads (l : Layout) (regular : l.Regular) (r : Rules) (s : String) (rest : List Char) :
    string r (s.toList.flatMap l.char ++ '"' :: rest) = .ok (s, rest) := by
  obtain ⟨codes, spells⟩ := regular.spells
  exact string_reads l.char codes spells r s rest

theorem digit_visible (c : Char) (digit : c.isDigit = true) : isSpace c = false ∧ c ≠ ']' := by
  have other : ∀ b : Char, b.isDigit = false → c ≠ b := by
    rintro b letter rfl
    rw [digit] at letter
    cases letter
  refine ⟨?_, other ']' rfl⟩
  simp [isSpace, other ' ' rfl, other '\t' rfl, other '\n' rfl, other '\r' rfl]

theorem array_chars (l : Layout) (k : Nat) (x : Json) (xs : List Json) :
    (write l k (.arr (x :: xs))).toList = '[' :: ((l.line (k + 1)).toList ++ ((write l (k + 1) x).toList ++
      ((writeItems l (k + 1) xs).toList ++ ((l.line k).toList ++ [']'])))) := by
  simp [write]

theorem object_chars (l : Layout) (k : Nat) (key : String) (x : Json) (ms : List (String × Json)) :
    (write l k (.obj ((key, x) :: ms))).toList = '\x7b' :: ((l.line (k + 1)).toList ++ ((l.quoted key).toList ++
      (l.colon.toList ++ ((write l (k + 1) x).toList ++ ((writeMembers l (k + 1) ms).toList ++
        ((l.line k).toList ++ ['\x7d'])))))) := by
  simp [write]

theorem null_chars (l : Layout) (k : Nat) : (write l k .null).toList = ['n', 'u', 'l', 'l'] := by
  rw [write]
  rfl

theorem bool_chars (l : Layout) (k : Nat) (b : Bool) :
    (write l k (.bool b)).toList = if b then ['t', 'r', 'u', 'e'] else ['f', 'a', 'l', 's', 'e'] := by
  rw [write]
  cases b <;> rfl

theorem write_front (l : Layout) (r : Rules) (k d : Nat) (j : Json) (legible : Legible r d j) :
    ∃ c more, (write l k j).toList = c :: more ∧ isSpace c = false ∧ c ≠ ']' := by
  cases j with
  | null => exact ⟨'n', ['u', 'l', 'l'], null_chars l k, rfl, by decide⟩
  | bool b =>
      rw [bool_chars]
      cases b <;> exact ⟨_, _, rfl, rfl, by decide⟩
  | int n =>
      rw [write, int_chars]
      by_cases negative : n < 0
      · rw [if_pos negative]
        exact ⟨'-', _, rfl, rfl, by decide⟩
      · rw [if_neg negative, List.nil_append]
        cases digitsEq : Nat.toDigits 10 n.natAbs with
        | nil =>
            have positive := Nat.length_toDigits_pos (b := 10) (n := n.natAbs)
            simp [digitsEq] at positive
        | cons c more =>
            obtain ⟨visible, other⟩ := digit_visible c (digits_all n.natAbs c (by simp [digitsEq]))
            exact ⟨c, more, rfl, visible, other⟩
  | float x => exact legible.elim
  | str s => exact ⟨'"', _, by rw [write]; exact quoted_chars l s, rfl, by decide⟩
  | arr xs =>
      cases xs with
      | nil => exact ⟨'[', [']'], by rw [write]; rfl, rfl, by decide⟩
      | cons x xs => exact ⟨'[', _, array_chars l k x xs, rfl, by decide⟩
  | obj ms =>
      cases ms with
      | nil => exact ⟨'\x7b', ['\x7d'], by rw [write]; rfl, rfl, by decide⟩
      | cons m ms =>
          obtain ⟨key, x⟩ := m
          exact ⟨'\x7b', _, object_chars l k key x ms, rfl, by decide⟩

theorem value_atom (r : Rules) (fuel depth : Nat) (cs : List Char) (c : Char) (more : List Char)
    (front : skip cs = c :: more) (text : c ≠ '"') (array : c ≠ '[') (object : c ≠ '\x7b') :
    value r (fuel + 1) depth cs = atom (c :: more) := by
  rw [value, front]
  split
  · rename_i same
    exact (text (List.cons.inj same).1).elim
  · rename_i same
    exact (array (List.cons.inj same).1).elim
  · rename_i same
    exact (object (List.cons.inj same).1).elim
  · rfl

theorem null_reads (rest : List Char) : atom ('n' :: 'u' :: 'l' :: 'l' :: rest) = .ok (.null, rest) := rfl

theorem true_reads (rest : List Char) : atom ('t' :: 'r' :: 'u' :: 'e' :: rest) = .ok (.bool true, rest) := rfl

theorem false_reads (rest : List Char) : atom ('f' :: 'a' :: 'l' :: 's' :: 'e' :: rest) = .ok (.bool false, rest) := rfl

theorem blank_stops (blanks rest : List Char) (blank : Blank blanks) (stops : Stops rest) : Stops (blanks ++ rest) := by
  cases blanks with
  | nil => exact stops
  | cons c more =>
      intro first others same
      obtain ⟨rfl, _⟩ := List.cons.inj same
      have space := blank c List.mem_cons_self
      simp only [isSpace, Bool.or_eq_true, decide_eq_true_eq] at space
      rcases space with ((rfl | rfl) | rfl) | rfl <;> decide

theorem closing_stops (c : Char) (rest : List Char) (other : c.isDigit = false ∧ c ≠ '.' ∧ c ≠ 'e' ∧ c ≠ 'E') :
    Stops (c :: rest) := by
  intro first more same
  obtain ⟨rfl, _⟩ := List.cons.inj same
  exact other

section

variable (l : Layout) (r : Rules)

-- What each of the three readers gives back with some fuel. Items and members
-- come with what closes their list; a blank line may stand before it.
def ReadsValue (fuel : Nat) : Prop :=
  ∀ j k d cs rest, Legible r d j → Stops rest → skip cs = (write l k j).toList ++ rest →
    2 * (write l k j).toList.length ≤ fuel → value r fuel d cs = .ok (j, rest)

def ReadsItems (fuel : Nat) : Prop :=
  ∀ x xs k d cs blanks rest acc, Legible r d x → LegibleItems r d xs → Blank blanks →
    skip cs = (write l k x).toList ++ ((writeItems l k xs).toList ++ (blanks ++ ']' :: rest)) →
    2 * ((write l k x).toList.length + (writeItems l k xs).toList.length) + 1 ≤ fuel →
    items r fuel d cs acc = .ok (acc.reverse ++ x :: xs, rest)

def ReadsMembers (fuel : Nat) : Prop :=
  ∀ key x ms k d cs blanks rest acc, Legible r d x → LegibleMembers r d ms →
    (Members.names (acc ++ (key, x) :: ms)).Nodup → Blank blanks →
    skip cs = (l.quoted key).toList ++ (l.colon.toList ++ ((write l k x).toList ++
      ((writeMembers l k ms).toList ++ (blanks ++ '\x7d' :: rest)))) →
    2 * ((write l k x).toList.length + (writeMembers l k ms).toList.length) + 1 ≤ fuel →
    members r fuel d cs acc = .ok (acc ++ (key, x) :: ms, rest)

theorem int_step (fuel : Nat) (n : Int) (k d : Nat) (cs rest : List Char) (legible : Legible r d (.int n))
    (stops : Stops rest) (front : skip cs = (write l k (.int n)).toList ++ rest) :
    value r (fuel + 1) d cs = .ok (.int n, rest) := by
  have read := atom_reads n rest stops legible
  rw [write, int_chars] at front
  rw [int_chars] at read
  by_cases negative : n < 0
  · rw [if_pos negative] at front read
    rw [value_atom r fuel d cs '-' _ front (by decide) (by decide) (by decide)]
    exact read
  · rw [if_neg negative, List.nil_append] at front read
    cases digitsEq : Nat.toDigits 10 n.natAbs with
    | nil =>
        have positive := Nat.length_toDigits_pos (b := 10) (n := n.natAbs)
        simp [digitsEq] at positive
    | cons c more =>
        rw [digitsEq, List.cons_append] at front read
        have digit := digits_all n.natAbs c (by simp [digitsEq])
        have other : ∀ b : Char, b.isDigit = false → c ≠ b := by
          rintro b letter rfl
          rw [digit] at letter
          cases letter
        rw [value_atom r fuel d cs c _ front (other _ rfl) (other _ rfl) (other _ rfl)]
        exact read

theorem array_step (fuel : Nat) (x : Json) (xs : List Json) (k d : Nat) (cs rest : List Char)
    (reads : ReadsItems l r fuel) (legible : Legible r d (.arr (x :: xs)))
    (front : skip cs = (write l k (.arr (x :: xs))).toList ++ rest)
    (enough : 2 * (write l k (.arr (x :: xs))).toList.length ≤ fuel + 1) :
    value r (fuel + 1) d cs = .ok (.arr (x :: xs), rest) := by
  obtain ⟨c, more, first, visible, inside⟩ := write_front l r (k + 1) (d + 1) x legible.2.1
  rw [array_chars] at front enough
  simp only [List.cons_append, List.append_assoc, List.nil_append] at front
  simp only [List.length_cons, List.length_append, List.length_nil] at enough
  have opened : skip ((l.line (k + 1)).toList ++ ((write l (k + 1) x).toList ++ ((writeItems l (k + 1) xs).toList ++
      ((l.line k).toList ++ ']' :: rest)))) = (write l (k + 1) x).toList ++ ((writeItems l (k + 1) xs).toList ++
      ((l.line k).toList ++ ']' :: rest)) := by
    rw [skip_blank _ _ (line_blank l (k + 1)), first, List.cons_append, skip_visible c _ visible]
  have found := reads x xs (k + 1) (d + 1) _ (l.line k).toList rest [] legible.2.1 legible.2.2 (line_blank l k)
    (show skip (skip _) = _ by rw [opened, first, List.cons_append, skip_visible c _ visible]) (by omega)
  rw [value, front]
  simp only [legible.1, if_true]
  split
  · rename_i closed
    rw [opened, first] at closed
    exact (inside (List.cons.inj closed).1).elim
  · rw [found]
    rfl

theorem object_step (fuel : Nat) (key : String) (x : Json) (ms : List (String × Json)) (k d : Nat)
    (cs rest : List Char) (reads : ReadsMembers l r fuel) (legible : Legible r d (.obj ((key, x) :: ms)))
    (front : skip cs = (write l k (.obj ((key, x) :: ms))).toList ++ rest)
    (enough : 2 * (write l k (.obj ((key, x) :: ms))).toList.length ≤ fuel + 1) :
    value r (fuel + 1) d cs = .ok (.obj ((key, x) :: ms), rest) := by
  rw [object_chars] at front enough
  simp only [List.cons_append, List.append_assoc, List.nil_append] at front
  simp only [List.length_cons, List.length_append, List.length_nil] at enough
  have opened : ∀ after, skip ((l.line (k + 1)).toList ++ ((l.quoted key).toList ++ after)) =
      (l.quoted key).toList ++ after := by
    intro after
    rw [skip_blank _ _ (line_blank l (k + 1)), quoted_chars, List.cons_append, skip_visible '"' _ rfl]
  have again : ∀ after, skip ((l.quoted key).toList ++ after) = (l.quoted key).toList ++ after := by
    intro after
    rw [quoted_chars, List.cons_append, skip_visible '"' _ rfl]
  have found := reads key x ms (k + 1) (d + 1) _ (l.line k).toList rest [] legible.2.2.1 legible.2.2.2 legible.2.1
    (line_blank l k) (show skip (skip _) = _ by rw [opened, again]) (by omega)
  rw [value, front]
  simp only [legible.1, if_true]
  split
  · rename_i closed
    rw [opened, quoted_chars] at closed
    cases (List.cons.inj closed).1
  · rw [found]
    rfl

theorem empty_array_reads (fuel d : Nat) (cs rest : List Char) (allowed : r.allows d = true)
    (front : skip cs = '[' :: ']' :: rest) : value r (fuel + 1) d cs = .ok (.arr [], rest) := by
  rw [value, front]
  simp only [allowed, if_true, skip_visible ']' rest rfl]

theorem empty_object_reads (fuel d : Nat) (cs rest : List Char) (allowed : r.allows d = true)
    (front : skip cs = '\x7b' :: '\x7d' :: rest) : value r (fuel + 1) d cs = .ok (.obj [], rest) := by
  rw [value, front]
  simp only [allowed, if_true, skip_visible '\x7d' rest rfl]

variable (regular : l.Regular)

include regular

theorem value_step (fuel : Nat) (inItems : ReadsItems l r fuel) (inMembers : ReadsMembers l r fuel) :
    ReadsValue l r (fuel + 1) := by
  intro j k d cs rest legible stops front enough
  cases j with
  | null =>
      rw [null_chars] at front
      rw [value_atom r fuel d cs 'n' _ front (by decide) (by decide) (by decide)]
      exact null_reads rest
  | bool b =>
      rw [bool_chars] at front
      cases b with
      | true =>
          rw [value_atom r fuel d cs 't' _ front (by decide) (by decide) (by decide)]
          exact true_reads rest
      | false =>
          rw [value_atom r fuel d cs 'f' _ front (by decide) (by decide) (by decide)]
          exact false_reads rest
  | int n => exact int_step l r fuel n k d cs rest legible stops front
  | float x => exact legible.elim
  | str s =>
      rw [write, quoted_chars, List.cons_append, List.append_assoc] at front
      rw [value, front]
      simp only [List.singleton_append, quoted_reads l regular r s rest]
  | arr xs =>
      cases xs with
      | nil =>
          rw [write] at front
          exact empty_array_reads r fuel d cs rest legible.1 front
      | cons x xs => exact array_step l r fuel x xs k d cs rest inItems legible front enough
  | obj ms =>
      cases ms with
      | nil =>
          rw [write] at front
          exact empty_object_reads r fuel d cs rest legible.1 front
      | cons m ms =>
          obtain ⟨key, x⟩ := m
          exact object_step l r fuel key x ms k d cs rest inMembers legible front enough

theorem items_step (fuel : Nat) (inValue : ReadsValue l r fuel) (inItems : ReadsItems l r fuel) :
    ReadsItems l r (fuel + 1) := by
  intro x xs k d cs blanks rest acc legible others blank front enough
  cases xs with
  | nil =>
      simp only [writeItems, String.toList_empty, List.nil_append] at front enough
      have stops : Stops (blanks ++ ']' :: rest) := blank_stops blanks _ blank (closing_stops ']' rest (by decide))
      rw [items, inValue x k d cs _ legible stops front (by omega)]
      simp only [skip_blank blanks _ blank, skip_visible ']' rest rfl]
      simp
  | cons y ys =>
      obtain ⟨spaces, comma, spaced⟩ := regular.comma
      have chars : (writeItems l k (y :: ys)).toList = ',' :: (spaces ++ ((l.line k).toList ++
          ((write l k y).toList ++ (writeItems l k ys).toList))) := by
        simp [writeItems, comma]
      rw [chars] at front enough
      simp only [List.cons_append, List.append_assoc] at front
      simp only [List.length_cons, List.length_append] at enough
      have stops := closing_stops ',' (spaces ++ ((l.line k).toList ++ ((write l k y).toList ++
        ((writeItems l k ys).toList ++ (blanks ++ ']' :: rest))))) (by decide)
      obtain ⟨c, more, first, visible, _⟩ := write_front l r k d y others.1
      rw [items, inValue x k d cs _ legible stops front (by omega)]
      simp only [skip_visible ',' _ rfl]
      rw [inItems y ys k d _ blanks rest (x :: acc) others.1 others.2 blank ?_ (by omega)]
      · simp
      · rw [skip_blank spaces _ spaced, skip_blank _ _ (line_blank l k), first, List.cons_append,
          skip_visible c _ visible]

theorem members_step (fuel : Nat) (inValue : ReadsValue l r fuel) (inMembers : ReadsMembers l r fuel) :
    ReadsMembers l r (fuel + 1) := by
  intro key x ms k d cs blanks rest acc legible others unique blank front enough
  obtain ⟨gap, colon, gapped⟩ := regular.colon
  have fresh : key ∉ Members.names acc := by
    simp only [Members.names, List.map_append, List.map_cons, List.nodup_append] at unique
    intro known
    exact unique.2.2 key known key List.mem_cons_self rfl
  obtain ⟨c, more, first, visible, _⟩ := write_front l r k d x legible
  have valued : ∀ after, skip (gap ++ ((write l k x).toList ++ after)) = (write l k x).toList ++ after := by
    intro after
    rw [skip_blank gap _ gapped, first, List.cons_append, skip_visible c _ visible]
  simp only [quoted_chars, colon, List.cons_append, List.append_assoc, List.nil_append] at front
  rw [members, front]
  simp only [quoted_reads l regular r key, skip_visible ':' _ rfl]
  cases ms with
  | nil =>
      simp only [writeMembers, String.toList_empty, List.nil_append] at enough ⊢
      have stops : Stops (blanks ++ '\x7d' :: rest) :=
        blank_stops blanks _ blank (closing_stops '\x7d' rest (by decide))
      rw [inValue x k d _ _ legible stops (valued _) (by omega)]
      simp only [skip_blank blanks _ blank, skip_visible '\x7d' rest rfl, Members.put_fresh key x acc fresh]
  | cons m ms =>
      obtain ⟨other, y⟩ := m
      obtain ⟨spaces, comma, spaced⟩ := regular.comma
      have chars : (writeMembers l k ((other, y) :: ms)).toList =
          ',' :: (spaces ++ ((l.line k).toList ++ ((l.quoted other).toList ++ (l.colon.toList ++
            ((write l k y).toList ++ (writeMembers l k ms).toList))))) := by
        simp [writeMembers, comma]
      rw [chars] at enough ⊢
      simp only [List.cons_append, List.append_assoc]
      simp only [List.length_cons, List.length_append] at enough
      have stops := closing_stops ',' (spaces ++ ((l.line k).toList ++ ((l.quoted other).toList ++ (l.colon.toList ++
        ((write l k y).toList ++ ((writeMembers l k ms).toList ++ (blanks ++ '\x7d' :: rest))))))) (by decide)
      rw [inValue x k d _ _ legible stops (valued _) (by omega)]
      simp only [skip_visible ',' _ rfl, Members.put_fresh key x acc fresh]
      rw [inMembers other y ms k d _ blanks rest (acc ++ [(key, x)]) others.1 others.2 (by simpa using unique) blank
        ?_ (by omega)]
      · simp
      · rw [skip_blank spaces _ spaced, skip_blank _ _ (line_blank l k), quoted_chars, List.cons_append,
          skip_visible '"' _ rfl]

theorem all_read (fuel : Nat) : ReadsValue l r fuel ∧ ReadsItems l r fuel ∧ ReadsMembers l r fuel := by
  induction fuel with
  | zero =>
      refine ⟨?_, ?_, ?_⟩
      · intro j k d cs rest legible stops front enough
        obtain ⟨c, more, first, _⟩ := write_front l r k d j legible
        rw [first, List.length_cons] at enough
        omega
      · intro x xs k d cs blanks rest acc legible others blank front enough
        omega
      · intro key x ms k d cs blanks rest acc legible others unique blank front enough
        omega
  | succ fuel ih =>
      exact ⟨value_step l r regular fuel ih.2.1 ih.2.2, items_step l r regular fuel ih.1 ih.2.1,
        members_step l r regular fuel ih.1 ih.2.2⟩

theorem read_write (j : Json) (legible : Legible r 0 j) : readChars r (write l 0 j).toList = .ok j := by
  obtain ⟨c, more, first, visible, _⟩ := write_front l r 0 0 j legible
  have front : skip (write l 0 j).toList = (write l 0 j).toList ++ [] := by
    rw [List.append_nil, first, skip_visible c more visible]
  have ends : Stops [] := by
    intro c more same
    cases same
  have read := (all_read l r regular _).1 j 0 0 _ [] legible ends front (Nat.le_add_right _ 2)
  rw [readChars, read]
  rfl

end

theorem no_blank : Blank [] := by
  intro c member
  cases member

theorem one_blank : Blank [' '] := by
  intro c member
  rw [List.mem_singleton.mp member]
  rfl

theorem spaced_regular : Layout.spaced.Regular :=
  ⟨⟨units, ascii_spells⟩, ⟨_, rfl, one_blank⟩, ⟨_, rfl, one_blank⟩⟩

theorem compact_regular : Layout.compact.Regular :=
  ⟨⟨_, unicode_spells⟩, ⟨_, rfl, no_blank⟩, ⟨_, rfl, no_blank⟩⟩

theorem indented_regular : Layout.indented.Regular :=
  ⟨⟨units, ascii_spells⟩, ⟨_, rfl, no_blank⟩, ⟨_, rfl, one_blank⟩⟩

-- The octets of the blanks and of the brackets.
def fronts : Bytes := [0x20, 0x09, 0x0A, 0x0D, 0x5B, 0x7B]

-- No mark of an encoding starts with one of these, and none of these is a zero.
theorem octets_decoded (a b : UInt8) (rest : Bytes) (front : a ∈ fronts) (second : b ≠ 0) :
    decode? (a :: b :: rest) = Text.collect (Text.pieces true (a :: b :: rest)) := by
  simp only [fronts, List.mem_cons, List.not_mem_nil, or_false] at front
  rcases front with rfl | rfl | rfl | rfl | rfl | rfl
  all_goals
    match rest with
    | [] => exact if_neg second
    | [_] => rfl
    | _ :: _ :: _ => exact if_neg second

theorem char_octet (c : Char) (ascii : c.toNat < 0x80) : String.utf8EncodeChar c = [UInt8.ofNat c.toNat] := by
  simp only [String.utf8EncodeChar]
  rw [if_pos (show c.val.toNat ≤ 0x7f from Nat.le_of_lt_succ ascii)]
  rfl

-- A plain character, and not the one that stands for nothing.
def Ascii (c : Char) : Prop := 0 < c.toNat ∧ c.toNat < 0x80

theorem ascii_octet (c : Char) (ascii : Ascii c) : (UInt8.ofNat c.toNat).toNat = c.toNat := by
  obtain ⟨_, low⟩ := ascii
  exact Text.octet _ (by omega)

-- What an array, an object or the blanks ahead of these start with.
def Leading (c : Char) : Prop := isSpace c = true ∨ c = '[' ∨ c = '\x7b'

theorem leading_cases (c : Char) (leading : Leading c) :
    c = ' ' ∨ c = '\t' ∨ c = '\n' ∨ c = '\r' ∨ c = '[' ∨ c = '\x7b' := by
  simpa [Leading, isSpace, or_assoc] using leading

theorem leading_ascii (c : Char) (leading : Leading c) : Ascii c := by
  rcases leading_cases c leading with rfl | rfl | rfl | rfl | rfl | rfl <;> exact ⟨by decide, by decide⟩

theorem leading_octet (c : Char) (leading : Leading c) : UInt8.ofNat c.toNat ∈ fronts := by
  rcases leading_cases c leading with rfl | rfl | rfl | rfl | rfl | rfl <;> decide

theorem text_decoded (s : String) (c d : Char) (rest : List Char) (front : s.toList = c :: d :: rest)
    (leading : Leading c) (second : Ascii d) : decode? (Text.utf8 s) = some s.toList := by
  have bytes : Text.utf8 s =
      UInt8.ofNat c.toNat :: UInt8.ofNat d.toNat :: rest.flatMap String.utf8EncodeChar := by
    rw [Text.utf8, front]
    simp only [List.flatMap_cons, char_octet c (leading_ascii c leading).2, char_octet d second.2,
      List.singleton_append]
  have filled : UInt8.ofNat d.toNat ≠ 0 := by
    intro same
    have atD := ascii_octet d second
    rw [same] at atD
    exact absurd second.1 (by rw [← atD]; decide)
  have plain : decode? (Text.utf8 s) = Text.collect (Text.pieces true (Text.utf8 s)) := by
    rw [bytes]
    exact octets_decoded _ _ _ (leading_octet c leading) filled
  rw [plain, Text.pieces_utf8, Text.collect]
  simp

theorem bytes_read (l : Layout) (regular : l.Regular) (j : Json) (legible : Legible .free 0 j) (c d : Char)
    (rest : List Char) (front : (write l 0 j).toList = c :: d :: rest) (opens : c = '[' ∨ c = '\x7b')
    (second : 0 < d.toNat ∧ d.toNat < 0x80) : ofBytes (Text.utf8 (write l 0 j)) = .ok j := by
  rw [ofBytes, text_decoded _ c d rest front (.inr opens) second]
  exact read_write l .free regular j legible

theorem strict_read (l : Layout) (regular : l.Regular) (j : Json) (legible : Legible .strict 0 j) :
    ofBytesStrict? (Text.utf8 (write l 0 j)) = some j := by
  rw [ofBytesStrict?, Text.utf8_read, Option.bind_some, read_write l .strict regular j legible]
  rfl

end HostingAdmin.Json
