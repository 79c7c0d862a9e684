import Mathlib.Data.List.Infix
import HostingAdmin.Mask

/-!
How masking goes through a text. A match that begins in one piece of a text is decided there, but for
how far its value runs into the next piece; and what masking leaves has nothing in it that was not there
before, apart from the mark.
-/

set_option autoImplicit false

namespace HostingAdmin.Mask

-- A cursor is moved on by some characters.
def Reaches (first last : Cursor) : Prop := ∃ front, first.2 = front ++ last.2 ∧ last.1 = first.1 + front.length

theorem reaches_stay (cursor : Cursor) : Reaches cursor cursor := ⟨[], rfl, rfl⟩

theorem reaches_chain (first next last : Cursor) (here : Reaches first next) (there : Reaches next last) :
    Reaches first last := by
  obtain ⟨front, text, count⟩ := here
  obtain ⟨more, further, total⟩ := there
  refine ⟨front ++ more, ?_, ?_⟩
  · rw [text, further, List.append_assoc]
  · rw [total, count, List.length_append, Nat.add_assoc]

theorem word_reaches (w : List Char) (first last : Cursor) (spelled : word? w first = some last) :
    Reaches first last := by
  induction w generalizing first with
  | nil =>
      cases spelled
      exact reaches_stay _
  | cons l ws ih =>
      obtain ⟨n, cs⟩ := first
      cases cs with
      | nil => cases spelled
      | cons c cs =>
          rw [word?] at spelled
          split at spelled
          · exact reaches_chain _ (n + 1, cs) _ ⟨[c], rfl, rfl⟩ (ih (n + 1, cs) spelled)
          · cases spelled

theorem one_reaches (p : Char → Bool) (cursor : Cursor) : Reaches cursor (passOne p cursor) := by
  obtain ⟨n, cs⟩ := cursor
  cases cs with
  | nil => exact reaches_stay (n, [])
  | cons c cs =>
      rw [passOne]
      split
      · exact ⟨[c], rfl, rfl⟩
      · exact reaches_stay (n, c :: cs)

theorem blanks_reaches (cursor : Cursor) : Reaches cursor (passBlanks cursor) := by
  refine ⟨cursor.2.takeWhile Text.isBlank, ?_, rfl⟩
  have front := List.prefix_iff_eq_take.mp (List.takeWhile_prefix Text.isBlank (l := cursor.2))
  have split := List.take_append_drop (cursor.2.takeWhile Text.isBlank).length cursor.2
  rw [← front] at split
  exact split.symm

theorem assignment_cases (first last : Cursor) (assigned : assignment? first = some last) :
    Reaches first last ∧ ∃ c ∈ first.2, c = ':' ∨ c = '=' := by
  have opened := reaches_chain _ _ _ (one_reaches isQuote first) (blanks_reaches (passOne isQuote first))
  unfold assignment? at assigned
  split at assigned
  · rename_i n c rest found
    rw [found] at opened
    split at assigned
    · rename_i sign
      cases assigned
      refine ⟨?_, c, ?_, sign⟩
      · refine reaches_chain _ _ _ opened (reaches_chain _ (n + 1, rest) _ ⟨[c], rfl, rfl⟩ ?_)
        exact reaches_chain _ _ _ (blanks_reaches _) (one_reaches isQuote _)
      · obtain ⟨front, text, _⟩ := opened
        rw [text]
        exact List.mem_append_right _ List.mem_cons_self
    · cases assigned
  · cases assigned

theorem pass_cases (i : Introducer) (first last : Cursor) (passed : i.pass? first = some last) :
    ∃ next, Reaches first next ∧ (assignment? next = some last ∨
      (next.2.head?.map Text.isBlank).getD false = true ∧ last = passBlanks next) := by
  cases i with
  | token =>
      obtain ⟨next, spelled, assigned⟩ := Option.bind_eq_some_iff.mp passed
      exact ⟨next, word_reaches _ first next spelled, .inl assigned⟩
  | password =>
      obtain ⟨next, spelled, assigned⟩ := Option.bind_eq_some_iff.mp passed
      exact ⟨next, word_reaches _ first next spelled, .inl assigned⟩
  | apiKey =>
      obtain ⟨next, spelled, assigned⟩ := Option.bind_eq_some_iff.mp passed
      obtain ⟨middle, api, key⟩ := Option.bind_eq_some_iff.mp spelled
      refine ⟨next, reaches_chain _ _ _ (word_reaches _ first middle api) ?_, .inl assigned⟩
      exact reaches_chain _ _ _ (one_reaches isJoint middle) (word_reaches _ _ next key)
  | bearer =>
      obtain ⟨next, spelled, blank⟩ := Option.bind_eq_some_iff.mp passed
      split at blank
      · rename_i parted
        cases blank
        exact ⟨next, word_reaches _ first next spelled, .inr ⟨parted, rfl⟩⟩
      · cases blank

theorem pass_reaches (i : Introducer) (first last : Cursor) (passed : i.pass? first = some last) :
    Reaches first last := by
  obtain ⟨next, reached, assigned | ⟨_, rfl⟩⟩ := pass_cases i first last passed
  · exact reaches_chain _ _ _ reached (assignment_cases next last assigned).1
  · exact reaches_chain _ _ _ reached (blanks_reaches next)

-- A cursor with more text behind its own.
def ahead (t : List Char) (cursor : Cursor) : Cursor := (cursor.1, cursor.2 ++ t)

-- Characters that belong to values of all kinds, and to no introducer but as letters of its
-- words.
def isPlain (c : Char) : Bool :=
  !Text.isBlank c && !isQuote c && !isJoint c && c != ':' && c != '=' && c != ',' && c != '\x7d'

theorem plain_parts (c : Char) (plain : isPlain c = true) : Text.isBlank c = false ∧ isQuote c = false ∧
    isJoint c = false ∧ c ≠ ':' ∧ c ≠ '=' ∧ c ≠ ',' ∧ c ≠ '\x7d' := by
  simpa [isPlain, and_assoc] using plain

theorem plain_taken (i : Introducer) (c : Char) (plain : isPlain c = true) : i.takes c = true := by
  obtain ⟨blank, quote, _, _, _, comma, brace⟩ := plain_parts c plain
  cases i <;> simp [Introducer.takes, blank, quote, comma, brace]

theorem pass_rough (i : Introducer) (first last : Cursor) (passed : i.pass? first = some last) :
    ∃ c ∈ first.2, isPlain c = false := by
  obtain ⟨next, ⟨front, text, _⟩, assigned | ⟨parted, _⟩⟩ := pass_cases i first last passed
  · obtain ⟨_, c, member, sign⟩ := assignment_cases next last assigned
    refine ⟨c, text ▸ List.mem_append_right _ member, ?_⟩
    rcases sign with rfl | rfl <;> decide
  · obtain ⟨n, cs⟩ := next
    cases cs with
    | nil => cases parted
    | cons c cs =>
        have blank : Text.isBlank c = true := parted
        refine ⟨c, text ▸ List.mem_append_right _ List.mem_cons_self, ?_⟩
        simp [isPlain, blank]

-- What can be left of the words of an introducer where a text ends in the middle of them.
def Introducer.remainders : Introducer → List (List Char)
  | .token => "oken".toList.tails
  | .password => "assword".toList.tails
  | .apiKey => "pi".toList.tails ++ "key".toList.tails
  | .bearer => "earer".toList.tails

-- A text that no introducer can reach into from a text before it.
structure Apart (i : Introducer) (t : List Char) : Prop where
  plain : ∃ c rest, t = c :: rest ∧ isPlain c = true
  unspelled : ∀ u ∈ i.remainders, u ≠ [] → ∀ n, word? u (n, t) = none

section

variable {t : List Char}

theorem word_ahead (w : List Char) (unspelled : ∀ u, u <:+ w → u ≠ [] → ∀ n, word? u (n, t) = none)
    (cursor : Cursor) : word? w (ahead t cursor) = (word? w cursor).map (ahead t) := by
  induction w generalizing cursor with
  | nil => rfl
  | cons l ws ih =>
      obtain ⟨n, cs⟩ := cursor
      cases cs with
      | nil => exact unspelled (l :: ws) List.suffix_rfl (List.cons_ne_nil l ws) n
      | cons c cs =>
          have further := ih (fun u ends => unspelled u (ends.trans (List.suffix_cons l ws))) (n + 1, cs)
          rw [ahead, List.cons_append, word?, word?]
          split
          · exact further
          · rfl

theorem first_ahead (l : Char) (ws : List Char) (unspelled : ∀ u, u <:+ ws → u ≠ [] → ∀ n, word? u (n, t) = none)
    (n : Nat) (c : Char) (cs : List Char) :
    word? (l :: ws) (ahead t (n, c :: cs)) = (word? (l :: ws) (n, c :: cs)).map (ahead t) := by
  rw [ahead, List.cons_append, word?, word?]
  split
  · exact word_ahead ws unspelled (n + 1, cs)
  · rfl

variable (plain : ∃ c rest, t = c :: rest ∧ isPlain c = true)

include plain

theorem one_ahead (p : Char → Bool) (never : ∀ c, isPlain c = true → p c = false) (cursor : Cursor) :
    passOne p (ahead t cursor) = ahead t (passOne p cursor) := by
  obtain ⟨c, rest, rfl, first⟩ := plain
  obtain ⟨n, cs⟩ := cursor
  cases cs with
  | nil => simp [ahead, passOne, never c first]
  | cons d cs =>
      rw [ahead, List.cons_append, passOne, passOne]
      split <;> rfl

theorem blanks_ahead (cursor : Cursor) : passBlanks (ahead t cursor) = ahead t (passBlanks cursor) := by
  obtain ⟨c, rest, rfl, first⟩ := plain
  obtain ⟨blank, _⟩ := plain_parts c first
  obtain ⟨n, cs⟩ := cursor
  have same : (cs ++ c :: rest).takeWhile Text.isBlank = cs.takeWhile Text.isBlank := by
    rw [List.takeWhile_append, List.takeWhile_cons_of_neg (by simp [blank]), List.append_nil]
    split
    · rename_i whole
      exact ((List.takeWhile_prefix Text.isBlank).eq_of_length whole).symm
    · rfl
  have within := (List.takeWhile_prefix Text.isBlank (l := cs)).length_le
  simp only [passBlanks, ahead, same, List.drop_append_of_le_length within]

theorem quote_ahead (cursor : Cursor) : passOne isQuote (ahead t cursor) = ahead t (passOne isQuote cursor) :=
  one_ahead plain isQuote (fun c first => (plain_parts c first).2.1) cursor

theorem assignment_ahead (cursor : Cursor) : assignment? (ahead t cursor) = (assignment? cursor).map (ahead t) := by
  rw [assignment?, assignment?, quote_ahead plain, blanks_ahead plain]
  rcases passBlanks (passOne isQuote cursor) with ⟨n, cs⟩
  cases cs with
  | nil =>
      obtain ⟨c, rest, rfl, first⟩ := plain
      obtain ⟨_, _, _, colon, equal, _⟩ := plain_parts c first
      simp [ahead, colon, equal]
  | cons c cs =>
      have behind : passOne isQuote (passBlanks (n + 1, cs ++ t)) =
          ahead t (passOne isQuote (passBlanks (n + 1, cs))) := by
        rw [← quote_ahead plain, ← blanks_ahead plain]
        rfl
      simp only [ahead, List.cons_append]
      split
      · rw [behind]
        rfl
      · rfl

end

section

variable (i : Introducer) (t : List Char) (apart : Apart i t)

include apart

-- Whether an introducer begins in a text does not depend on the text behind.
theorem pass_ahead (n : Nat) (c : Char) (cs : List Char) :
    i.pass? (ahead t (n, c :: cs)) = (i.pass? (n, c :: cs)).map (ahead t) := by
  obtain ⟨plain, unspelled⟩ := apart
  have ends : ∀ w, (∀ u ∈ w.tails, u ∈ i.remainders) → ∀ u, u <:+ w → u ≠ [] → ∀ n, word? u (n, t) = none :=
    fun w listed u tail => unspelled u (listed u ((List.mem_tails u w).mpr tail))
  have assigns : ∀ found : Option Cursor,
      (found.map (ahead t)).bind assignment? = (found.bind assignment?).map (ahead t) := by
    intro found
    cases found with
    | none => rfl
    | some cursor => exact assignment_ahead plain cursor
  cases i with
  | token =>
      have spelled := first_ahead 't' "oken".toList (ends _ fun u tail => tail) n c cs
      simp only [Introducer.pass?]
      exact (congrArg (·.bind assignment?) spelled).trans (assigns _)
  | password =>
      have spelled := first_ahead 'p' "assword".toList (ends _ fun u tail => tail) n c cs
      simp only [Introducer.pass?]
      exact (congrArg (·.bind assignment?) spelled).trans (assigns _)
  | apiKey =>
      have api := first_ahead 'a' "pi".toList (ends _ fun u tail => List.mem_append_left _ tail) n c cs
      have key := word_ahead "key".toList (ends _ fun u tail => List.mem_append_right _ tail)
      have joint := one_ahead plain isJoint fun c first => (plain_parts c first).2.2.1
      have spelled : ∀ found : Option Cursor,
          ((found.map (ahead t)).bind fun next => word? "key".toList (passOne isJoint next)) =
            (found.bind fun next => word? "key".toList (passOne isJoint next)).map (ahead t) := by
        intro found
        cases found with
        | none => rfl
        | some cursor =>
            show word? "key".toList (passOne isJoint (ahead t cursor)) = _
            rw [joint, key]
            rfl
      simp only [Introducer.pass?]
      rw [← assigns, ← spelled]
      exact congrArg (fun found : Option Cursor =>
        (found.bind fun next => word? "key".toList (passOne isJoint next)).bind assignment?) api
  | bearer =>
      have spelled : word? "bearer".toList (ahead t (n, c :: cs)) = (word? "bearer".toList (n, c :: cs)).map (ahead t) :=
        first_ahead 'b' "earer".toList (ends _ fun u tail => tail) n c cs
      have blank : ∀ next : Cursor,
          ((ahead t next).2.head?.map Text.isBlank).getD false = (next.2.head?.map Text.isBlank).getD false := by
        rintro ⟨m, ds⟩
        cases ds with
        | nil =>
            obtain ⟨d, rest, rfl, first⟩ := plain
            exact (plain_parts d first).1
        | cons d ds => rfl
      simp only [Introducer.pass?]
      rw [spelled]
      cases word? "bearer".toList (n, c :: cs) with
      | none => rfl
      | some next =>
          simp only [Option.map_some, Option.bind_some, blank, blanks_ahead plain]
          split <;> rfl

theorem match_ahead (c : Char) (cs : List Char) :
    i.match? (c :: cs ++ t) = (i.pass? (0, c :: cs)).bind fun (intro, rest) =>
      let size := ((rest ++ t).takeWhile i.takes).length
      if size = 0 then none else some (intro, size) := by
  have passed := pass_ahead i t apart 0 c cs
  rw [ahead] at passed
  rw [Introducer.match?, passed]
  cases i.pass? (0, c :: cs) <;> rfl

end

theorem skip_all (i : Introducer) (front rest : List Char) (n : Nat) :
    i.maskFrom (front.length + n) (front ++ rest) = i.maskFrom n rest := by
  induction front with
  | nil => rw [List.length_nil, Nat.zero_add, List.nil_append]
  | cons c front ih =>
      rw [List.length_cons, Nat.add_right_comm, List.cons_append, Introducer.maskFrom]
      exact ih

theorem skip_whole (i : Introducer) (cs : List Char) : i.maskFrom cs.length cs = [] := by
  have skipped := skip_all i cs [] 0
  rwa [Nat.add_zero, List.append_nil] at skipped

-- How a match can begin at the start of a text, whatever stands behind the text.
inductive Begins (i : Introducer) (c : Char) (rest : List Char) : Prop where
  | nowhere (never : ∀ t, Apart i t → i.match? (c :: rest ++ t) = none)
  | inside (front value : List Char) (size : Nat) (text : c :: rest = front ++ value) (positive : 0 < size)
      (short : size ≤ value.length) (met : ∀ t, Apart i t → i.match? (c :: rest ++ t) = .some (front.length, size))
  | onward (front value : List Char) (text : c :: rest = front ++ value)
      (met : ∀ t, Apart i t →
        i.match? (c :: rest ++ t) = .some (front.length, value.length + (t.takeWhile i.takes).length))

theorem match_begins (i : Introducer) (c : Char) (rest : List Char) : Begins i c rest := by
  cases passed : i.pass? (0, c :: rest) with
  | none => exact .nowhere fun t apart => by rw [match_ahead i t apart, passed]; rfl
  | some reached =>
      obtain ⟨intro, value⟩ := reached
      obtain ⟨front, text, count⟩ := pass_reaches i _ _ passed
      simp only [Nat.zero_add] at text count
      subst count
      by_cases whole : (value.takeWhile i.takes).length = value.length
      · refine .onward front value text fun t apart => ?_
        have more : (t.takeWhile i.takes).length ≠ 0 := by
          obtain ⟨d, others, rfl, first⟩ := apart.plain
          simp [plain_taken i d first]
        rw [match_ahead i t apart, passed]
        simp only [Option.bind_some, List.takeWhile_append, if_pos whole, List.length_append]
        rw [if_neg (by omega)]
      · have shorter := (List.takeWhile_prefix i.takes (l := value)).length_le
        by_cases empty : (value.takeWhile i.takes).length = 0
        · refine .nowhere fun t apart => ?_
          rw [match_ahead i t apart, passed]
          simp only [Option.bind_some, List.takeWhile_append, if_neg whole]
          rw [if_pos empty]
        · refine .inside front value _ text (Nat.pos_of_ne_zero empty) shorter fun t apart => ?_
          rw [match_ahead i t apart, passed]
          simp only [Option.bind_some, List.takeWhile_append, if_neg whole]
          rw [if_neg empty]

theorem mask_unmatched (i : Introducer) (c : Char) (rest : List Char) (missed : i.match? (c :: rest) = none) :
    i.maskFrom 0 (c :: rest) = c :: i.maskFrom 0 rest := by
  rw [Introducer.maskFrom, missed]

theorem mask_matched (i : Introducer) (c : Char) (rest front value : List Char) (size : Nat)
    (text : c :: rest = front ++ value) (met : i.match? (c :: rest) = some (front.length, size)) :
    i.maskFrom 0 (c :: rest) = front ++ mark ++ i.maskFrom (front.length + size - 1) rest := by
  rw [Introducer.maskFrom, met]
  simp only [text, List.take_left]

-- What masking makes of a text, whatever stands behind it, but for one thing: whether the text
-- ends in a value, which then goes on behind it.
inductive Leads (i : Introducer) (n : Nat) (b out : List Char) : Prop where
  | stops (same : ∀ t, Apart i t → i.maskFrom n (b ++ t) = out ++ i.maskFrom 0 t)
  | goes (same : ∀ t, Apart i t →
      i.maskFrom n (b ++ t) = out ++ (mark ++ i.maskFrom (t.takeWhile i.takes).length t))

theorem leads_after (i : Introducer) (n m : Nat) (b rest before out : List Char)
    (onward : ∀ t, Apart i t → i.maskFrom n (b ++ t) = before ++ i.maskFrom m (rest ++ t))
    (leads : Leads i m rest out) : Leads i n b (before ++ out) := by
  cases leads with
  | stops same => exact .stops fun t apart => by rw [onward t apart, same t apart, List.append_assoc]
  | goes same => exact .goes fun t apart => by rw [onward t apart, same t apart, List.append_assoc]

theorem mask_leads (i : Introducer) (n : Nat) (b : List Char) (within : n ≤ b.length) : ∃ out, Leads i n b out := by
  induction b generalizing n with
  | nil =>
      rw [List.length_nil, Nat.le_zero] at within
      subst within
      exact ⟨[], .stops fun t _ => rfl⟩
  | cons c rest ih =>
      cases n with
      | succ n =>
          obtain ⟨out, leads⟩ := ih n (Nat.le_of_succ_le_succ within)
          exact ⟨out, leads_after i (n + 1) n (c :: rest) rest [] out (fun t _ => rfl) leads⟩
      | zero =>
          cases match_begins i c rest with
          | nowhere never =>
              obtain ⟨out, leads⟩ := ih 0 (Nat.zero_le _)
              exact ⟨[c] ++ out, leads_after i 0 0 (c :: rest) rest [c] out
                (fun t apart => mask_unmatched i c (rest ++ t) (never t apart)) leads⟩
          | inside front value size text positive short met =>
              have length := congrArg List.length text
              rw [List.length_cons, List.length_append] at length
              obtain ⟨out, leads⟩ := ih (front.length + size - 1) (by omega)
              refine ⟨front ++ mark ++ out, leads_after i 0 _ (c :: rest) rest (front ++ mark) out ?_ leads⟩
              intro t apart
              refine mask_matched i c (rest ++ t) front (value ++ t) size ?_ (met t apart)
              rw [← List.append_assoc, ← text, List.cons_append]
          | onward front value text met =>
              refine ⟨front, .goes fun t apart => ?_⟩
              have length := congrArg List.length text
              rw [List.length_cons, List.length_append] at length
              obtain ⟨d, more, first, plain⟩ := apart.plain
              have taken : (t.takeWhile i.takes).length ≠ 0 := by simp [first, plain_taken i d plain]
              have matched := mask_matched i c (rest ++ t) front (value ++ t) _
                (by rw [← List.append_assoc, ← text, List.cons_append]) (met t apart)
              have skip : front.length + (value.length + (t.takeWhile i.takes).length) - 1 =
                  rest.length + (t.takeWhile i.takes).length := by omega
              rw [skip, skip_all, List.append_assoc] at matched
              exact matched

theorem mask_plain (i : Introducer) (cs : List Char) (plain : ∀ c ∈ cs, isPlain c = true) : i.maskFrom 0 cs = cs := by
  induction cs with
  | nil => rfl
  | cons c rest ih =>
      have missed : i.match? (c :: rest) = none := by
        cases passed : i.pass? (0, c :: rest) with
        | none => rw [Introducer.match?, passed]; rfl
        | some last =>
            obtain ⟨d, member, rough⟩ := pass_rough i _ _ passed
            rw [plain d member] at rough
            cases rough
      rw [mask_unmatched i c rest missed, ih fun d member => plain d (List.mem_cons_of_mem c member)]

theorem infix_parted (s front rest : List Char) (c : Char) (clear : c ∉ s) (within : s <:+: front ++ c :: rest) :
    s <:+: front ∨ s <:+: rest := by
  rcases List.infix_append_iff.mp within with inFront | behind | ⟨before, after, rfl, ends, starts⟩
  · exact .inl inFront
  · rcases List.infix_cons_iff.mp behind with starts | inRest
    · cases s with
      | nil => exact .inl (List.nil_infix)
      | cons d s =>
          rw [List.cons_prefix_cons] at starts
          exact (clear (starts.1 ▸ List.mem_cons_self)).elim
    · exact .inr inRest
  · cases after with
    | nil => exact .inl (by rw [List.append_nil]; exact ends.isInfix)
    | cons d after =>
        rw [List.cons_prefix_cons] at starts
        exact (clear (starts.1 ▸ List.mem_append_right _ List.mem_cons_self)).elim

theorem infix_marked (s front rest : List Char) (clear : '*' ∉ s) (within : s <:+: front ++ mark ++ rest) :
    s <:+: front ∨ s <:+: mark ∨ s <:+: rest := by
  have opened : front ++ mark ++ rest = front ++ '*' :: ("**MASKED**".toList ++ '*' :: rest) := by
    rw [List.append_assoc]
    rfl
  rw [opened] at within
  rcases infix_parted s front _ '*' clear within with before | after
  · exact .inl before
  · rcases infix_parted s "**MASKED**".toList rest '*' clear after with inside | behind
    · exact .inr (.inl (inside.trans ⟨['*'], ['*'], rfl⟩))
    · exact .inr (.inr behind)

theorem prefix_marked (p front rest : List Char) (clear : '*' ∉ p) (starts : p <+: front ++ mark ++ rest) :
    p <+: front := by
  by_cases short : p.length ≤ front.length
  · rw [List.append_assoc] at starts
    exact List.prefix_of_prefix_length_le starts (List.prefix_append _ _) short
  · have star : front ++ ['*'] <+: front ++ mark ++ rest := by
      rw [List.append_assoc, List.prefix_append_right_inj]
      exact ⟨"**MASKED***".toList ++ rest, rfl⟩
    have longer : front ++ ['*'] <+: p :=
      List.prefix_of_prefix_length_le star starts (by rw [List.length_append, List.length_singleton]; omega)
    exact (clear (longer.subset (List.mem_append_right _ (List.mem_singleton.mpr rfl)))).elim

section

variable (i : Introducer) (s : List Char) (clear : '*' ∉ s)

include clear

-- What a masked text starts with up to the first mark, the text started with.
theorem mask_starts (cs : List Char) (starts : s <+: i.maskFrom 0 cs) : s <+: cs := by
  induction cs generalizing s with
  | nil => exact starts
  | cons c rest ih =>
      rw [Introducer.maskFrom] at starts
      split at starts
      · exact (prefix_marked s _ _ clear starts).trans (List.take_prefix _ _)
      · cases s with
        | nil => exact List.nil_prefix
        | cons d s =>
            rw [List.cons_prefix_cons] at starts ⊢
            exact ⟨starts.1, ih s (fun member => clear (List.mem_cons_of_mem d member)) starts.2⟩

theorem mask_within (other : ¬ s <:+: mark) (n : Nat) (cs : List Char) (found : s <:+: i.maskFrom n cs) :
    s <:+: cs := by
  induction cs generalizing n with
  | nil => cases n <;> exact found
  | cons c rest ih =>
      cases n with
      | succ n => exact List.infix_cons (ih n found)
      | zero =>
          cases matched : i.match? (c :: rest) with
          | none =>
              have starts := mask_starts i s clear (c :: rest)
              rw [mask_unmatched i c rest matched] at found starts
              rcases List.infix_cons_iff.mp found with front | later
              · exact (starts front).isInfix
              · exact List.infix_cons (ih 0 later)
          | some spot =>
              obtain ⟨intro, size⟩ := spot
              rw [Introducer.maskFrom, matched] at found
              rcases infix_marked s _ _ clear found with front | inMark | later
              · exact front.trans (List.take_prefix _ _).isInfix
              · exact (other inMark).elim
              · exact List.infix_cons (ih _ later)

theorem masked_within (other : ¬ s <:+: mark) (cs : List Char) (found : s <:+: maskChars cs) : s <:+: cs := by
  have general : ∀ (is : List Introducer) (cs : List Char),
      s <:+: is.foldl (fun cs i => i.maskFrom 0 cs) cs → s <:+: cs := by
    intro is
    induction is with
    | nil => exact fun cs found => found
    | cons i is ih => exact fun cs found => mask_within i s clear other 0 cs (ih _ found)
  exact general Introducer.all cs found

end

end HostingAdmin.Mask
