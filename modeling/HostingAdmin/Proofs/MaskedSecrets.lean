import Mathlib.Data.List.TakeWhile
import HostingAdmin.Proofs.MaskScan

set_option autoImplicit false

namespace HostingAdmin.Mask

-- The plainest text that introduces a value.
def Introducer.phrase : Introducer → String
  | .token => "token="
  | .password => "password="
  | .apiKey => "api_key="
  | .bearer => "Bearer "

theorem alphanumeric_plain (c : Char) (alphanumeric : c.isAlphanum = true) : isPlain c = true := by
  have small : c.toNat < 128 := by
    have ranges : (decide (c.val ≥ 65 ∧ c.val ≤ 90) || (c.val ≥ 97 && c.val ≤ 122) ||
      (c.val ≥ 48 && c.val ≤ 57)) = true := alphanumeric
    simp only [Bool.or_eq_true, Bool.and_eq_true, decide_eq_true_eq, UInt32.le_iff_toNat_le] at ranges
    simp only [Char.toNat]
    rcases ranges with (⟨_, upper⟩ | ⟨_, lower⟩) | ⟨_, digit⟩
    · exact Nat.lt_of_le_of_lt upper (by decide)
    · exact Nat.lt_of_le_of_lt lower (by decide)
    · exact Nat.lt_of_le_of_lt digit (by decide)
  have each : ∀ n < 128, (Char.ofNat n).isAlphanum = true → isPlain (Char.ofNat n) = true := by decide
  have same := each c.toNat small
  rw [Char.ofNat_toNat] at same
  exact same alphanumeric

theorem word_differs (u k y : List Char) (n : Nat) (shorter : ¬ u <+: k.map fold) (longer : ¬ k.map fold <+: u) :
    word? u (n, k ++ y) = none := by
  induction u generalizing k n with
  | nil => exact (shorter List.nil_prefix).elim
  | cons l u ih =>
      cases k with
      | nil => exact (longer List.nil_prefix).elim
      | cons c k =>
          rw [List.map_cons, List.cons_prefix_cons] at shorter longer
          rw [List.cons_append, word?]
          split
          · rename_i same
            exact ih k (n + 1) (fun starts => shorter ⟨same.symm, starts⟩) fun starts => longer ⟨same, starts⟩
          · rfl

theorem known_apart (i : Introducer) (k y : List Char) (plain : ∃ c rest, k = c :: rest ∧ isPlain c = true)
    (differs : ∀ u ∈ i.remainders, u ≠ [] → ¬ u <+: k.map fold ∧ ¬ k.map fold <+: u) : Apart i (k ++ y) where
  plain := by
    obtain ⟨c, rest, rfl, first⟩ := plain
    exact ⟨c, rest ++ y, rfl, first⟩
  unspelled u left given n := word_differs u k y n (differs u left given).1 (differs u left given).2

theorem phrase_apart (i j : Introducer) (y : List Char) : Apart i (j.phrase.toList ++ y) := by
  refine known_apart i _ y ?_ ?_
  · cases j <;> exact ⟨_, _, rfl, by decide⟩
  · cases i <;> cases j <;> decide

theorem mark_apart (i : Introducer) (y : List Char) : Apart i (mark ++ y) := by
  refine known_apart i _ y ⟨_, _, rfl, by decide⟩ ?_
  cases i <;> decide

theorem phrase_skipped (i j : Introducer) (other : i ≠ j) (y : List Char) :
    i.maskFrom 0 (j.phrase.toList ++ y) = j.phrase.toList ++ i.maskFrom 0 y := by
  cases i <;> cases j <;> first | rfl | exact (other rfl).elim

theorem phrase_alone (i : Introducer) : i.maskFrom 0 i.phrase.toList = i.phrase.toList := by
  cases i <;> decide

theorem mark_skipped (i : Introducer) (y : List Char) : i.maskFrom 0 (mark ++ y) = mark ++ i.maskFrom 0 y := by
  cases i <;> rfl

theorem blank_skipped (i : Introducer) (y : List Char) : i.maskFrom 0 (' ' :: y) = ' ' :: i.maskFrom 0 y := by
  cases i <;> rfl

section

variable (y : List Char) (given : y ≠ []) (plain : ∀ c ∈ y, isPlain c = true)

include given plain

theorem phrase_passed (i : Introducer) :
    i.pass? (0, i.phrase.toList ++ y) = some (i.phrase.toList.length, y) := by
  cases y with
  | nil => exact (given rfl).elim
  | cons d ys =>
      obtain ⟨blank, quote, _⟩ := plain_parts d (plain d List.mem_cons_self)
      have still : ∀ n, passBlanks (n, d :: ys) = (n, d :: ys) := by
        intro n
        simp [passBlanks, blank]
      have bare : ∀ n, passOne isQuote (n, d :: ys) = (n, d :: ys) := by
        intro n
        simp [passOne, quote]
      have assigned : ∀ n, assignment? (n, '=' :: d :: ys) = some (n + 1, d :: ys) := by
        intro n
        have sign : passBlanks (passOne isQuote (n, '=' :: d :: ys)) = (n, '=' :: d :: ys) := rfl
        rw [assignment?, sign]
        simp only [still, bare, or_true, if_true]
      have parted : ∀ n, passBlanks (n, ' ' :: d :: ys) = (n + 1, d :: ys) := by
        intro n
        simp [passBlanks, blank, show Text.isBlank ' ' = true by decide]
      cases i with
      | token => exact assigned 5
      | password => exact assigned 8
      | apiKey => exact assigned 7
      | bearer => exact congrArg some (parted 6)

theorem phrase_masked (i : Introducer) : i.maskFrom 0 (i.phrase.toList ++ y) = i.phrase.toList ++ mark := by
  have whole : y.takeWhile i.takes = y :=
    List.takeWhile_eq_self_iff.mpr fun c member => plain_taken i c (plain c member)
  have positive := List.length_pos_iff.mpr given
  have met : i.match? (i.phrase.toList ++ y) = some (i.phrase.toList.length, y.length) := by
    rw [Introducer.match?, phrase_passed y given plain i]
    simp only [Option.bind_some, whole]
    rw [if_neg (by omega)]
  obtain ⟨c, rest, text⟩ : ∃ c rest, i.phrase.toList ++ y = c :: rest := by
    cases i <;> exact ⟨_, _, rfl⟩
  have length := congrArg List.length text
  rw [List.length_append, List.length_cons] at length
  rw [text] at met ⊢
  rw [mask_matched i c rest _ y _ text.symm met,
    show i.phrase.toList.length + y.length - 1 = rest.length by omega, skip_whole, List.append_nil]

end

-- Values run on over an introducer that assigns, and over the word of a bearer up to its blank.
theorem phrase_taken (i j : Introducer) (assigns : j ≠ .bearer) (y : List Char) (plain : ∀ c ∈ y, isPlain c = true) :
    (j.phrase.toList ++ y).takeWhile i.takes = j.phrase.toList ++ y := by
  refine List.takeWhile_eq_self_iff.mpr fun c member => ?_
  rcases List.mem_append.mp member with spelled | value
  · have taken : j.phrase.toList.all i.takes = true := by
      cases i <;> cases j <;> first | decide | exact (assigns rfl).elim
    exact List.all_eq_true.mp taken c spelled
  · exact plain_taken i c (plain c value)

theorem bearer_taken (i : Introducer) (y : List Char) :
    i.maskFrom ((Introducer.bearer.phrase.toList ++ y).takeWhile i.takes).length (Introducer.bearer.phrase.toList ++ y) =
      ' ' :: i.maskFrom 0 y := by
  cases i <;> rfl

theorem mark_taken (i : Introducer) (y : List Char) :
    i.maskFrom ((mark ++ ' ' :: y).takeWhile i.takes).length (mark ++ ' ' :: y) = ' ' :: i.maskFrom 0 y := by
  cases i <;> rfl

-- A text without a value that was introduced at its end, and with what became of the value: it
-- stands behind its introducer, in clear or masked; it went with its introducer into another
-- value; or its introducer went, but for a blank, and the value stays.
inductive Stage (j : Introducer) (s y : List Char) : List Char → List Char → Prop where
  | introduced (b : List Char) : Stage j s y (b ++ j.phrase.toList) (b ++ (j.phrase.toList ++ y))
  | swallowed (u : List Char) (assigns : j ≠ .bearer) : Stage j s y u u
  | orphaned (b : List Char) (bearer : j = .bearer) : Stage j s y (b ++ (mark ++ [' '])) (b ++ (mark ++ ' ' :: s))

-- What a value is before a pass: the secret or the mark, and the former behind a bearer.
structure Fits (j : Introducer) (s y : List Char) : Prop where
  given : y ≠ []
  plain : ∀ c ∈ y, isPlain c = true
  whole : j = .bearer → y = s

theorem fits_next (i j : Introducer) (s y : List Char) (early : i ≠ .bearer) (fits : Fits j s y) :
    Fits j s (if i = j then mark else y) := by
  by_cases own : i = j
  · rw [if_pos own]
    exact ⟨by decide, List.all_eq_true.mp (by decide), fun bearer => (early (own.trans bearer)).elim⟩
  · rw [if_neg own]
    exact fits

section

variable (i j : Introducer) (s y b : List Char) (clear : ∀ c ∈ s, isPlain c = true)

include clear

theorem introduced_step (fits : Fits j s y) : Stage j s (if i = j then mark else y)
    (i.maskFrom 0 (b ++ j.phrase.toList)) (i.maskFrom 0 (b ++ (j.phrase.toList ++ y))) := by
  obtain ⟨given, plain, whole⟩ := fits
  have bare : Apart i j.phrase.toList := by
    have apart := phrase_apart i j []
    rwa [List.append_nil] at apart
  obtain ⟨out, leads⟩ := mask_leads i 0 b (Nat.zero_le _)
  cases leads with
  | stops onward =>
      rw [onward _ bare, onward _ (phrase_apart i j y)]
      by_cases own : i = j
      · subst own
        rw [if_pos rfl, phrase_alone, phrase_masked y given plain]
        exact .introduced out
      · have alone := phrase_skipped i j own []
        rw [List.append_nil] at alone
        rw [if_neg own, alone, phrase_skipped i j own, mask_plain i y plain, Introducer.maskFrom, List.append_nil]
        exact .introduced out
  | goes onward =>
      rw [onward _ bare, onward _ (phrase_apart i j y)]
      by_cases assigns : j = .bearer
      · have alone := bearer_taken i []
        rw [List.append_nil] at alone
        rw [whole assigns]
        subst assigns
        rw [alone, bearer_taken, mask_plain i s clear]
        exact .orphaned out rfl
      · have alone := phrase_taken i j assigns [] fun c member => by cases member
        rw [List.append_nil] at alone
        rw [alone, phrase_taken i j assigns y plain, skip_whole, skip_whole]
        exact .swallowed _ assigns

theorem orphaned_step (bearer : j = .bearer) : Stage j s y (i.maskFrom 0 (b ++ (mark ++ [' '])))
    (i.maskFrom 0 (b ++ (mark ++ ' ' :: s))) := by
  obtain ⟨out, leads⟩ := mask_leads i 0 b (Nat.zero_le _)
  cases leads with
  | stops onward =>
      rw [onward _ (mark_apart i _), onward _ (mark_apart i _), mark_skipped, mark_skipped, blank_skipped,
        blank_skipped, mask_plain i s clear]
      exact .orphaned out bearer
  | goes onward =>
      rw [onward _ (mark_apart i _), onward _ (mark_apart i _), mark_taken, mark_taken, mask_plain i s clear]
      exact .orphaned out bearer

theorem stage_step (u v : List Char) (fits : Fits j s y) (stage : Stage j s y u v) :
    Stage j s (if i = j then mark else y) (i.maskFrom 0 u) (i.maskFrom 0 v) := by
  cases stage with
  | introduced b => exact introduced_step i j s y b clear fits
  | swallowed u assigns => exact .swallowed _ assigns
  | orphaned b bearer => exact orphaned_step i j s _ b clear bearer

end

theorem chars_stage (j : Introducer) (a s : List Char) (given : s ≠ []) (plain : ∀ c ∈ s, isPlain c = true) :
    Stage j s mark (maskChars (a ++ j.phrase.toList)) (maskChars (a ++ (j.phrase.toList ++ s))) := by
  have fits : Fits j s s := ⟨given, plain, fun _ => rfl⟩
  have first := stage_step .token j s s plain _ _ fits (.introduced a)
  have fits := fits_next .token j s _ nofun fits
  have second := stage_step .password j s _ plain _ _ fits first
  have fits := fits_next .password j s _ nofun fits
  have third := stage_step .apiKey j s _ plain _ _ fits second
  have fits := fits_next .apiKey j s _ nofun fits
  have last := stage_step .bearer j s _ plain _ _ fits third
  cases j <;> exact last

-- A secret behind its introducer comes through in one case only: the introducer is the word
-- `Bearer`, and the word was itself masked as the value of an introducer before it.
theorem secret_masked (a s : String) (i : Introducer) (given : s ≠ "") (plain : ∀ c ∈ s.toList, c.isAlphanum = true)
    (fresh : ¬ s.toList <:+: (a ++ i.phrase).toList) (unlike : ¬ s.toList <:+: mark) :
    s.toList <:+: (mask (a ++ i.phrase ++ s)).toList ↔
      i = .bearer ∧ mark ++ [' '] <:+ (mask (a ++ i.phrase)).toList := by
  have nonempty : s.toList ≠ [] := fun empty => given (String.toList_inj.mp empty)
  have solid : ∀ c ∈ s.toList, isPlain c = true := fun c member => alphanumeric_plain c (plain c member)
  have clear : '*' ∉ s.toList := fun member => absurd (plain '*' member) (by decide)
  have hidden : ¬ s.toList <:+: maskChars (a.toList ++ i.phrase.toList) := by
    intro found
    apply fresh
    rw [String.toList_append]
    exact masked_within s.toList clear unlike _ found
  have stage := chars_stage i a.toList s.toList nonempty solid
  simp only [mask, String.toList_append, String.toList_ofList, List.append_assoc] at hidden ⊢
  generalize maskChars (a.toList ++ i.phrase.toList) = u at stage hidden ⊢
  generalize maskChars (a.toList ++ (i.phrase.toList ++ s.toList)) = v at stage ⊢
  cases stage with
  | introduced b =>
      constructor
      · intro found
        rw [← List.append_assoc, ← List.append_nil (_ ++ mark)] at found
        rcases infix_marked s.toList _ [] clear found with before | inMark | behind
        · exact (hidden before).elim
        · exact (unlike inMark).elim
        · exact (nonempty (List.infix_nil.mp behind)).elim
      · rintro ⟨rfl, ends⟩
        have spelled := List.suffix_of_suffix_length_le (List.suffix_append b _) ends (by decide)
        exact absurd spelled (by decide)
  | swallowed u assigns =>
      constructor
      · exact fun found => (hidden found).elim
      · exact fun lost => (assigns lost.1).elim
  | orphaned b bearer =>
      constructor
      · intro _
        exact ⟨bearer, List.suffix_append _ _⟩
      · intro _
        exact ⟨b ++ (mark ++ [' ']), [], by simp⟩

-- The word is the value of a token in the first text, and stands for itself in the second.
theorem secret_masked_lost :
    "abc".toList <:+: (mask ("token=" ++ Introducer.bearer.phrase ++ "abc")).toList ∧
      ¬ "abc".toList <:+: (mask ("token=x, " ++ Introducer.bearer.phrase ++ "abc")).toList := by
  refine ⟨?_, fun found => ?_⟩
  · exact (secret_masked "token=" "abc" .bearer (by decide) (List.all_eq_true.mp (by decide)) (by decide)
      (by decide)).mpr ⟨rfl, by decide⟩
  · have lost := (secret_masked "token=x, " "abc" .bearer (by decide) (List.all_eq_true.mp (by decide)) (by decide)
      (by decide)).mp found
    exact absurd lost.2 (by decide)

end HostingAdmin.Mask
