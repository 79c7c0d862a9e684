import Mathlib.Data.List.TakeWhile
import HostingAdmin.Proofs.MaskScan

set_option autoImplicit false

namespace HostingAdmin.Mask

structure AtMostOne (p : Char → Bool) (cs : List Char) : Prop where
  few : cs.length ≤ 1
  all : ∀ c ∈ cs, p c = true

def Blank (cs : List Char) : Prop := ∀ c ∈ cs, Text.isBlank c = true

inductive Spells : Introducer → List Char → Prop where
  | token (word : List Char) (same : word.map fold = "token".toList) : Spells .token word
  | password (word : List Char) (same : word.map fold = "password".toList) : Spells .password word
  | apiKey (api joint key : List Char) (first : api.map fold = "api".toList) (few : AtMostOne isJoint joint)
      (last : key.map fold = "key".toList) : Spells .apiKey (api ++ (joint ++ key))
  | bearer (word : List Char) (same : word.map fold = "bearer".toList) : Spells .bearer word

-- What stands between a word and the value that is assigned to it.
inductive Assigns : List Char → Prop where
  | signed (opened before after closed : List Char) (sign : Char) (first : AtMostOne isQuote opened)
      (left : Blank before) (signs : sign = ':' ∨ sign = '=') (right : Blank after) (last : AtMostOne isQuote closed) :
      Assigns (opened ++ (before ++ sign :: (after ++ closed)))

def Introducer.Joins : Introducer → List Char → Prop
  | .bearer, cs => cs ≠ [] ∧ Blank cs
  | _, cs => Assigns cs

inductive Introduces (i : Introducer) : List Char → Prop where
  | written (word tail : List Char) (spells : Spells i word) (joined : i.Joins tail) : Introduces i (word ++ tail)

-- A value behind its introducer, up to where it ends.
structure Meets (i : Introducer) (front value rest : List Char) : Prop where
  introduced : Introduces i front
  given : value ≠ []
  taken : ∀ c ∈ value, i.takes c = true
  ended : ∀ c ∈ rest.head?, i.takes c = false

theorem word_iff (w : List Char) (n m : Nat) (cs rest : List Char) :
    word? w (n, cs) = some (m, rest) ↔ ∃ k, cs = k ++ rest ∧ m = n + k.length ∧ k.map fold = w := by
  induction w generalizing n cs with
  | nil =>
      rw [word?]
      constructor
      · intro same
        cases same
        exact ⟨[], rfl, rfl, rfl⟩
      · rintro ⟨k, text, count, spelled⟩
        obtain rfl := List.map_eq_nil_iff.mp spelled
        rw [text, count]
        rfl
  | cons l ws ih =>
      cases cs with
      | nil =>
          rw [word?]
          constructor
          · intro same
            cases same
          · rintro ⟨k, text, _, spelled⟩
            obtain ⟨rfl, _⟩ := List.append_eq_nil_iff.mp text.symm
            cases spelled
      | cons c cs =>
          rw [word?]
          constructor
          · intro found
            split at found
            · rename_i same
              obtain ⟨k, text, count, spelled⟩ := (ih (n + 1) cs).mp found
              refine ⟨c :: k, by rw [text, List.cons_append], ?_, ?_⟩
              · rw [count, List.length_cons]
                omega
              · rw [List.map_cons, same, spelled]
            · cases found
          · rintro ⟨k, text, count, spelled⟩
            cases k with
            | nil => cases spelled
            | cons d k =>
                rw [List.map_cons, List.cons.injEq] at spelled
                rw [List.cons_append, List.cons.injEq] at text
                rw [text.1, if_pos spelled.1]
                refine (ih (n + 1) cs).mpr ⟨k, text.2, ?_, spelled.2⟩
                rw [count, List.length_cons]
                omega

theorem one_split (p : Char → Bool) (n m : Nat) (cs rest : List Char) (passed : passOne p (n, cs) = (m, rest)) :
    ∃ q, cs = q ++ rest ∧ m = n + q.length ∧ AtMostOne p q := by
  cases cs with
  | nil =>
      cases passed
      exact ⟨[], rfl, rfl, by simp, by simp⟩
  | cons c cs =>
      rw [passOne] at passed
      split at passed
      · rename_i holds
        cases passed
        exact ⟨[c], rfl, rfl, by simp, by simpa using holds⟩
      · cases passed
        exact ⟨[], rfl, rfl, by simp, by simp⟩

theorem one_passed (p : Char → Bool) (n : Nat) (q rest : List Char) (few : AtMostOne p q)
    (past : ∀ c ∈ rest.head?, p c = false) : passOne p (n, q ++ rest) = (n + q.length, rest) := by
  obtain ⟨short, all⟩ := few
  cases q with
  | nil =>
      cases rest with
      | nil => rfl
      | cons d rest => simp [passOne, past d rfl]
  | cons c q =>
      obtain rfl : q = [] := List.length_eq_zero_iff.mp (by simpa using short)
      simp [passOne, all c List.mem_cons_self]

theorem blanks_split (n m : Nat) (cs rest : List Char) (passed : passBlanks (n, cs) = (m, rest)) :
    ∃ b, cs = b ++ rest ∧ m = n + b.length ∧ Blank b := by
  cases passed
  refine ⟨cs.takeWhile Text.isBlank, ?_, rfl, fun c => List.mem_takeWhile_imp⟩
  have front := List.prefix_iff_eq_take.mp (List.takeWhile_prefix Text.isBlank (l := cs))
  have split := List.take_append_drop (cs.takeWhile Text.isBlank).length cs
  rw [← front] at split
  exact split.symm

theorem blanks_passed (n : Nat) (b rest : List Char) (blank : Blank b) (past : ∀ c ∈ rest.head?, Text.isBlank c = false) :
    passBlanks (n, b ++ rest) = (n + b.length, rest) := by
  have none : rest.takeWhile Text.isBlank = [] := by
    cases rest with
    | nil => rfl
    | cons d rest => exact List.takeWhile_cons_of_neg (by simp [past d rfl])
  have all : (b ++ rest).takeWhile Text.isBlank = b := by
    rw [List.takeWhile_append_of_pos blank, none, List.append_nil]
  rw [passBlanks]
  simp only [all, List.drop_left]

theorem assignment_split (n m : Nat) (cs rest : List Char) (assigned : assignment? (n, cs) = some (m, rest)) :
    ∃ front, cs = front ++ rest ∧ m = n + front.length ∧ Assigns front := by
  rcases openedEq : passOne isQuote (n, cs) with ⟨k, ds⟩
  obtain ⟨opened, rfl, rfl, first⟩ := one_split isQuote n k cs ds openedEq
  rcases beforeEq : passBlanks (n + opened.length, ds) with ⟨k, es⟩
  obtain ⟨before, rfl, rfl, left⟩ := blanks_split _ k ds es beforeEq
  rw [assignment?, openedEq, beforeEq] at assigned
  cases es with
  | nil => cases assigned
  | cons sign es =>
      dsimp only at assigned
      split at assigned
      · rename_i signs
        rcases afterEq : passBlanks (n + opened.length + before.length + 1, es) with ⟨k, fs⟩
        obtain ⟨after, rfl, rfl, right⟩ := blanks_split _ k es fs afterEq
        rw [afterEq, Option.some.injEq] at assigned
        obtain ⟨closed, rfl, rfl, last⟩ := one_split isQuote _ m fs rest assigned
        refine ⟨opened ++ (before ++ sign :: (after ++ closed)), by simp, ?_, ?_⟩
        · simp only [List.length_append, List.length_cons]
          omega
        · exact .signed opened before after closed sign first left signs right last
      · cases assigned

theorem quote_unblank (c : Char) (quote : isQuote c = true) : Text.isBlank c = false := by
  simp only [isQuote, Bool.or_eq_true, decide_eq_true_eq] at quote
  rcases quote with rfl | rfl <;> decide

theorem sign_bare (c : Char) (sign : c = ':' ∨ c = '=') : Text.isBlank c = false ∧ isQuote c = false := by
  rcases sign with rfl | rfl <;> decide

theorem blank_unquoted (c : Char) (blank : Text.isBlank c = true) : isQuote c = false := by
  cases quote : isQuote c with
  | false => rfl
  | true => rw [quote_unblank c quote] at blank; cases blank

section

variable (rest : List Char) (bare : ∀ c ∈ rest.head?, Text.isBlank c = false ∧ isQuote c = false)

include bare

theorem assignment_passed (n : Nat) (front : List Char) (assigns : Assigns front) :
    assignment? (n, front ++ rest) = some (n + front.length, rest) := by
  obtain ⟨opened, before, after, closed, sign, first, left, signs, right, last⟩ := assigns
  obtain ⟨signUnblank, signUnquoted⟩ := sign_bare sign signs
  have firstOver : passOne isQuote (n, opened ++ (before ++ sign :: (after ++ (closed ++ rest)))) =
      (n + opened.length, before ++ sign :: (after ++ (closed ++ rest))) := by
    apply one_passed isQuote n opened _ first
    cases before with
    | nil => simpa using signUnquoted
    | cons b before => simpa using blank_unquoted b (left b List.mem_cons_self)
  have leftOver := blanks_passed (n + opened.length) before (sign :: (after ++ (closed ++ rest))) left
    (by simpa using signUnblank)
  have rightOver : passBlanks (n + opened.length + before.length + 1, after ++ (closed ++ rest)) =
      (n + opened.length + before.length + 1 + after.length, closed ++ rest) := by
    apply blanks_passed _ after _ right
    cases closed with
    | nil => exact fun c member => (bare c member).1
    | cons q closed => simpa using quote_unblank q (last.all q List.mem_cons_self)
  have lastOver := one_passed isQuote (n + opened.length + before.length + 1 + after.length) closed rest last
    fun c member => (bare c member).2
  have text : opened ++ (before ++ sign :: (after ++ closed)) ++ rest =
      opened ++ (before ++ sign :: (after ++ (closed ++ rest))) := by simp
  rw [text, assignment?, firstOver, leftOver]
  dsimp only
  rw [if_pos signs, rightOver, lastOver]
  simp only [List.length_append, List.length_cons]
  congr 2
  omega

end

theorem joint_fold (c : Char) (joint : isJoint c = true) : fold c = '_' ∨ fold c = '-' := by
  simp only [isJoint, Bool.or_eq_true, decide_eq_true_eq] at joint
  rcases joint with rfl | rfl <;> decide

theorem key_split (n m : Nat) (cs rest : List Char)
    (spelled : ((word? "api".toList (n, cs)).bind fun next => word? "key".toList (passOne isJoint next)) =
      some (m, rest)) : ∃ k, cs = k ++ rest ∧ m = n + k.length ∧ Spells .apiKey k := by
  obtain ⟨⟨a, ds⟩, apiEq, keyEq⟩ := Option.bind_eq_some_iff.mp spelled
  obtain ⟨api, rfl, rfl, first⟩ := (word_iff _ n a cs ds).mp apiEq
  rcases jointEq : passOne isJoint (n + api.length, ds) with ⟨b, es⟩
  obtain ⟨joint, rfl, rfl, few⟩ := one_split isJoint _ b ds es jointEq
  rw [jointEq] at keyEq
  obtain ⟨key, rfl, rfl, last⟩ := (word_iff _ _ m es rest).mp keyEq
  refine ⟨api ++ (joint ++ key), by simp, ?_, .apiKey api joint key first few last⟩
  simp only [List.length_append]
  omega

theorem key_passed (n : Nat) (api joint key rest : List Char) (first : api.map fold = "api".toList)
    (few : AtMostOne isJoint joint) (last : key.map fold = "key".toList) :
    ((word? "api".toList (n, api ++ (joint ++ (key ++ rest)))).bind fun next =>
      word? "key".toList (passOne isJoint next)) = some (n + api.length + joint.length + key.length, rest) := by
  have apiEq := (word_iff _ n _ _ (joint ++ (key ++ rest))).mpr ⟨api, rfl, rfl, first⟩
  have jointEq : passOne isJoint (n + api.length, joint ++ (key ++ rest)) =
      (n + api.length + joint.length, key ++ rest) := by
    apply one_passed isJoint _ joint _ few
    intro c member
    cases key with
    | nil => cases last
    | cons k key =>
        obtain rfl : k = c := by simpa using member
        have letter : fold k = 'k' := (List.cons.inj last).1
        cases joined : isJoint k with
        | false => rfl
        | true =>
            have bar := joint_fold k joined
            rw [letter] at bar
            exact absurd bar (by decide)
  rw [apiEq, Option.bind_some, jointEq]
  exact (word_iff _ _ _ _ rest).mpr ⟨key, rfl, rfl, last⟩

theorem pass_introduces (i : Introducer) (n m : Nat) (cs rest : List Char) (passed : i.pass? (n, cs) = some (m, rest)) :
    ∃ front, cs = front ++ rest ∧ m = n + front.length ∧ Introduces i front := by
  have assigned : ∀ k ds word, i ≠ .bearer → cs = word ++ ds → k = n + word.length → Spells i word →
      assignment? (k, ds) = some (m, rest) → ∃ front, cs = front ++ rest ∧ m = n + front.length ∧ Introduces i front := by
    intro k ds word assigning text count spells found
    obtain ⟨tail, rfl, rfl, assigns⟩ := assignment_split k m ds rest found
    refine ⟨word ++ tail, by rw [text, List.append_assoc], ?_, .written word tail spells ?_⟩
    · rw [count, List.length_append]
      omega
    · cases i <;> first | exact assigns | exact (assigning rfl).elim
  cases i with
  | token =>
      obtain ⟨⟨k, ds⟩, spelled, found⟩ := Option.bind_eq_some_iff.mp passed
      obtain ⟨word, text, count, same⟩ := (word_iff _ n k cs ds).mp spelled
      exact assigned k ds word nofun text count (.token word same) found
  | password =>
      obtain ⟨⟨k, ds⟩, spelled, found⟩ := Option.bind_eq_some_iff.mp passed
      obtain ⟨word, text, count, same⟩ := (word_iff _ n k cs ds).mp spelled
      exact assigned k ds word nofun text count (.password word same) found
  | apiKey =>
      obtain ⟨⟨k, ds⟩, spelled, found⟩ := Option.bind_eq_some_iff.mp passed
      obtain ⟨word, text, count, spells⟩ := key_split n k cs ds spelled
      exact assigned k ds word nofun text count spells found
  | bearer =>
      obtain ⟨⟨k, ds⟩, spelled, blank⟩ := Option.bind_eq_some_iff.mp passed
      obtain ⟨word, text, count, same⟩ := (word_iff _ n k cs ds).mp spelled
      split at blank
      · rename_i parted
        rw [Option.some.injEq] at blank
        obtain ⟨tail, rfl, rfl, blanks⟩ := blanks_split k m ds rest blank
        refine ⟨word ++ tail, by rw [text, List.append_assoc], ?_, .written word tail (.bearer word same) ⟨?_, blanks⟩⟩
        · rw [count, List.length_append]
          omega
        · rintro rfl
          have still : passBlanks (k, rest) = (k, rest) := blank
          cases rest with
          | nil => cases parted
          | cons d rest =>
              have size : (passBlanks (k, d :: rest)).1 = k := by rw [still]
              have first : Text.isBlank d = true := parted
              rw [passBlanks, List.takeWhile_cons_of_pos first] at size
              simp only [List.length_cons] at size
              omega
      · cases blank

theorem pass_written (i : Introducer) (front rest : List Char)
    (bare : ∀ c ∈ rest.head?, Text.isBlank c = false ∧ isQuote c = false) (introduces : Introduces i front) :
    i.pass? (0, front ++ rest) = some (front.length, rest) := by
  obtain ⟨word, tail, spells, joined⟩ := introduces
  have spelled : ∀ w, word.map fold = w → word? w (0, word ++ tail ++ rest) = some (word.length, tail ++ rest) :=
    fun w same => (word_iff w 0 _ _ _).mpr ⟨word, List.append_assoc _ _ _, (Nat.zero_add _).symm, same⟩
  have assigned : Assigns tail → assignment? (word.length, tail ++ rest) = some ((word ++ tail).length, rest) := by
    intro assigns
    rw [List.length_append]
    exact assignment_passed rest bare word.length tail assigns
  cases spells with
  | token _ same =>
      rw [Introducer.pass?, spelled _ same]
      exact assigned joined
  | password _ same =>
      rw [Introducer.pass?, spelled _ same]
      exact assigned joined
  | apiKey api joint key first few last =>
      have passed := key_passed 0 api joint key (tail ++ rest) first few last
      have text : api ++ (joint ++ key) ++ tail ++ rest = api ++ (joint ++ (key ++ (tail ++ rest))) := by simp
      have count : (api ++ (joint ++ key)).length = 0 + api.length + joint.length + key.length := by
        simp only [List.length_append]
        omega
      rw [Introducer.pass?, text, passed, ← count]
      exact assigned joined
  | bearer _ same =>
      obtain ⟨given, blank⟩ := joined
      rw [Introducer.pass?, spelled _ same]
      cases tail with
      | nil => exact (given rfl).elim
      | cons b tail =>
          have parted : Text.isBlank b = true := blank b List.mem_cons_self
          have passed := blanks_passed word.length (b :: tail) rest blank fun c member => (bare c member).1
          simp only [List.cons_append, Option.bind_some, List.head?_cons, Option.map_some, Option.getD_some, parted,
            if_true, List.length_append] at passed ⊢
          exact congrArg some passed

theorem taken_bare (i : Introducer) (c : Char) (taken : i.takes c = true) :
    Text.isBlank c = false ∧ isQuote c = false := by
  cases i <;> simp only [Introducer.takes, Bool.and_eq_true, Bool.not_eq_true'] at taken <;> simp [taken]

theorem run_meets (i : Introducer) (front text : List Char) (introduced : Introduces i front)
    (given : text.takeWhile i.takes ≠ []) :
    Meets i front (text.takeWhile i.takes) (text.dropWhile i.takes) where
  introduced := introduced
  given := given
  taken := fun c => List.mem_takeWhile_imp
  ended := by
    intro c member
    have ended := List.head?_dropWhile_not i.takes text
    rw [Option.mem_def.mp member] at ended
    exact ended

theorem match_meets (i : Introducer) (text : List Char) (n size : Nat) (matched : i.match? text = some (n, size)) :
    ∃ front value rest, text = front ++ (value ++ rest) ∧ n = front.length ∧ size = value.length ∧
      Meets i front value rest := by
  obtain ⟨⟨m, after⟩, passed, found⟩ := Option.bind_eq_some_iff.mp matched
  obtain ⟨front, rfl, count, introduced⟩ := pass_introduces i 0 m text after passed
  dsimp only at found
  split at found
  · cases found
  · rename_i given
    cases found
    refine ⟨front, after.takeWhile i.takes, after.dropWhile i.takes, ?_, ?_, rfl, run_meets i front after introduced ?_⟩
    · rw [List.takeWhile_append_dropWhile]
    · rw [count, Nat.zero_add]
    · exact fun empty => given (List.length_eq_zero_iff.mpr empty)

theorem meets_match (i : Introducer) (front value rest : List Char) (meets : Meets i front value rest) :
    i.match? (front ++ (value ++ rest)) = some (front.length, value.length) := by
  obtain ⟨introduced, given, taken, ended⟩ := meets
  have passed : i.pass? (0, front ++ (value ++ rest)) = some (front.length, value ++ rest) := by
    refine pass_written i front (value ++ rest) (fun c member => ?_) introduced
    cases value with
    | nil => exact (given rfl).elim
    | cons d value =>
        obtain rfl : d = c := by simpa using member
        exact taken_bare i d (taken d List.mem_cons_self)
  have ended : rest.takeWhile i.takes = [] := by
    cases rest with
    | nil => rfl
    | cons d rest => exact List.takeWhile_cons_of_neg (by simp [ended d rfl])
  have whole : (value ++ rest).takeWhile i.takes = value := by
    rw [List.takeWhile_append_of_pos taken, ended, List.append_nil]
  rw [Introducer.match?, passed]
  simp only [Option.bind_some, whole]
  rw [if_neg fun empty => given (List.length_eq_zero_iff.mp empty)]

theorem meets_unique (i : Introducer) (front value rest front' value' rest' : List Char) (meets : Meets i front value rest)
    (meets' : Meets i front' value' rest') (same : front ++ (value ++ rest) = front' ++ (value' ++ rest')) :
    value = value' := by
  have matched := meets_match i front value rest meets
  rw [same, meets_match i front' value' rest' meets', Option.some.injEq, Prod.mk.injEq] at matched
  have values := (List.append_inj same matched.1.symm).2
  exact (List.append_inj values matched.2.symm).1

theorem first_letter (c : Char) (letter : fold c ∈ ['t', 'p', 'a', 'b']) : isPlain c = true := by
  have small : c.toNat < 128 := by
    by_contra large
    have outside : ¬ (c.val ≥ 'A'.val ∧ c.val ≤ 'Z'.val) := by
      rintro ⟨_, upper⟩
      have below : c.toNat ≤ 90 := upper
      omega
    have kept : c.toLower = c := dif_neg outside
    have same : fold c ∈ ['i', 's', 'k'] ∨ fold c = c := by
      unfold fold
      split
      · exact .inl (by decide)
      · exact .inl (by decide)
      · exact .inl (by decide)
      · exact .inl (by decide)
      · exact .inr kept
    rcases same with other | same
    · simp only [List.mem_cons, List.not_mem_nil, or_false] at letter other
      rcases other with other | other | other <;> rw [other] at letter <;> exact absurd letter (by decide)
    · rw [same] at letter
      simp only [List.mem_cons, List.not_mem_nil, or_false] at letter
      rcases letter with rfl | rfl | rfl | rfl <;> exact large (by decide)
  have each : ∀ n < 128, fold (Char.ofNat n) ∈ ['t', 'p', 'a', 'b'] → isPlain (Char.ofNat n) = true := by decide
  have same := each c.toNat small
  rw [Char.ofNat_toNat] at same
  exact same letter

theorem join_rough (i : Introducer) (tail : List Char) (joined : i.Joins tail) : ∀ c ∈ tail, isPlain c = false := by
  have blank : ∀ c, Text.isBlank c = true → isPlain c = false := fun c blank => by simp [isPlain, blank]
  have quote : ∀ c, isQuote c = true → isPlain c = false := fun c quote => by simp [isPlain, quote]
  have assigned : Assigns tail → ∀ c ∈ tail, isPlain c = false := by
    rintro ⟨opened, before, after, closed, sign, first, left, signs, right, last⟩ c member
    simp only [List.mem_append, List.mem_cons] at member
    rcases member with inFirst | inLeft | rfl | inRight | inLast
    · exact quote c (first.all c inFirst)
    · exact blank c (left c inLeft)
    · rcases signs with rfl | rfl <;> decide
    · exact blank c (right c inRight)
    · exact quote c (last.all c inLast)
  cases i with
  | token => exact assigned joined
  | password => exact assigned joined
  | apiKey => exact assigned joined
  | bearer => exact fun c member => blank c (joined.2 c member)

-- The words of an introducer, but for the case of their letters.
def Introducer.spellings : Introducer → List (List Char)
  | .token => ["token".toList]
  | .password => ["password".toList]
  | .apiKey => ["apikey".toList, "api_key".toList, "api-key".toList]
  | .bearer => ["bearer".toList]

theorem spells_listed (i : Introducer) (word : List Char) (spells : Spells i word) : word.map fold ∈ i.spellings := by
  cases spells with
  | token _ same => exact List.mem_singleton.mpr same
  | password _ same => exact List.mem_singleton.mpr same
  | bearer _ same => exact List.mem_singleton.mpr same
  | apiKey api joint key first few last =>
      rw [List.map_append, List.map_append, first, last]
      cases joint with
      | nil => exact List.mem_cons_self
      | cons c joint =>
          obtain rfl : joint = [] := List.length_eq_zero_iff.mp (by simpa using few.few)
          rcases joint_fold c (few.all c List.mem_cons_self) with same | same <;> rw [List.map_singleton, same] <;> decide

-- No introducer begins where a text differs from all of its words.
theorem begins_unlike (i : Introducer) (k y front z : List Char)
    (unlike : ∀ u ∈ i.spellings, ¬ k.map fold <+: u ∧ ¬ u <+: k.map fold) (introduces : Introduces i front) :
    k ++ y ≠ front ++ z := by
  intro same
  obtain ⟨word, tail, spells, _⟩ := introduces
  obtain ⟨longer, shorter⟩ := unlike _ (spells_listed i word spells)
  have starts : word <+: k ++ y := by
    rw [same, List.append_assoc]
    exact List.prefix_append _ _
  rcases List.prefix_or_prefix_of_prefix (List.prefix_append k y) starts with within | around
  · exact longer (within.map fold)
  · exact shorter (around.map fold)

theorem word_tails (i j : Introducer) (w s : List Char) (listed : w ∈ i.spellings) (tail : s <:+ w) (given : s ≠ [])
    (other : i = j → s ≠ w) : ∀ u ∈ j.spellings, ¬ s <+: u ∧ ¬ u <+: s := by
  have each : ∀ w ∈ i.spellings, ∀ s ∈ w.tails, s ≠ [] → (i = j → s ≠ w) →
      ∀ u ∈ j.spellings, ¬ s <+: u ∧ ¬ u <+: s := by
    cases i <;> cases j <;> decide
  exact each w listed s ((List.mem_tails s w).mpr tail) given other

theorem begins_plain (i : Introducer) (front : List Char) (introduces : Introduces i front) :
    ∃ c rest, front = c :: rest ∧ isPlain c = true := by
  obtain ⟨word, tail, spells, _⟩ := introduces
  have listed := spells_listed i word spells
  have letters : ∀ w ∈ i.spellings, w.head? ∈ [some 't', some 'p', some 'a', some 'b'] := by cases i <;> decide
  have letter := letters _ listed
  cases word with
  | nil => simp at letter
  | cons c word => exact ⟨c, word ++ tail, rfl, first_letter c (by simpa using letter)⟩

theorem meets_opens (i : Introducer) (front value rest : List Char) (meets : Meets i front value rest) :
    ∃ c others, front = c :: others := by
  obtain ⟨c, others, same, _⟩ := begins_plain i front meets.introduced
  exact ⟨c, others, same⟩

theorem begins_apart (i j : Introducer) (a b y front z : List Char) (around : Introduces i (a ++ b)) (given : b ≠ [])
    (apart : i = j → a ≠ []) (introduces : Introduces j front) : b ++ y ≠ front ++ z := by
  generalize whole : a ++ b = cs at around
  obtain ⟨word, tail, spells, joined⟩ := around
  have inTail : b <:+ tail → b ++ y ≠ front ++ z := by
    intro ends same
    obtain ⟨c, rest, rfl, plain⟩ := begins_plain j front introduces
    cases b with
    | nil => exact given rfl
    | cons d b =>
        obtain rfl : d = c := (List.cons.inj same).1
        rw [join_rough i tail joined d (ends.subset List.mem_cons_self)] at plain
        cases plain
  rcases List.append_eq_append_iff.mp whole with ⟨rest, rfl, rfl⟩ | ⟨before, _, rfl⟩
  · cases rest with
    | nil => exact inTail List.suffix_rfl
    | cons c rest =>
        rw [List.append_assoc]
        refine begins_unlike j (c :: rest) _ front z ?_ introduces
        refine word_tails i j _ _ (spells_listed i _ spells) ((List.suffix_append a (c :: rest)).map fold) nofun ?_
        intro same whole
        have lengths := congrArg List.length whole
        simp only [List.length_map, List.length_append] at lengths
        exact apart same (List.length_eq_zero_iff.mp (by omega))
  · exact inTail (List.suffix_append before b)

theorem mark_unbegun (i : Introducer) (a b y front z : List Char) (inside : a ++ b = mark) (given : b ≠ [])
    (introduces : Introduces i front) : b ++ y ≠ front ++ z := by
  have each : ∀ m ∈ mark.tails, m ≠ [] → ∀ u ∈ i.spellings, ¬ m.map fold <+: u ∧ ¬ u <+: m.map fold := by
    cases i <;> decide
  have tail : b ∈ mark.tails := (List.mem_tails b mark).mpr ⟨a, inside⟩
  exact begins_unlike i b y front z (each b tail given) introduces

theorem mark_meets (i : Introducer) (front value rest out : List Char) (meets : Meets i front value rest)
    (same : out.head? = rest.head?) : Meets i front mark out where
  introduced := meets.introduced
  given := by decide
  taken := by cases i <;> exact List.all_eq_true.mp (by decide)
  ended := same ▸ meets.ended

end HostingAdmin.Mask
