import Mathlib.Data.Nat.Digits.Defs
import HostingAdmin.Proofs.JsonNumbers
import HostingAdmin.Proofs.MemberLists
import HostingAdmin.Validation

set_option autoImplicit false

namespace HostingAdmin.Json

-- A number that is not too long to be read.
def Short (n : Int) : Prop := (Nat.toDigits 10 n.natAbs).length ≤ maxDigits

instance (n : Int) : Decidable (Short n) := inferInstanceAs (Decidable (_ ≤ _))

-- The values that a text can stand for.
inductive Sound : Json → Prop where
  | null : Sound .null
  | bool (b : Bool) : Sound (.bool b)
  | int (n : Int) (short : Short n) : Sound (.int n)
  | float (x : Float) : Sound (.float x)
  | str (s : String) : Sound (.str s)
  | arr (xs : List Json) (items : ∀ x ∈ xs, Sound x) : Sound (.arr xs)
  | obj (ms : Members Json) (unique : (Members.names ms).Nodup) (members : ∀ key x, (key, x) ∈ ms → Sound x) :
      Sound (.obj ms)

theorem short_below (n : Int) (small : n.natAbs < 10 ^ maxDigits) : Short n :=
  Nat.toDigits_length 10 n.natAbs maxDigits (by decide) small

theorem digits_below (ds : List Nat) (small : ∀ d ∈ ds, d < 10) : Decimal.ofDigits ds < 10 ^ ds.length := by
  have more : ∀ n, ds.foldl (fun n d => n * 10 + d) n < (n + 1) * 10 ^ ds.length := by
    induction ds with
    | nil => simp
    | cons d rest ih =>
        intro n
        have digit := small d List.mem_cons_self
        have further := ih (fun e member => small e (List.mem_cons_of_mem _ member)) (n * 10 + d)
        rw [List.foldl_cons, List.length_cons, Nat.pow_succ, Nat.mul_comm (10 ^ rest.length), ← Nat.mul_assoc]
        exact Nat.lt_of_lt_of_le further (Nat.mul_le_mul_right _ (by omega))
  have all := more 0
  rwa [Nat.zero_add, Nat.one_mul] at all

theorem digits_short (negative : Bool) (ds : List Nat) (small : ∀ d ∈ ds, d < 10) (few : ds.length ≤ maxDigits) :
    Short (if negative then -(Decimal.ofDigits ds : Int) else Decimal.ofDigits ds) := by
  have below := Nat.lt_of_lt_of_le (digits_below ds small) (Nat.pow_le_pow_right (by decide) few)
  apply short_below
  cases negative with
  | true => rwa [if_pos rfl, Int.natAbs_neg, Int.natAbs_natCast]
  | false => rwa [if_neg (by decide), Int.natAbs_natCast]

theorem ascii_digit (c : Char) (d : Nat) (found : Text.asciiDigit? c = some d) : d < 10 := by
  rw [Text.asciiDigit?] at found
  split at found
  · rename_i between
    have high : c.toNat ≤ 57 := between.2
    cases found
    omega
  · cases found

theorem digits_small (cs : List Char) : ∀ d ∈ (digits cs).1, d < 10 := by
  intro d member
  obtain ⟨c, _, found⟩ := List.mem_filterMap.mp member
  exact ascii_digit c d found

theorem magnitude_sound (negative : Bool) (cs rest : List Char) (j : Json)
    (read : magnitude negative cs = .ok (j, rest)) : Sound j := by
  unfold magnitude at read
  split at read
  rename_i whole after wholeEq
  have small : ∀ d ∈ whole, d < 10 := by
    split at wholeEq
    · cases wholeEq
      simp
    · have same : whole = (digits cs).1 := by rw [wholeEq]
      rw [same]
      exact digits_small cs
  split at read
  · cases read
  · dsimp only at read
    split at read
    · split at read
      · cases read
      · rename_i few
        cases read
        exact .int _ (digits_short negative whole small (Nat.le_of_not_lt few))
    · cases read
      exact .float _

theorem atom_sound (cs rest : List Char) (j : Json) (read : atom cs = .ok (j, rest)) : Sound j := by
  unfold atom at read
  split at read
  · rename_i found word
    cases read
    obtain ⟨w, listed, same⟩ := List.exists_of_findSome?_eq_some word
    obtain ⟨_, _, pair⟩ := Option.map_eq_some_iff.mp same
    obtain rfl := (Prod.mk.inj pair).1
    simp only [words, List.mem_cons, List.not_mem_nil, or_false] at listed
    rcases listed with rfl | rfl | rfl | rfl | rfl | rfl
    · exact .null
    · exact .bool true
    · exact .bool false
    · exact .float _
    · exact .float _
    · exact .float _
  · split at read
    · exact magnitude_sound true _ rest j read
    · exact magnitude_sound false _ rest j read

section

variable (r : Rules)

def GivesSound (fuel : Nat) : Prop :=
  (∀ d cs j rest, value r fuel d cs = .ok (j, rest) → Sound j) ∧
  (∀ d cs acc xs rest, items r fuel d cs acc = .ok (xs, rest) → (∀ x ∈ acc, Sound x) → ∀ x ∈ xs, Sound x) ∧
  ∀ d cs acc ms rest, members r fuel d cs acc = .ok (ms, rest) → Sound (.obj acc) → Sound (.obj ms)

theorem put_sound (key : String) (x : Json) (ms : Members Json) (sound : Sound (.obj ms)) (also : Sound x) :
    Sound (.obj (Members.put key x ms)) := by
  cases sound with
  | obj _ unique members =>
      refine .obj _ (Members.put_nodup key x ms unique) fun other y member => ?_
      rcases Members.mem_put key other x y ms member with ⟨_, rfl⟩ | before
      · exact also
      · exact members other y before

theorem value_sound (fuel : Nat) (gives : GivesSound r fuel) (d : Nat) (cs rest : List Char) (j : Json)
    (read : value r (fuel + 1) d cs = .ok (j, rest)) : Sound j := by
  rw [value] at read
  split at read
  · split at read
    · cases read
    · cases read
      exact .str _
  · split at read
    · split at read
      · cases read
        exact .arr [] fun x member => by cases member
      · split at read
        · cases read
        · rename_i listed
          cases read
          exact .arr _ (gives.2.1 _ _ [] _ _ listed fun x member => by cases member)
    · cases read
  · split at read
    · split at read
      · cases read
        exact .obj [] List.nodup_nil fun key x member => by cases member
      · split at read
        · cases read
        · rename_i listed
          cases read
          exact gives.2.2 _ _ [] _ _ listed (.obj [] List.nodup_nil fun key x member => by cases member)
    · cases read
  · exact atom_sound _ rest j read

theorem items_sound (fuel : Nat) (gives : GivesSound r fuel) (d : Nat) (cs rest : List Char) (acc xs : List Json)
    (read : items r (fuel + 1) d cs acc = .ok (xs, rest)) (sound : ∀ x ∈ acc, Sound x) : ∀ x ∈ xs, Sound x := by
  rw [items] at read
  split at read
  · cases read
  · rename_i first after valueEq
    have longer : ∀ x ∈ first :: acc, Sound x := by
      intro x member
      rcases List.mem_cons.mp member with rfl | before
      · exact gives.1 _ _ _ _ valueEq
      · exact sound x before
    split at read
    · exact gives.2.1 _ _ _ _ _ read longer
    · cases read
      exact fun x member => longer x (List.mem_reverse.mp member)
    · cases read

theorem members_sound (fuel : Nat) (gives : GivesSound r fuel) (d : Nat) (cs rest : List Char)
    (acc ms : Members Json) (read : members r (fuel + 1) d cs acc = .ok (ms, rest)) (sound : Sound (.obj acc)) :
    Sound (.obj ms) := by
  rw [members] at read
  split at read
  · split at read
    · cases read
    · split at read
      · split at read
        · cases read
        · rename_i x after valueEq
          have longer := fun key => put_sound key x acc sound (gives.1 _ _ _ _ valueEq)
          dsimp only at read
          split at read
          · exact gives.2.2 _ _ _ _ _ read (longer _)
          · cases read
            exact longer _
          · cases read
      · cases read
  · cases read

theorem all_sound (fuel : Nat) : GivesSound r fuel := by
  induction fuel with
  | zero =>
      refine ⟨?_, ?_, ?_⟩
      · intro d cs j rest read
        cases read
      · intro d cs acc xs rest read
        cases read
      · intro d cs acc ms rest read
        cases read
  | succ fuel ih =>
      exact ⟨fun d cs j rest => value_sound r fuel ih d cs rest j,
        fun d cs acc xs rest => items_sound r fuel ih d cs rest acc xs,
        fun d cs acc ms rest => members_sound r fuel ih d cs rest acc ms⟩

theorem read_sound (cs : List Char) (j : Json) (read : readChars r cs = .ok j) : Sound j := by
  rw [readChars] at read
  split at read
  · cases read
  · rename_i value rest valueEq
    split at read
    · cases read
      exact (all_sound r _).1 _ _ _ rest valueEq
    · cases read

end

theorem strict_sound (body : Bytes) (j : Json) (read : ofBytesStrict? body = some j) : Sound j := by
  rw [ofBytesStrict?] at read
  obtain ⟨text, _, parsed⟩ := Option.bind_eq_some_iff.mp read
  cases readEq : readChars .strict text.toList with
  | error fault =>
      rw [readEq] at parsed
      cases parsed
  | ok value =>
      rw [readEq] at parsed
      cases parsed
      exact read_sound .strict text.toList _ readEq

end HostingAdmin.Json
