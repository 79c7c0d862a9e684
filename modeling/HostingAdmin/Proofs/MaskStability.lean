import HostingAdmin.Proofs.IntroducerWords

set_option autoImplicit false

namespace HostingAdmin.Mask

-- How masking goes through a text, match by match.
inductive Scans (i : Introducer) : List Char → List Char → Prop where
  | ends : Scans i [] []
  | passes (c : Char) (rest out : List Char)
      (unmet : ∀ front value after, c :: rest = front ++ (value ++ after) → ¬ Meets i front value after)
      (further : Scans i rest out) : Scans i (c :: rest) (c :: out)
  | masks (front value rest out : List Char) (meets : Meets i front value rest) (further : Scans i rest out) :
      Scans i (front ++ (value ++ rest)) (front ++ (mark ++ out))

theorem mask_scans (i : Introducer) (text : List Char) : Scans i text (i.maskFrom 0 text) := by
  induction size : text.length using Nat.strongRecOn generalizing text with
  | ind n ih =>
      cases text with
      | nil => exact .ends
      | cons c rest =>
          rw [List.length_cons] at size
          cases matched : i.match? (c :: rest) with
          | none =>
              rw [mask_unmatched i c rest matched]
              refine .passes c rest _ ?_ (ih rest.length (by omega) rest rfl)
              intro front value after text meets
              rw [text, meets_match i front value after meets] at matched
              cases matched
          | some spot =>
              obtain ⟨m, k⟩ := spot
              obtain ⟨front, value, after, text, rfl, rfl, meets⟩ := match_meets i _ m k matched
              obtain ⟨d, others, rfl⟩ := meets_opens i front value after meets
              have masked := mask_matched i c rest (d :: others) (value ++ after) value.length text matched
              rw [List.cons_append, List.cons.injEq] at text
              obtain ⟨rfl, rfl⟩ := text
              have skip : (c :: others).length + value.length - 1 = (others ++ value).length := by
                simp only [List.length_cons, List.length_append]
                omega
              have skipped := skip_all i (others ++ value) after 0
              rw [Nat.add_zero, List.append_assoc] at skipped
              rw [masked, skip, skipped, List.append_assoc]
              have further := ih after.length (by simp only [List.length_append] at size; omega) after rfl
              exact .masks (c :: others) value after _ meets further

-- The values of an introducer are all masked.
def Settled (i : Introducer) (text : List Char) : Prop :=
  ∀ before front value rest, text = before ++ (front ++ (value ++ rest)) → Meets i front value rest → value = mark

theorem settled_later (i : Introducer) (before text : List Char) (settled : Settled i (before ++ text)) :
    Settled i text := by
  intro more front value rest same meets
  exact settled (before ++ more) front value rest (by rw [same, List.append_assoc]) meets

theorem settled_scans (i : Introducer) (text out : List Char) (settled : Settled i text) (scans : Scans i text out) :
    out = text := by
  induction scans with
  | ends => rfl
  | passes c rest out _ further ih => rw [ih (settled_later i [c] rest settled)]
  | masks front value rest out meets further ih =>
      have masked := settled [] front value rest rfl meets
      have later : Settled i rest := by
        refine settled_later i (front ++ value) rest ?_
        rwa [List.append_assoc]
      rw [ih later, masked]

theorem scans_head (i : Introducer) (text out : List Char) (scans : Scans i text out) : out.head? = text.head? := by
  cases scans with
  | ends => rfl
  | passes c rest out unmet further => rfl
  | masks front value rest out meets further =>
      obtain ⟨c, others, rfl⟩ := meets_opens i front value rest meets
      rfl

-- What begins with an introducer after masking began with it before, when masking does
-- not begin there with the same one.
theorem scans_introducer (i j : Introducer) (a b text y : List Char) (around : Introduces i (a ++ b))
    (apart : i = j → a ≠ []) (scans : Scans j text (b ++ y)) : ∃ rest, text = b ++ rest ∧ Scans j rest y := by
  induction b generalizing a text with
  | nil => exact ⟨text, rfl, scans⟩
  | cons c b ih =>
      generalize outEq : c :: b ++ y = out at scans
      cases scans with
      | ends => cases outEq
      | passes d rest out unmet further =>
          rw [List.cons_append, List.cons.injEq] at outEq
          obtain ⟨rfl, rfl⟩ := outEq
          have around : Introduces i (a ++ [c] ++ b) := by rwa [List.append_assoc]
          obtain ⟨after, rfl, scans⟩ := ih (a ++ [c]) rest around (fun _ => by simp) further
          exact ⟨after, rfl, scans⟩
      | masks front value rest out meets further =>
          exact (begins_apart i j a (c :: b) y front _ around nofun apart meets.introduced outEq).elim

theorem scans_mark (i : Introducer) (a b rest out : List Char) (inside : a ++ b = mark)
    (scans : Scans i (b ++ rest) out) : ∃ more, out = b ++ more ∧ Scans i rest more := by
  induction b generalizing a out with
  | nil => exact ⟨out, rfl, scans⟩
  | cons c b ih =>
      generalize textEq : c :: b ++ rest = text at scans
      cases scans with
      | ends => cases textEq
      | passes d after out unmet further =>
          rw [List.cons_append, List.cons.injEq] at textEq
          obtain ⟨rfl, rfl⟩ := textEq
          obtain ⟨more, rfl, scans⟩ := ih (a ++ [c]) out (by rwa [List.append_assoc]) further
          exact ⟨more, rfl, scans⟩
      | masks front value after out meets further =>
          exact (mark_unbegun i a (c :: b) rest front _ inside nofun meets.introduced textEq).elim

-- A value behind an introducer at which masking has passed over: it was there before, or
-- it is the mark.
theorem passed_masked (i j : Introducer) (c : Char) (rest out front value after : List Char)
    (unmet : ∀ front value after, c :: rest = front ++ (value ++ after) → ¬ Meets j front value after)
    (further : Scans j rest out) (settled : i ≠ j → Settled i (c :: rest)) (same : c :: out = front ++ (value ++ after))
    (meets : Meets i front value after) : value = mark := by
  obtain ⟨d, b, rfl⟩ := meets_opens i front value after meets
  rw [List.cons_append, List.cons.injEq] at same
  obtain ⟨rfl, rfl⟩ := same
  obtain ⟨text, rfl, scans⟩ := scans_introducer i j [c] b rest (value ++ after) meets.introduced (fun _ => nofun) further
  have given : text.takeWhile i.takes ≠ [] := by
    have first := scans_head j text _ scans
    cases value with
    | nil => exact (meets.given rfl).elim
    | cons d value =>
        obtain ⟨others, rfl⟩ := List.head?_eq_some_iff.mp first.symm
        rw [List.takeWhile_cons_of_pos (meets.taken d List.mem_cons_self)]
        exact nofun
  have before := run_meets i (c :: b) text meets.introduced given
  have whole : text.takeWhile i.takes ++ text.dropWhile i.takes = text := List.takeWhile_append_dropWhile
  by_cases own : i = j
  · subst own
    exact (unmet (c :: b) _ _ (by rw [whole]; rfl) before).elim
  · have masked := settled own [] (c :: b) _ _ (by rw [whole]; rfl) before
    rw [← whole, masked] at scans
    obtain ⟨more, onward, left⟩ := scans_mark j [] mark _ _ rfl scans
    have marked := mark_meets i (c :: b) _ _ more before (scans_head j _ more left)
    exact meets_unique i (c :: b) value after (c :: b) mark more meets marked (by rw [onward])

theorem begins_masked (i j : Introducer) (front out before other more : List Char) (introduced : Introduces j front)
    (introduces : Introduces i other) (same : front ++ (mark ++ out) = before ++ (other ++ more)) :
    (i = j ∧ before = []) ∨ ∃ later, before = front ++ (mark ++ later) ∧ out = later ++ (other ++ more) := by
  rcases List.append_eq_append_iff.mp same with ⟨past, rfl, behind⟩ | ⟨left, rfl, behind⟩
  · rcases List.append_eq_append_iff.mp behind with ⟨later, rfl, onward⟩ | ⟨left, inside, onward⟩
    · exact .inr ⟨later, rfl, onward⟩
    · by_cases ended : left = []
      · subst ended
        rw [List.append_nil] at inside
        exact .inr ⟨[], by rw [List.append_nil, inside], onward.symm⟩
      · exact (mark_unbegun i past left out other more inside.symm ended introduces onward.symm).elim
  · by_cases ended : left = []
    · subst ended
      exact (mark_unbegun i [] mark out other more rfl (by decide) introduces behind.symm).elim
    · by_cases apart : j = i → before ≠ []
      · exact (begins_apart j i before left (mark ++ out) other more introduced ended apart introduces behind.symm).elim
      · rw [Classical.not_imp, not_not] at apart
        exact .inl ⟨apart.1.symm, apart.2⟩

theorem scans_settled (i j : Introducer) (text out : List Char) (scans : Scans j text out)
    (settled : i ≠ j → Settled i text) : Settled i out := by
  induction scans with
  | ends =>
      intro before front value rest same meets
      obtain ⟨c, others, rfl⟩ := meets_opens i front value rest meets
      cases before <;> cases same
  | passes c rest out unmet further ih =>
      intro before front value after same meets
      cases before with
      | nil => exact passed_masked i j c rest out front value after unmet further settled same meets
      | cons d before =>
          rw [List.cons_append, List.cons.injEq] at same
          exact ih (fun other => settled_later i [c] rest (settled other)) before front value after same.2 meets
  | masks front value rest out meets further ih =>
      intro before front' value' after same meets'
      rcases begins_masked i j front out before front' _ meets.introduced meets'.introduced same with
        ⟨rfl, rfl⟩ | ⟨later, rfl, onward⟩
      · have marked := mark_meets i front value rest out meets (scans_head i rest out further)
        exact meets_unique i front' value' after front mark out meets' marked same.symm
      · refine ih (fun other => ?_) later front' value' after onward meets'
        refine settled_later i (front ++ value) rest ?_
        rw [List.append_assoc]
        exact settled other

theorem mask_settled (i j : Introducer) (text : List Char) (settled : i ≠ j → Settled i text) :
    Settled i (j.maskFrom 0 text) :=
  scans_settled i j text _ (mask_scans j text) settled

theorem settled_masked (i : Introducer) (text : List Char) (settled : Settled i text) : i.maskFrom 0 text = text :=
  settled_scans i text _ settled (mask_scans i text)

theorem chars_settled (i : Introducer) (cs : List Char) : Settled i (maskChars cs) := by
  have general : ∀ (js : List Introducer) (cs : List Char), i ∈ js ∨ Settled i cs →
      Settled i (js.foldl (fun cs j => j.maskFrom 0 cs) cs) := by
    intro js
    induction js with
    | nil => exact fun cs settled => settled.resolve_left nofun
    | cons j js ih =>
        intro cs settled
        apply ih
        by_cases own : i = j
        · exact .inr (mask_settled i j cs fun other => (other own).elim)
        · rcases settled with listed | settled
          · exact .inl ((List.mem_cons.mp listed).resolve_left own)
          · exact .inr (mask_settled i j cs fun _ => settled)
  exact general Introducer.all cs (.inl (by cases i <;> decide))

-- What is masked stays as it is, and all that is left behind introducers in it is marks.
theorem mask_stable (t : String) : mask (mask t) = mask t ∧
    ∀ (i : Introducer) (before rest : List Char) (n size : Nat), (mask t).toList = before ++ rest →
      i.match? rest = some (n, size) → (rest.drop n).take size = mark := by
  have settled : ∀ i, Settled i (mask t).toList := by
    intro i
    rw [mask, String.toList_ofList]
    exact chars_settled i t.toList
  constructor
  · have each : ∀ js : List Introducer, js.foldl (fun cs j => j.maskFrom 0 cs) (mask t).toList = (mask t).toList := by
      intro js
      induction js with
      | nil => rfl
      | cons j js ih => rw [List.foldl_cons, settled_masked j _ (settled j), ih]
    rw [mask, maskChars, each, String.ofList_toList]
  · intro i before rest n size text matched
    obtain ⟨front, value, after, rfl, rfl, rfl, meets⟩ := match_meets i rest n size matched
    rw [List.drop_left, List.take_left]
    exact settled i before front value after text meets

-- The value of the bearer runs on over a password that was masked before.
theorem mask_stable_nested : mask (mask "Bearer x,password=y") = mask "Bearer x,password=y" ∧
    Introducer.bearer.match? (mask "Bearer x,password=y").toList = some (7, 12) ∧
    ((mask "Bearer x,password=y").toList.drop 7).take 12 = mark :=
  ⟨(mask_stable "Bearer x,password=y").1, by decide,
    (mask_stable "Bearer x,password=y").2 .bearer [] _ 7 12 (List.nil_append _).symm (by decide)⟩

end HostingAdmin.Mask
