import HostingAdmin.Session.Call

set_option autoImplicit false

namespace HostingAdmin.Session

abbrev History := List (Nat × Note)

def Note.renewal? : Note → Option (String × Tokens)
  | .renewed stale t => some (stale, t)
  | _ => none

def Note.refusal? : Note → Option String
  | .refused _ _ token => some token
  | _ => none

-- A call wants its token replaced when it found it expired or had it refused.
def Note.rejection? : Note → Option String
  | .expired _ token => some token
  | .refused _ _ token => some token
  | _ => none

def Note.saved? : Note → Option Profile
  | .saving p => some p
  | _ => none

namespace History

def renewals (log : History) : List (String × Tokens) := log.filterMap fun n => n.2.renewal?

def own (log : History) (i : Nat) : List Note := (log.filter fun n => n.1 = i).map Prod.snd

def refusals (log : History) (i : Nat) : List String := (log.own i).filterMap Note.refusal?

def answered (log : History) : List Tokens := log.renewals.map Prod.snd

def saved (log : History) : List Profile := log.filterMap fun n => n.2.saved?

end History

-- The profile after some refreshes, the latest first.
def afterRenewals (p : Profile) (renewals : List Tokens) : Profile :=
  renewals.foldr (fun t p => p.renewed t) p

def stages (p : Profile) : List Tokens → List Profile
  | [] => []
  | t :: earlier => afterRenewals p (t :: earlier) :: stages p earlier

def latestAccess (p : Profile) (renewals : List Tokens) : String :=
  (renewals.head?.map Tokens.access).getD p.accessToken

-- The refresh token that an answer brings; an empty one is none at all.
def rotated? (t : Tokens) : Option String := t.refresh.filter fun r => r ≠ ""

def latestRefresh (p : Profile) (renewals : List Tokens) : String :=
  (renewals.findSome? rotated?).getD p.refreshToken

theorem renewed_tokens (p : Profile) (t : Tokens) :
    p.renewed t = { p with accessToken := t.access, refreshToken := (rotated? t).getD p.refreshToken } := by
  unfold Profile.renewed rotated?
  cases t.refresh with
  | none => rfl
  | some r => by_cases empty : r = "" <;> simp [empty, Option.filter]

theorem after_renewals (p : Profile) (renewals : List Tokens) :
    afterRenewals p renewals =
      { p with accessToken := latestAccess p renewals, refreshToken := latestRefresh p renewals } := by
  induction renewals with
  | nil => rfl
  | cons t earlier ih =>
      have step : afterRenewals p (t :: earlier) = (afterRenewals p earlier).renewed t := rfl
      rw [step, renewed_tokens, ih]
      cases refreshEq : rotated? t <;> simp [latestAccess, latestRefresh, refreshEq]

def History.grown (log : History) (i : Nat) (notes : List Note) : History :=
  (notes.map fun n => (i, n)).reverse ++ log

theorem grown_own (log : History) (i j : Nat) (notes : List Note) :
    (log.grown i notes).own j = if j = i then notes.reverse ++ log.own i else log.own j := by
  induction notes generalizing log with
  | nil => by_cases same : j = i <;> simp [History.grown, same]
  | cons n rest ih =>
      have step : log.grown i (n :: rest) = History.grown ((i, n) :: log) i rest := by
        simp [History.grown]
      rw [step, ih]
      by_cases same : j = i
      · simp [History.own, same]
      · have other : ¬ i = j := fun equal => same equal.symm
        simp [History.own, same, other]

theorem grown_renewals (log : History) (i : Nat) (notes : List Note) :
    (log.grown i notes).renewals = notes.reverse.filterMap Note.renewal? ++ log.renewals := by
  simp only [History.grown, History.renewals, List.filterMap_append, ← List.map_reverse, List.filterMap_map]
  rfl

theorem grown_saved (log : History) (i : Nat) (notes : List Note) :
    (log.grown i notes).saved = notes.reverse.filterMap Note.saved? ++ log.saved := by
  simp only [History.grown, History.saved, List.filterMap_append, ← List.map_reverse, List.filterMap_map]
  rfl

@[simp] theorem grown_nil (log : History) (i : Nat) : log.grown i [] = log := rfl

@[simp] theorem grown_cons (log : History) (i : Nat) (n : Note) (rest : List Note) :
    log.grown i (n :: rest) = History.grown ((i, n) :: log) i rest := by
  simp [History.grown]

@[simp] theorem own_cons (log : History) (i : Nat) (n : Note) :
    History.own ((i, n) :: log) i = n :: log.own i := by
  simp [History.own]

@[simp] theorem refusals_cons (log : History) (i : Nat) (n : Note) :
    History.refusals ((i, n) :: log) i = n.refusal?.toList ++ log.refusals i := by
  rw [History.refusals, own_cons, List.filterMap_cons]
  cases n.refusal? <;> rfl

@[simp] theorem renewals_cons (log : History) (i : Nat) (n : Note) :
    History.renewals ((i, n) :: log) = n.renewal?.toList ++ log.renewals := by
  rw [History.renewals, List.filterMap_cons]
  cases n.renewal? <;> rfl

@[simp] theorem answered_cons (log : History) (i : Nat) (n : Note) :
    History.answered ((i, n) :: log) = (n.renewal?.map Prod.snd).toList ++ log.answered := by
  rw [History.answered, renewals_cons]
  cases n.renewal? <;> rfl

end HostingAdmin.Session
