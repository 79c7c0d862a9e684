import HostingAdmin.Proofs.CredentialHistory
import HostingAdmin.Proofs.SessionExports

set_option autoImplicit false

namespace HostingAdmin

open CommandLine Session

def Exchange.LogsIn (e : Exchange) : Prop :=
  ∃ base l sent, Wire.build base Exchange.client (Account.logIn l).request = .ok sent ∧ e = .sent sent

-- Calls of a session in any order, and the files meanwhile: new credentials are saved as they come,
-- and nobody else touches the profile file.
inductive Overlap (cfg : Path) (p : Profile) (requests : List Request) (w : World) :
    List (Except Failure Response) → State → World → Prop where
  | rest : Overlap cfg p requests w [] (.start p requests) w
  | move (replies : List (Except Failure Response)) (s t : State) (v : World) (i : Nat) (e : Event)
      (before : Overlap cfg p requests w replies s v) (moved : s.step i e = some t)
      (unsaved : History.saved t.notes = History.saved s.notes) :
      Overlap cfg p requests w (s.refreshReply i e ++ replies) t v
  | save (replies : List (Except Failure Response)) (s t : State) (v : World) (i : Nat)
      (reply : Except Failure Response) (q : Profile) (before : Overlap cfg p requests w replies s v)
      (moved : s.step i (.answer reply ((Profile.save cfg q).perform v).1) = some t)
      (saved : History.saved t.notes = q :: History.saved s.notes) :
      Overlap cfg p requests w (s.refreshReply i (.answer reply ((Profile.save cfg q).perform v).1) ++ replies) t
        ((Profile.save cfg q).perform v).2
  | aside (replies : List (Except Failure Response)) (s : State) (u v : World)
      (before : Overlap cfg p requests w replies s u) (other : v.files.read cfg = u.files.read cfg) :
      Overlap cfg p requests w replies s v

-- The program is run, or a session of it has its calls overlap.
inductive Visit where
  | ran (e : Environment) (args : List String) (before : World)
  | overlapping (replies : List (Except Failure Response)) (s : State) (before after : World)

namespace Visit

def found : Visit → FileTree
  | .ran _ _ w => w.files
  | .overlapping _ _ w _ => w.files

def left : Visit → FileTree
  | .ran e args w => ((run e args).perform w).2.files
  | .overlapping _ _ _ v => v.files

def Grants : Visit → Tokens → Prop
  | .ran e args w, t => Brings w.server ((run e args).perform w).2.exchanges t
  | .overlapping replies _ _ _, t => t ∈ grants replies

-- A request that was sent, and the tokens that refreshes had been answered with by then.
inductive Sends : Visit → Exchange → (Tokens → Prop) → Prop where
  | ran (e : Environment) (args : List String) (w : World) (late early : List Exchange) (x : Exchange)
      (sent : ((run e args).perform w).2.exchanges = late ++ x :: early) :
      Sends (.ran e args w) x (Brings w.server early)
  | overlapping (replies : List (Except Failure Response)) (s : State) (w v : World) (late early : History) (i : Nat)
      (n : Note) (r : Request) (noted : s.notes = late ++ (i, n) :: early) (sent : n = .sent r ∨ n = .asked r) :
      Sends (.overlapping replies s w v) (.asked r) (· ∈ History.answered early)

def SignsIn : Visit → Tokens → Prop
  | .ran e args w, t => ∃ i l x r, Invocation.parse args = .ok i ∧ i.command = .login l ∧
      ((run e args).perform w).1 = .ok 0 ∧ ((run e args).perform w).2.exchanges = [x] ∧
      w.server [] x = .ok r ∧ (Account.logIn (intended l)).read r = .ok t
  | .overlapping _ _ _ _, _ => False

-- A logout, whatever it comes to, unless it does not even get to know where the profile is.
def SignsOut : Visit → Prop
  | .ran e args w => ∃ i s, Invocation.parse args = .ok i ∧ i.command = .logout ∧
      ((Settings.load e i.overrides).perform w).1 = .ok s
  | .overlapping _ _ _ _ => False

-- An invocation on its own history of exchanges that uses this path and writes nothing else there.
def Uses (cfg : Path) : Visit → Prop
  | .ran e args w => w.exchanges = [] ∧ ∀ i s, Invocation.parse args = .ok i →
      ((Settings.load e i.overrides).perform w).1 = .ok s → s.configPath = cfg ∧ i.command.Spares s w
  | .overlapping replies s w v => ∃ settings send opened requests, settings.configPath = cfg ∧
      (openSession settings).perform w = (.ok send, opened) ∧
      Overlap cfg opened.profile requests opened replies s v

end Visit

-- Invocations with one profile path. There is no profile file at first, and each of them finds at
-- most the one that was left by the one before.
inductive Shares (cfg : Path) : List Visit → Prop where
  | none : Shares cfg []
  | visit (v : Visit) (earlier : List Visit) (before : Shares cfg earlier) (uses : v.Uses cfg)
      (found : ∀ body, v.found.read cfg = .ok body → ∃ u ∈ earlier.head?, u.left.read cfg = .ok body) :
      Shares cfg (v :: earlier)

-- The last login that went well, its tokens, and what came after it.
def LastLogin (visits later : List Visit) (t : Tokens) : Prop :=
  ∃ v earlier, visits = later ++ v :: earlier ∧ v.SignsIn t ∧ ∀ u ∈ later, ∀ other, ¬ u.SignsIn other

-- A token of the last login, or of a refresh after it.
def Current (visits : List Visit) (granted : Tokens → Prop) (token : String) : Prop :=
  ∃ later t, LastLogin visits later t ∧
    (t.Has token ∨ ∃ o, (granted o ∨ ∃ u ∈ later, u.Grants o) ∧ o.Has token)

def SignedOut (visits : List Visit) : Prop :=
  ∃ later v earlier, visits = later ++ v :: earlier ∧ v.SignsOut ∧ ∀ u ∈ later, ∀ t, ¬ u.SignsIn t

def Held (cfg : Path) (visits : List Visit) (files : FileTree) : Prop :=
  Action.hasNull cfg = false → ∀ body, files.read cfg = .ok body → cfg.parts ≠ [] ∧ ∃ p : Profile,
    body = p.fileText ∧ (∀ token, token ≠ "" → token = p.accessToken ∨ token = p.refreshToken →
      Current visits (fun _ => False) token) ∧ (SignedOut visits → p.accessToken = "")

section

variable (v : Visit) (earlier : List Visit)

theorem signed_current (t : Tokens) (token : String) (signs : v.SignsIn t) (has : t.Has token)
    (granted : Tokens → Prop) : Current (v :: earlier) granted token :=
  ⟨[], t, ⟨v, earlier, rfl, signs, fun _ member => nomatch member⟩, .inl has⟩

theorem current_later (quiet : ∀ t, ¬ v.SignsIn t) (granted : Tokens → Prop) (grants : ∀ o, granted o → v.Grants o)
    (token : String) (current : Current earlier granted token) :
    Current (v :: earlier) (fun _ => False) token := by
  obtain ⟨later, t, ⟨u, older, whole, signs, none⟩, source⟩ := current
  have last : LastLogin (v :: earlier) (v :: later) t := by
    refine ⟨u, older, by rw [whole, List.cons_append], signs, ?_⟩
    intro x member
    rcases List.mem_cons.mp member with rfl | after
    · exact quiet
    · exact none x after
  refine ⟨v :: later, t, last, ?_⟩
  rcases source with own | ⟨o, here | ⟨x, member, grantedBefore⟩, has⟩
  · exact .inl own
  · exact .inr ⟨o, .inr ⟨v, List.mem_cons_self, grants o here⟩, has⟩
  · exact .inr ⟨o, .inr ⟨x, List.mem_cons_of_mem v member, grantedBefore⟩, has⟩

theorem signed_out (signed : SignedOut (v :: earlier)) :
    v.SignsOut ∨ SignedOut earlier ∧ ∀ t, ¬ v.SignsIn t := by
  obtain ⟨later, u, older, whole, out, none⟩ := signed
  cases later with
  | nil =>
      cases whole
      exact .inl out
  | cons x rest =>
      cases whole
      refine .inr ⟨⟨rest, u, older, rfl, out, ?_⟩, none v List.mem_cons_self⟩
      exact fun y member => none y (List.mem_cons_of_mem v member)

theorem held_same (cfg : Path) (files : FileTree) (held : Held cfg earlier files)
    (same : Action.hasNull cfg = false → ∀ body, v.left.read cfg = .ok body → files.read cfg = .ok body)
    (quiet : ∀ t, ¬ v.SignsIn t) (stays : ¬ v.SignsOut) : Held cfg (v :: earlier) v.left := by
  intro clean body there
  obtain ⟨named, p, text, current, out⟩ := held clean body (same clean body there)
  refine ⟨named, p, text, ?_, ?_⟩
  · intro token some among
    exact current_later v earlier quiet _ (fun _ never => never.elim) token (current token some among)
  · intro signed
    exact (signed_out v earlier signed).elim (fun here => (stays here).elim) fun before => out before.1

end

end HostingAdmin
