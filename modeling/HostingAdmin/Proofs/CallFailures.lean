import HostingAdmin.Proofs.Outcomes
import HostingAdmin.Proofs.SessionInvariant
import HostingAdmin.Session

set_option autoImplicit false

namespace HostingAdmin

-- The failures that any call, and any file, can come to: none of them goes unnoticed.
inductive Usual : Failure → Prop where
  | expected (f : Failure) (shown : f.isExpected = true) : Usual f
  | interrupted : Usual .interrupted

-- What an exchange comes to, unless it is answered.
inductive Hitch : Failure → Prop where
  | transport (fault : TransportFault) : Hitch (.transport fault)
  | interrupted : Hitch .interrupted

theorem hitch_usual (f : Failure) (hitch : Hitch f) : Usual f := by
  cases hitch with
  | transport fault => exact .expected _ rfl
  | interrupted => exact .interrupted

-- An answer that the server gives at some time.
def Given (server : Server) (r : Response) : Prop := ∃ before e, server before e = .ok r

-- The server leads a request on to where there is no URL.
def Astray (server : Server) (fault : UrlFault) : Prop :=
  ∃ before sent r, server before (.sent sent) = .ok r ∧ Wire.redirect? sent.url r = .error (.url fault)

-- The base of the URLs that are asked for as they are.
def Url.nowhere : Url := ⟨"", "", "", none, "", none, none⟩

-- What comes between a request and its answer.
inductive Unanswered (server : Server) : Failure → Prop where
  | hitch (f : Failure) (hitch : Hitch f) : Unanswered server f
  | astray (fault : UrlFault) (astray : Astray server fault) : Unanswered server (.url fault)

-- What a request comes to, unless it is answered.
inductive Unsent (server : Server) (base : Url) (r : Request) : Failure → Prop where
  | address (fault : UrlFault) (bad : base.below r.path = .error fault) : Unsent server base r (.url fault)
  | header (text : String) (found : Wire.notAscii? (r.headers.getD []) = some text) :
      Unsent server base r (.notAscii text)
  | unanswered (f : Failure) (unanswered : Unanswered server f) : Unsent server base r f

def Tokens.Has (t : Tokens) (token : String) : Prop := t.access = token ∨ t.refresh = some token

-- The tokens of a profile are known.
structure Profile.Holds (p : Profile) (known : String → Prop) : Prop where
  access : known p.accessToken
  refresh : known p.refreshToken

theorem Profile.renewed_holds (p : Profile) (t : Tokens) (known : String → Prop) (holds : p.Holds known)
    (granted : ∀ token, t.Has token → known token) : (p.renewed t).Holds known := by
  have access : known t.access := granted t.access (.inl rfl)
  rw [Profile.renewed]
  split
  · rename_i refresh there
    split
    · exact ⟨access, holds.refresh⟩
    · exact ⟨access, granted refresh (.inr there)⟩
  · exact ⟨access, holds.refresh⟩

theorem refusal_hitch (r : Refusal) : Hitch r.failure := by
  cases r with
  | fault f => exact .transport f
  | interrupt => exact .interrupted

namespace Wire

theorem redirect_cases (u : Url) (r : Response) (f : Failure) (failed : redirect? u r = .error f) :
    Hitch f ∨ ∃ fault, f = .url fault := by
  unfold redirect? at failed
  split at failed
  · cases failed
  · split at failed
    · cases failed
    · split at failed
      · cases failed
        exact .inl (.transport _)
      · dsimp only at failed
        split at failed
        · cases failed
          exact .inr ⟨_, rfl⟩
        · cases failed

theorem build_cases (server : Server) (base : Url) (client : List (String × String)) (r : Request) (f : Failure)
    (failed : build base client r = .error f) : Unsent server base r f := by
  unfold build at failed
  cases below : base.below r.path with
  | error fault =>
      rw [below] at failed
      cases failed
      exact .address fault below
  | ok u =>
      rw [below] at failed
      cases found : notAscii? (r.headers.getD []) with
      | some text =>
          simp only [mapped_ok, bind, Except.bind, found] at failed
          cases failed
          exact .header text found
      | none =>
          simp only [mapped_ok, bind, Except.bind, found] at failed
          cases failed

end Wire

section

variable {server : Server} {I : World → Prop} (sees : Action.Sees server I)

include sees

open HostingAdmin.Action

theorem exchange_ends (e : Exchange) :
    Ends I (fun r => ∃ before, server before e = .ok r) Hitch (exchange e) := by
  intro w holds
  have same := sees.server w holds
  simp only [exchange, perform_bind, perform_get, perform_set]
  have kept : I { w with exchanges := e :: w.exchanges } := sees.blind w _ rfl rfl rfl holds
  refine ends_except Refusal.failure (w.server w.exchanges e) ?_ ?_ _ kept
  · intro r answered
    exact ⟨w.exchanges, same ▸ answered⟩
  · exact fun refusal _ => refusal_hitch refusal

theorem once_ends (r : WireRequest) : Ends I (fun x => Given server x.1) (Unanswered server) (Wire.once r) := by
  rw [Wire.once]
  cases Wire.unsupported? r.url with
  | some fault =>
      refine ends_bind _ _ (ends_modify _ fun w holds => sees.blind w _ rfl rfl rfl holds) (fun _ _ => ?_)
      exact ends_throw _ (.hitch _ (.transport _))
  | none =>
      apply ends_bind _ _ (ends_weaken _ (exchange_ends sees _) (fun _ fine => fine) Unanswered.hitch)
      rintro response ⟨before, answered⟩
      refine ends_bind (Q := Any) _ _ (ends_except id _ (fun _ _ => trivial) fun f failed => ?_) ?_
      · rcases Wire.redirect_cases r.url response f failed with hitch | ⟨fault, rfl⟩
        · exact .hitch f hitch
        · exact .astray fault ⟨before, r, response, answered, failed⟩
      · exact fun next _ => ends_pure (response, next) ⟨before, .sent r, answered⟩

theorem follow_ends (r : WireRequest) (left : Nat) : Ends I (Given server) (Unanswered server) (Wire.follow r left) := by
  induction left generalizing r with
  | zero =>
      rw [Wire.follow]
      refine ends_bind _ _ (once_ends sees r) ?_
      rintro ⟨response, next⟩ given
      dsimp only
      split
      · exact ends_bind _ _ (ends_throw (Q := Any) _ (.hitch _ (.transport _))) fun _ _ => ends_pure response given
      · exact ends_pure response given
  | succ left ih =>
      rw [Wire.follow]
      refine ends_bind _ _ (once_ends sees r) ?_
      rintro ⟨response, next⟩ given
      cases next with
      | some url => exact ih _
      | none => exact ends_pure response given

theorem fetch_ends (url : String) (redirects : Bool) :
    Ends I (Given server) (Unsent server .nowhere (.plain "GET" url)) (Wire.get url redirects) := by
  rw [Wire.get]
  refine ends_bind _ _ (ends_except id _ (fun _ _ => trivial) (Wire.build_cases server _ _ _)) ?_
  intro r (_ : Any r)
  split
  · exact ends_weaken _ (follow_ends sees r _) (fun _ fine => fine) fun f lost => .unanswered f lost
  · refine ends_bind _ _ (ends_weaken _ (once_ends sees r) (fun _ fine => fine) fun f lost => .unanswered f lost) ?_
    exact fun x given => ends_pure x.1 given

theorem link_ends (base : Url) (r : Request) :
    Ends I (Given server) (Unsent server base r) ((Link.wire base).send r) := by
  rw [Link.send]
  refine ends_bind _ _ (record_ends sees _ _ _) (fun _ _ => ?_)
  refine ends_bind _ _ (ends_except id _ (fun _ _ => trivial) (Wire.build_cases server _ _ _)) ?_
  intro request (_ : Any request)
  refine ends_bind _ _ (ends_weaken _ (once_ends sees request) (fun _ fine => fine) fun f lost => .unanswered f lost) ?_
  rintro ⟨response, next⟩ given
  exact ends_bind _ _ (record_ends sees _ _ _) fun _ _ => ends_pure response given

end

namespace Session

-- How far a call is from its end.
def Phase.distance : Phase → Nat
  | .new => 7
  | .queued _ false => 6
  | .refreshing _ false => 5
  | .sending _ false => 4
  | .queued _ true => 3
  | .refreshing _ true => 2
  | .sending _ true => 1
  | .done _ => 0

def renewalRequest : Request := .plain "POST" "/auth/session"

-- What a call in a session fails with: what becomes of its request, or of the one for
-- new tokens, or of saving these.
inductive Uncalled (server : Server) (base : Url) (known : String → Prop) (unsaved : Failure → Prop) (r : Request) :
    Failure → Prop where
  | usual (f : Failure) (usual : Usual f) : Uncalled server base known unsaved r f
  | sent (token : String) (ours : known token) (f : Failure) (unsent : Unsent server base (r.authorized token) f) :
      Uncalled server base known unsaved r f
  | renewed (token : String) (ours : known token) (f : Failure)
      (unsent : Unsent server base (renewalRequest.authorized token) f) : Uncalled server base known unsaved r f
  | unsaved (f : Failure) (failed : unsaved f) : Uncalled server base known unsaved r f

-- A call is sent with a known token, and once it is over it has an answer of the server
-- or a failure of `P`.
structure Sound (server : Server) (known : String → Prop) (P : Failure → Prop) (c : Call) : Prop where
  ended : ∀ outcome, c.phase = .done outcome → Action.Judged (Given server) P outcome
  bears : ∀ token again, c.phase = .sending token again → known token

-- A move of a call towards such an end.
structure Closer (server : Server) (known : String → Prop) (P : Failure → Prop) (c : Call) (m : Move) : Prop where
  sound : Sound server known P m.call
  holds : m.profile.Holds known
  nearer : m.call.phase.distance < c.phase.distance

def Leads (server : Server) (known : String → Prop) (P : Failure → Prop) (p : Profile) (c : Call) (e : Event) : Prop :=
  ∃ m, c.react p e = some m ∧ Closer server known P c m

theorem granted_cases (server : Server) (P : Failure → Prop) (usual : ∀ f, Usual f → P f)
    (reply : Except Failure Response) (fair : Action.Judged (Given server) P reply) (f : Failure)
    (failed : granted reply = .error f) : P f := by
  cases reply with
  | error g =>
      cases failed
      exact fair.2 f rfl
  | ok r =>
      simp only [granted, Except.bind, readTokens] at failed
      split at failed
      · cases parsed : Tokens.parse r.body with
        | error fault =>
            rw [parsed] at failed
            cases failed
            exact usual _ (.expected _ rfl)
        | ok t =>
            rw [parsed] at failed
            cases failed
      · cases failed
        exact usual _ (.expected _ rfl)

section

variable {server : Server} {known : String → Prop} {P : Failure → Prop}

theorem new_sound (r : Request) : Sound server known P ⟨r, .new⟩ where
  ended _ same := by cases same
  bears _ _ same := by cases same

theorem queued_sound (r : Request) (stale : String) (again : Bool) : Sound server known P ⟨r, .queued stale again⟩ where
  ended _ same := by cases same
  bears _ _ same := by cases same

theorem refreshing_sound (r : Request) (stale : String) (again : Bool) :
    Sound server known P ⟨r, .refreshing stale again⟩ where
  ended _ same := by cases same
  bears _ _ same := by cases same

theorem transmit_sound (c : Call) (p : Profile) (again : Bool) (notes : List Note) (holds : p.Holds known) :
    Sound server known P (c.transmit p again notes).call where
  ended _ same := by cases same
  bears token again same := by
    cases same
    exact holds.access

theorem finish_sound (c : Call) (p : Profile) (outcome : Except Failure Response) (notes : List Note)
    (fair : Action.Judged (Given server) P outcome) : Sound server known P (c.finish p outcome notes).call where
  ended other same := by
    cases same
    exact fair
  bears _ _ same := by cases same

theorem failure_judged (f : Failure) (fails : P f) : Action.Judged (Given server) P (.error f) := by
  refine ⟨?_, ?_⟩
  · intro r same
    cases same
  · intro g same
    cases same
    exact fails

theorem start_leads (p : Profile) (r : Request) (now : Rat) (holds : p.Holds known) :
    Leads server known P p ⟨r, .new⟩ (.start now) := by
  refine ⟨_, rfl, ?_⟩
  rw [Call.start]
  split
  · exact ⟨queued_sound _ _ _, holds, show 6 < 7 by decide⟩
  · exact ⟨transmit_sound _ _ _ _ holds, holds, show 4 < 7 by decide⟩

theorem enter_leads (p : Profile) (r : Request) (stale : String) (again : Bool) (holds : p.Holds known) :
    Leads server known P p ⟨r, .queued stale again⟩ .enter := by
  refine ⟨_, rfl, ?_⟩
  rw [Call.enter]
  split
  · exact ⟨refreshing_sound _ _ _, holds, by cases again <;> simp [Phase.distance]⟩
  · exact ⟨transmit_sound _ _ _ _ holds, holds, by cases again <;> simp [Call.transmit, Phase.distance]⟩

variable (usual : ∀ f, Usual f → P f)
  (grants : ∀ r t, Given server r → readTokens r = .ok t → ∀ token, t.Has token → known token)

include grants

theorem granted_known (reply : Except Failure Response) (fair : Action.Judged (Given server) P reply) (t : Tokens)
    (answered : granted reply = .ok t) : ∀ token, t.Has token → known token := by
  cases reply with
  | error f => cases answered
  | ok r => exact grants r t (fair.1 r rfl) answered

include usual

theorem refreshed_leads (p : Profile) (r : Request) (stale : String) (again : Bool) (reply : Except Failure Response)
    (saved : Except Failure Unit) (holds : p.Holds known) (fair : Action.Judged (Given server) P reply)
    (kept : ∀ f, saved = .error f → P f) :
    Leads server known P p ⟨r, .refreshing stale again⟩ (.answer reply saved) := by
  refine ⟨_, rfl, ?_⟩
  have ahead : 0 < (Phase.refreshing stale again).distance := by cases again <;> simp [Phase.distance]
  rw [Call.refreshed]
  cases grantedEq : granted reply with
  | error f =>
      have fails := granted_cases server P usual reply fair f grantedEq
      exact ⟨finish_sound _ p _ _ (failure_judged f fails), holds, ahead⟩
  | ok t =>
      have renewed := Profile.renewed_holds p t known holds (granted_known grants reply fair t grantedEq)
      cases saved with
      | error f => exact ⟨finish_sound _ _ _ _ (failure_judged f (kept f rfl)), renewed, ahead⟩
      | ok done =>
          exact ⟨transmit_sound _ _ _ _ renewed, renewed, by cases again <;> simp [Call.transmit, Phase.distance]⟩

omit usual grants

theorem answered_leads (p : Profile) (r : Request) (token : String) (again : Bool) (reply : Except Failure Response)
    (saved : Except Failure Unit) (holds : p.Holds known) (fair : Action.Judged (Given server) P reply) :
    Leads server known P p ⟨r, .sending token again⟩ (.answer reply saved) := by
  refine ⟨_, rfl, ?_⟩
  have ahead : 0 < (Phase.sending token again).distance := by cases again <;> simp [Phase.distance]
  cases reply with
  | error f => exact ⟨finish_sound _ p _ _ fair, holds, ahead⟩
  | ok response =>
      simp only [Call.answered]
      split
      · rename_i refused
        rw [refused.2]
        exact ⟨queued_sound _ _ _, holds, show 3 < 4 by decide⟩
      · exact ⟨finish_sound _ p _ _ fair, holds, ahead⟩

end

-- A condition on the world under which its tokens are known, and others that are known
-- may take their place.
structure Houses (server : Server) (known : String → Prop) (I : World → Prop) : Prop extends Action.Sees server I where
  tokens : ∀ w, I w → w.profile.Holds known
  adopts : ∀ w v, v.server = w.server → v.files = w.files → v.profile.Holds known → I w → I v

open HostingAdmin.Action in
theorem serves_houses (server : Server) : Houses server (fun _ => True) (Serves server) where
  toSees := serves_sees server
  tokens _ _ := ⟨trivial, trivial⟩
  adopts _ _ same _ _ holds := same.trans holds

section

variable {server : Server} {I : World → Prop} (sees : Action.Sees server I)

include sees

open HostingAdmin.Action

theorem log_ends {P : Failure → Prop} (n : Note) : Ends I Any P n.log := by
  cases n with
  | expired path token => exact record_ends sees _ _ _
  | refused method path token => exact record_ends sees _ _ _
  | replacedBefore => exact record_ends sees _ _ _
  | completed => exact record_ends sees _ _ _
  | _ => exact ends_pure () trivial

end

section

variable {server : Server} {known : String → Prop} {I : World → Prop} (houses : Houses server known I)
  (grants : ∀ r t, Given server r → readTokens r = .ok t → ∀ token, t.Has token → known token)
  (base : Url) (save : Profile → Action Unit) {unsaved : Failure → Prop}
  (saves : ∀ p : Profile, p.Holds known → Action.Ends I Action.Any unsaved (save p)) (r : Request)

include houses grants saves

open HostingAdmin.Action

theorem event_ends (p : Profile) (c : Call) (own : c.request = r)
    (sound : Sound server known (Uncalled server base known unsaved r) c) (holds : p.Holds known)
    (running : 0 < c.phase.distance) :
    Ends I (Leads server known (Uncalled server base known unsaved r) p c) (Uncalled server base known unsaved r)
      (Channel.nextEvent ⟨.wire base, save⟩ p c) := by
  have sees := houses.toSees
  have usual : ∀ f, Usual f → Uncalled server base known unsaved r f := fun f => .usual f
  obtain ⟨request, phase⟩ := c
  obtain rfl : r = request := own.symm
  cases phase with
  | new =>
      have timed : Ends I Any (Uncalled server base known unsaved r) now :=
        ends_bind get (fun w => pure w.clock) ends_get fun w _ => ends_pure w.clock trivial
      exact ends_bind _ _ timed fun now _ => ends_pure _ (start_leads p r now holds)
  | queued stale again => exact ends_pure _ (enter_leads p r stale again holds)
  | sending token again =>
      have ours := sound.bears token again rfl
      have sends : Ends I (Given server) (Uncalled server base known unsaved r) _ :=
        ends_weaken _ (link_ends sees base (r.authorized token)) (fun _ fine => fine) fun f => .sent token ours f
      refine ends_bind _ _ (ends_outcome _ sends) (fun reply fair => ?_)
      exact ends_pure _ (answered_leads p r token again reply _ holds fair)
  | done outcome => exact (Nat.lt_irrefl 0 running).elim
  | refreshing stale again =>
      have sends : Ends I (Given server) (Uncalled server base known unsaved r) _ :=
        ends_weaken _ (link_ends sees base (refreshRequest p)) (fun _ fine => fine)
          fun f => .renewed p.refreshToken holds.refresh f
      refine ends_bind _ _ (ends_outcome _ sends) (fun reply fair => ?_)
      split
      · exact ends_pure _ (refreshed_leads usual grants p r stale again reply _ holds fair
          fun f same => by cases same)
      · rename_i t answered
        have renewed := Profile.renewed_holds p t known holds (granted_known grants reply fair t answered)
        refine ends_bind _ _ (ends_modify _ fun w => houses.adopts w _ rfl rfl renewed) (fun _ _ => ?_)
        refine ends_bind _ _ (ends_outcome _ (saves _ renewed)) (fun saved kept => ?_)
        exact ends_pure _ (refreshed_leads usual grants p r stale again reply saved holds fair
          fun f failed => .unsaved f (kept.2 f failed))

theorem advance_ends (c : Call) (own : c.request = r)
    (sound : Sound server known (Uncalled server base known unsaved r) c) (running : 0 < c.phase.distance) :
    Ends I (fun d => d.request = r ∧ Sound server known (Uncalled server base known unsaved r) d ∧
      d.phase.distance < c.phase.distance) (Uncalled server base known unsaved r)
      (Channel.advance ⟨.wire base, save⟩ c) := by
  have sees := houses.toSees
  rw [Channel.advance]
  refine ends_bind _ _ ends_get (fun w here => ?_)
  refine ends_bind _ _ (event_ends houses grants base save saves r w.profile c own sound (houses.tokens w here) running) ?_
  rintro e ⟨m, moved, closer⟩
  rw [moved]
  refine ends_bind _ _ (ends_modify _ fun v => houses.adopts v _ rfl rfl closer.holds) (fun _ _ => ?_)
  refine ends_bind _ _ (ends_each m.notes Note.log fun n _ => log_ends sees n) (fun _ _ => ?_)
  exact ends_pure m.call ⟨(react_request c w.profile e m moved).trans own, closer.sound, closer.nearer⟩

theorem drive_ends (fuel : Nat) (c : Call) (own : c.request = r)
    (sound : Sound server known (Uncalled server base known unsaved r) c) (enough : c.phase.distance < fuel) :
    Ends I (Given server) (Uncalled server base known unsaved r) (Channel.drive ⟨.wire base, save⟩ fuel c) := by
  induction fuel generalizing c with
  | zero => exact (Nat.not_lt_zero _ enough).elim
  | succ fuel ih =>
      rw [Channel.drive]
      split
      · rename_i outcome ended
        obtain ⟨fine, fails⟩ := sound.ended outcome ended
        exact ends_except id outcome fine fails
      · rename_i open_
        have running : 0 < c.phase.distance := by
          obtain ⟨request, phase⟩ := c
          cases phase with
          | done outcome => exact (open_ outcome rfl).elim
          | new => exact show 0 < 7 by decide
          | queued stale again => cases again <;> simp [Phase.distance]
          | refreshing stale again => cases again <;> simp [Phase.distance]
          | sending token again => cases again <;> simp [Phase.distance]
        refine ends_bind _ _ (advance_ends houses grants base save saves r c own sound running) ?_
        exact fun d reached => ih d reached.1 reached.2.1 (by omega)

-- A call ends with an answer of the server or fails as calls do; it never stalls.
theorem send_ends :
    Ends I (Given server) (Uncalled server base known unsaved r) (Channel.send ⟨.wire base, save⟩ r) :=
  drive_ends houses grants base save saves r Channel.maxMoves ⟨r, .new⟩ rfl (new_sound r) (show 7 < 9 by decide)

end

open HostingAdmin.Action in
theorem notes_logged (notes : List Note) (w : World) : ∃ v, (notes.forM Note.log).perform w = (.ok (), v) := by
  have never : Ends (Serves w.server) Any (fun _ => False) (notes.forM Note.log) :=
    ends_each notes Note.log fun n _ => log_ends (serves_sees w.server) n
  obtain ⟨_, _, fails⟩ := never w rfl
  rcases performed : (notes.forM Note.log).perform w with ⟨f | ⟨⟩, v⟩
  · rw [performed] at fails
    exact (fails f rfl).elim
  · exact ⟨v, rfl⟩

end Session

end HostingAdmin
