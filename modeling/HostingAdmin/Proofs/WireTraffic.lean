import HostingAdmin.Hosting.Export
import HostingAdmin.Proofs.Actions

set_option autoImplicit false

namespace HostingAdmin

namespace Text

-- The methods are spelled as they are sent.
@[simp] theorem upper_get : upperAll "GET" = "GET" := rfl

@[simp] theorem upper_post : upperAll "POST" = "POST" := rfl

@[simp] theorem upper_put : upperAll "PUT" = "PUT" := rfl

@[simp] theorem upper_patch : upperAll "PATCH" = "PATCH" := rfl

@[simp] theorem upper_delete : upperAll "DELETE" = "DELETE" := rfl

-- The names of the headers that requests have, and those of them that are looked up.
@[simp] theorem lower_agent : lowerAscii "User-Agent" = "user-agent" := rfl

@[simp] theorem lower_bearer : lowerAscii "Authorization" = "authorization" := rfl

@[simp] theorem lower_type : lowerAscii "Content-Type" = "content-type" := rfl

@[simp] theorem lower_lookup : lowerAscii "authorization" = "authorization" := rfl

end Text

namespace Exchange

def client : List (String × String) := [("User-Agent", Program.agent)]

-- An exchange puts a request to some address.
def Puts (r : Request) (e : Exchange) : Prop :=
  e = .asked r ∨ ∃ base sent, Wire.build base client r = .ok sent ∧ e = .sent sent

end Exchange

-- What asks for contents and says nothing else.
def WireRequest.Bare (r : WireRequest) : Prop := r.method = "GET" ∧ r.headers = [] ∧ r.body = []

namespace Wire

theorem build_whole (base : Url) (client : List (String × String)) (r : Request) (sent : WireRequest)
    (built : build base client r = .ok sent) : ∃ u, base.below r.path = .ok u ∧
      sent = ⟨Text.upperAll r.method, u.withParams (r.params.getD []), mergeHeaders client (r.headers.getD []),
        r.body.getD []⟩ := by
  unfold build at built
  cases below : base.below r.path with
  | error fault =>
      rw [below] at built
      cases built
  | ok u =>
      rw [below] at built
      cases found : notAscii? (r.headers.getD []) with
      | some text =>
          simp only [mapped_ok, bind, Except.bind, found] at built
          cases built
      | none =>
          simp only [mapped_ok, bind, Except.bind, found] at built
          cases built
          exact ⟨u, rfl, rfl⟩

theorem build_parts (base : Url) (client : List (String × String)) (r : Request) (sent : WireRequest)
    (built : build base client r = .ok sent) : sent.method = Text.upperAll r.method ∧
      sent.headers = mergeHeaders client (r.headers.getD []) ∧ sent.body = r.body.getD [] := by
  obtain ⟨u, _, rfl⟩ := build_whole base client r sent built
  exact ⟨rfl, rfl, rfl⟩

-- The first request for the contents at a URL.
def asking (url : String) : Except Failure WireRequest :=
  build ⟨"", "", "", none, "", none, none⟩ [] (.plain "GET" url)

theorem asking_bare (url : String) (r : WireRequest) (asked : asking url = .ok r) : r.Bare := by
  obtain ⟨method, headers, body⟩ := build_parts _ _ _ r asked
  exact ⟨method.trans Text.upper_get, headers, body⟩

end Wire

namespace Action

variable {R : World → World → Prop} (passage : Passage R)

include passage

theorem within_exchange (e : Exchange) (sends : ∀ w, R w { w with exchanges := e :: w.exchanges }) :
    Within R (exchange e) := by
  intro w
  simp only [exchange, perform_bind, perform_get, perform_set]
  have answered := within_except passage Refusal.failure (w.server w.exchanges e)
    { w with exchanges := e :: w.exchanges }
  exact passage.chain w _ _ (sends w) answered

theorem within_once (r : WireRequest) (sends : ∀ w, R w { w with exchanges := .sent r :: w.exchanges }) :
    Within R (Wire.once r) := by
  rw [Wire.once]
  cases Wire.unsupported? r.url with
  | some fault => exact within_bind passage _ _ (within_modify _ sends) fun _ => within_throw passage _
  | none =>
      apply within_bind passage _ _ (within_exchange passage _ sends)
      intro response
      exact within_bind passage _ _ (within_except passage id _) fun _ => within_pure passage _

theorem within_wire (base : Url) (r : Request) (sends : ∀ w request, Wire.build base Exchange.client r = .ok request →
    R w { w with exchanges := .sent request :: w.exchanges }) : Within R ((Link.wire base).send r) := by
  apply within_bind passage _ _ (within_record passage _ _ _)
  intro _
  refine within_value passage id _ _ (fun request built => ?_)
  apply within_bind passage _ _ (within_once passage request fun w => sends w request built)
  intro answer
  exact within_bind passage _ _ (within_record passage _ _ _) fun _ => within_pure passage _

theorem within_link (link : Link) (r : Request)
    (sends : ∀ w e, Exchange.Puts r e → R w { w with exchanges := e :: w.exchanges }) : Within R (link.send r) := by
  cases link with
  | direct => exact within_exchange passage _ fun w => sends w _ (.inl rfl)
  | closed => exact within_throw passage _
  | wire base => exact within_wire passage base r fun w request built => sends w _ (.inr ⟨base, request, built, rfl⟩)

section

variable (sends : ∀ w (r : WireRequest), r.Bare → R w { w with exchanges := .sent r :: w.exchanges })

include sends

theorem within_follow (r : WireRequest) (bare : r.Bare) (left : Nat) : Within R (Wire.follow r left) := by
  have once : ∀ r : WireRequest, r.Bare → Within R (Wire.once r) :=
    fun r bare => within_once passage r fun w => sends w r bare
  induction left generalizing r with
  | zero =>
      apply within_bind passage _ _ (once r bare)
      intro x
      obtain ⟨response, next⟩ := x
      dsimp only
      split
      · exact within_bind passage _ _ (within_throw passage _) fun _ => within_pure passage response
      · exact within_pure passage response
  | succ left ih =>
      apply within_bind passage _ _ (once r bare)
      intro x
      obtain ⟨response, next⟩ := x
      cases next with
      | some url => exact ih { r with url } bare
      | none => exact within_pure passage response

theorem within_asked (url : String) (redirects : Bool) : Within R (Wire.get url redirects) := by
  refine within_value passage id _ _ (fun r asked => ?_)
  have bare := Wire.asking_bare url r asked
  split
  · exact within_follow passage sends r bare _
  · exact within_bind passage _ _ (within_once passage r fun w => sends w r bare) fun x => within_pure passage x.1

theorem within_retried (waits : ∀ w (n : Nat), R w { w with waits := n :: w.waits }) (url : String) (redirects : Bool)
    (tries pause : Nat) : Within R (Hosting.fetch url redirects tries pause) := by
  have once := within_asked passage sends url redirects
  induction tries generalizing pause with
  | zero => exact once
  | succ tries ih =>
      apply within_bind passage _ _ (within_outcome _ once)
      intro outcome
      split
      · exact within_pure passage _
      · split
        · exact within_bind passage _ _ (within_modify _ fun w => waits w pause) fun _ => ih _
        · exact within_throw passage _
      · exact within_throw passage _

theorem within_download (waits : ∀ w (n : Nat), R w { w with waits := n :: w.waits }) (url : String)
    (redirects : Bool) : Within R (Hosting.download url redirects) := by
  apply within_bind passage _ _ (within_retried passage sends waits url redirects _ _)
  intro r
  split
  · exact within_pure passage _
  · exact within_throw passage _

end

end Action

-- Requests are added to the history, and the server stays.
def Grows (w v : World) : Prop := v.server = w.server ∧ w.exchanges <:+ v.exchanges

theorem grows_passage : Action.Passage Grows where
  stay _ := ⟨rfl, List.suffix_rfl⟩
  chain _ _ _ first second := ⟨second.1.trans first.1, first.2.trans second.2⟩
  book _ _ _ := ⟨rfl, List.suffix_rfl⟩

theorem grows_sends (w : World) (e : Exchange) : Grows w { w with exchanges := e :: w.exchanges } :=
  ⟨rfl, List.suffix_cons e w.exchanges⟩

theorem grows_writes (w : World) (files : FileTree) : Grows w { w with files } := ⟨rfl, List.suffix_rfl⟩

-- Exchanges are added, each of them as it should be.
def Adds (P : Exchange → Prop) (w v : World) : Prop := ∃ sent, v.exchanges = sent ++ w.exchanges ∧ ∀ e ∈ sent, P e

section

variable (P : Exchange → Prop)

theorem adds_kept (w v : World) (same : v.exchanges = w.exchanges) : Adds P w v := ⟨[], same, by simp⟩

theorem adds_passage : Action.Passage (Adds P) where
  stay w := adds_kept P w w rfl
  chain u v w first second := by
    obtain ⟨early, before, fine⟩ := first
    obtain ⟨late, after, good⟩ := second
    exact ⟨late ++ early, by rw [after, before, List.append_assoc], List.forall_mem_append.mpr ⟨good, fine⟩⟩
  book w log marks := adds_kept P w _ rfl

theorem adds_bind {α β : Type} (a : Action α) (f : α → Action β) (w : World) (first : Adds P w (a.perform w).2)
    (after : ∀ x v, a.perform w = (.ok x, v) → Adds P v ((f x).perform v).2) :
    Adds P w ((a >>= f).perform w).2 := by
  rw [Action.perform_bind]
  rcases performed : a.perform w with ⟨result, v⟩
  rw [performed] at first
  cases result with
  | ok x => exact (adds_passage P).chain w v _ first (after x v performed)
  | error f => exact first

end

-- An answer that a request got from the server at some time.
def Heard (server : Server) (history : List Exchange) (r : WireRequest) (x : Response) : Prop :=
  ∃ early, .sent r :: early <:+ history ∧ server early (.sent r) = .ok x

-- One request leads to another when the answers to it and to those in between are
-- redirects.
inductive Led (server : Server) (history : List Exchange) : WireRequest → WireRequest → Prop where
  | rest (r : WireRequest) : Led server history r r
  | redirected (r last : WireRequest) (x : Response) (url : Url) (heard : Heard server history r x)
      (next : Wire.redirect? r.url x = .ok (some url)) (further : Led server history { r with url } last) :
      Led server history r last

-- The contents that a URL was answered with.
def Answered (server : Server) (history : List Exchange) (redirects : Bool) (url : String) (body : Bytes) : Prop :=
  ∃ first last x, Wire.asking url = .ok first ∧ (if redirects then Led server history first last else last = first) ∧
    Heard server history last x ∧ x.status = Status.ok ∧ x.body = body

theorem heard_later (server : Server) (history more : List Exchange) (r : WireRequest) (x : Response)
    (later : history <:+ more) (heard : Heard server history r x) : Heard server more r x := by
  obtain ⟨early, before, answered⟩ := heard
  exact ⟨early, before.trans later, answered⟩

theorem led_later (server : Server) (history more : List Exchange) (r last : WireRequest)
    (later : history <:+ more) (led : Led server history r last) : Led server more r last := by
  induction led with
  | rest r => exact .rest r
  | redirected r last x url heard next _ ih =>
      exact .redirected r last x url (heard_later server history more r x later heard) next ih

theorem answered_later (server : Server) (history more : List Exchange) (redirects : Bool) (url : String)
    (body : Bytes) (later : history <:+ more) (answered : Answered server history redirects url body) :
    Answered server more redirects url body := by
  obtain ⟨first, last, x, asked, led, heard, good, same⟩ := answered
  refine ⟨first, last, x, asked, ?_, heard_later server history more last x later heard, good, same⟩
  cases redirects with
  | false => exact led
  | true => exact led_later server history more first last later led

namespace Wire

theorem once_sends (r : WireRequest) (w : World) : ∃ result v, (once r).perform w = (result, v) ∧
    v.server = w.server ∧ v.exchanges = .sent r :: w.exchanges ∧
    ∀ x, result = .ok x → w.server w.exchanges (.sent r) = .ok x.1 ∧ redirect? r.url x.1 = .ok x.2 := by
  rw [once]
  cases unsupported? r.url with
  | some fault => exact ⟨_, _, rfl, rfl, rfl, fun _ same => by cases same⟩
  | none =>
      cases answered : w.server w.exchanges (.sent r) with
      | error refusal =>
          refine ⟨.error refusal.failure, { w with exchanges := .sent r :: w.exchanges }, ?_, rfl, rfl,
            fun _ same => by cases same⟩
          simp [Action.perform_bind, Action.exchange, answered, Action.ofExcept]
      | ok response =>
          cases nextEq : redirect? r.url response with
          | error f =>
              refine ⟨.error f, { w with exchanges := .sent r :: w.exchanges }, ?_, rfl, rfl,
                fun _ same => by cases same⟩
              simp [Action.perform_bind, Action.exchange, answered, Action.ofExcept, nextEq]
          | ok next =>
              refine ⟨.ok (response, next), { w with exchanges := .sent r :: w.exchanges }, ?_, rfl, rfl, ?_⟩
              · simp only [Action.perform_bind, Action.exchange, Action.perform_get, Action.perform_set, answered,
                  Action.ofExcept, Action.perform_pure, nextEq]
              · rintro x same
                cases same
                exact ⟨rfl, nextEq⟩

theorem once_heard (r : WireRequest) (w v : World) (x : Response × Option Url)
    (done : (once r).perform w = (.ok x, v)) :
    Grows w v ∧ Heard v.server v.exchanges r x.1 ∧ redirect? r.url x.1 = .ok x.2 := by
  obtain ⟨result, u, performed, server, added, given⟩ := once_sends r w
  rw [done] at performed
  cases performed
  obtain ⟨answered, next⟩ := given x rfl
  refine ⟨⟨server, added ▸ List.suffix_cons _ _⟩, ⟨w.exchanges, added ▸ List.suffix_rfl, ?_⟩, next⟩
  rw [server, answered]

theorem follow_heard (r : WireRequest) (left : Nat) (w v : World) (x : Response)
    (done : (follow r left).perform w = (.ok x, v)) :
    Grows w v ∧ ∃ last, Led v.server v.exchanges r last ∧ Heard v.server v.exchanges last x := by
  induction left generalizing r w with
  | zero =>
      obtain ⟨⟨response, next⟩, u, sent, done⟩ := Action.bind_ok _ _ w v x done
      obtain ⟨grows, heard, _⟩ := once_heard r w u _ sent
      cases next with
      | none =>
          cases done
          exact ⟨grows, r, .rest r, heard⟩
      | some url => cases done
  | succ left ih =>
      obtain ⟨⟨response, next⟩, u, sent, done⟩ := Action.bind_ok _ _ w v x done
      obtain ⟨grows, heard, moved⟩ := once_heard r w u _ sent
      cases next with
      | none =>
          cases done
          exact ⟨grows, r, .rest r, heard⟩
      | some url =>
          obtain ⟨further, last, led, answered⟩ := ih { r with url } u done
          refine ⟨grows_passage.chain w u v grows further, last, ?_, answered⟩
          rw [← further.1] at heard
          exact .redirected r last response url (heard_later _ _ _ r response further.2 heard) moved led

theorem get_heard (url : String) (redirects : Bool) (w v : World) (x : Response)
    (done : (get url redirects).perform w = (.ok x, v)) (good : x.status = Status.ok) :
    Grows w v ∧ Answered v.server v.exchanges redirects url x.body := by
  obtain ⟨first, u, asked, done⟩ := Action.bind_ok _ _ w v x done
  cases built : asking url with
  | error f =>
      rw [asking] at built
      rw [built] at asked
      cases asked
  | ok r =>
      have same := built
      rw [asking] at same
      rw [same] at asked
      cases asked
      cases redirects with
      | true =>
          obtain ⟨grows, last, led, heard⟩ := follow_heard first _ w v x done
          exact ⟨grows, first, last, x, built, led, heard, good, rfl⟩
      | false =>
          obtain ⟨y, u, sent, ended⟩ := Action.bind_ok _ _ w v x done
          cases ended
          obtain ⟨grows, heard, _⟩ := once_heard first w v y sent
          exact ⟨grows, first, first, y.1, built, rfl, heard, good, rfl⟩

end Wire

namespace Hosting

theorem fetch_heard (url : String) (redirects : Bool) (tries pause : Nat) (w v : World) (x : Response)
    (done : (fetch url redirects tries pause).perform w = (.ok x, v)) (good : x.status = Status.ok) :
    Answered v.server v.exchanges redirects url x.body := by
  induction tries generalizing pause w with
  | zero => exact (Wire.get_heard url redirects w v x done good).2
  | succ tries ih =>
      rw [fetch, Action.perform_bind, Action.perform_outcome] at done
      rcases got : (Wire.get url redirects).perform w with ⟨result, u⟩
      rw [got] at done
      cases result with
      | ok y =>
          cases done
          exact (Wire.get_heard url redirects w _ _ got good).2
      | error f =>
          dsimp only at done
          split at done
          · rename_i same
            cases same
          · split at done
            · obtain ⟨_, z, _, again⟩ := Action.bind_ok _ _ u v x done
              exact ih _ z again
            · cases done
          · cases done

theorem download_heard (url : String) (redirects : Bool) (w v : World) (body : Bytes)
    (done : (download url redirects).perform w = (.ok body, v)) :
    Answered v.server v.exchanges redirects url body := by
  obtain ⟨x, u, fetched, ended⟩ := Action.bind_ok _ _ w v body done
  split at ended
  · rename_i good
    cases ended
    exact fetch_heard url redirects _ _ w v x fetched good
  · cases ended

end Hosting

end HostingAdmin
