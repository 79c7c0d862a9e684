import HostingAdmin.Api.Secrets
import HostingAdmin.Proofs.CallAnswers
import HostingAdmin.Proofs.ImportRequests
import HostingAdmin.Proofs.UrlPaths

set_option autoImplicit false

namespace HostingAdmin

-- An exchange that changes what it leads to.
def Exchange.Alters (e : Exchange) : Prop := e.method = "PUT" ∨ e.method = "DELETE"

namespace Secret

-- Where a secret is, below the base.
def place (group app id : String) : List String := ["groups", group, "apps", app, "secrets", id]

theorem route_rooted (group app id : String) : route group app ++ "/" ++ id = Url.rooted (place group app id) := by
  rw [← String.toList_inj]
  simp [route, App.route, Url.rooted, place, Url.joinSlash, String.toList_append]

section

variable (base : Url) (group app : String) (sel : Selector) (w : World) (send : Sender)

-- The identifiers that a selector stands for: its own, and that of the first secret
-- listed that it selects.
inductive Means : String → Prop where
  | given (id : String) (same : sel = .id id) : Means id
  | found (s : Secret) (v : World) (listed : (find send group app sel).perform w = (.ok s, v))
      (selected : sel.selects s = true) : Means s.id

theorem means_unique (id other : String) (means : Means group app sel w send id)
    (again : Means group app sel w send other) : id = other := by
  cases means with
  | given id same =>
      subst same
      cases again with
      | given other same =>
          cases same
          rfl
      | found s v listed selected => simpa [Selector.selects, eq_comm] using selected
  | found s v listed selected =>
      cases again with
      | given other same =>
          subst same
          simpa [Selector.selects] using selected
      | found t u found =>
          rw [listed] at found
          cases found
          rfl

-- An exchange that changes something leads to the secret that is meant.
def Directed (e : Exchange) : Prop :=
  e.Alters → (∃ id, Means group app sel w send id) ∧ ∀ id, Means group app sel w send id → Url.Segment id → id ≠ "" →
    ∃ r, e = .sent r ∧ base.Addresses (place group app id) r.url

theorem found_selected (s : Secret) (v : World) (found : (find send group app sel).perform w = (.ok s, v)) :
    sel.selects s = true := by
  rw [find] at found
  obtain ⟨secrets, u, _, found⟩ := Action.bind_ok _ _ w v s found
  split at found
  · rename_i first chosen
    cases found
    exact List.find?_some chosen
  · cases found

theorem asked_directed (q : Request) (sent : WireRequest) (seeks : Session.Seeks (list group app).request q)
    (built : Wire.build base Exchange.client q = .ok sent) : Directed base group app sel w send (.sent sent) := by
  intro alters
  have harmless : sent.method = "GET" ∨ sent.method = "POST" := by
    cases seeks with
    | own token => exact .inl (bears_get base (list group app).request (.sent sent) rfl ⟨token, sent, built, rfl⟩)
    | renewal p => exact .inr (renews_post base (.sent sent) ⟨p, sent, built, rfl⟩)
  rcases alters with put | delete
  · exact absurd harmless (by rw [show sent.method = "PUT" from put]; decide)
  · exact absurd harmless (by rw [show sent.method = "DELETE" from delete]; decide)

variable (isBase : base.IsBase) (ofGroup : Url.Segment group) (ofApp : Url.Segment app)

include isBase ofGroup ofApp

theorem place_addressed (id : String) (u : Url) (ofSecret : Url.Segment id)
    (below : base.below (route group app ++ "/" ++ id) = .ok u) : base.Addresses (place group app id) u := by
  have words : Url.Segment "groups" ∧ Url.Segment "apps" ∧ Url.Segment "secrets" := by decide
  rw [route_rooted] at below
  refine Url.below_addresses base isBase "groups" [group, "apps", app, "secrets", id] u (by decide) ?_ below
  simp only [List.forall_mem_cons]
  exact ⟨words.1, ofGroup, words.2.1, ofApp, words.2.2, ofSecret, by simp⟩

theorem change_directed (id : String) (means : Means group app sel w send id) (r : Request)
    (path : r.path = route group app ++ "/" ++ id) (bare : r.params = none) (q : Request) (sent : WireRequest)
    (seeks : Session.Seeks r q) (built : Wire.build base Exchange.client q = .ok sent) :
    Directed base group app sel w send (.sent sent) := by
  intro alters
  refine ⟨⟨id, means⟩, fun other again ofSecret _ => ⟨sent, rfl, ?_⟩⟩
  obtain rfl := means_unique group app sel w send id other means again
  cases seeks with
  | own token =>
      obtain ⟨u, below, whole⟩ := Wire.build_whole base _ _ sent built
      rw [show (r.authorized token).path = r.path from rfl, path] at below
      have url : sent.url = u := by
        rw [whole, show (r.authorized token).params = r.params from rfl, bare]
        rfl
      rw [url]
      exact place_addressed base group app isBase ofGroup ofApp id u ofSecret below
  | renewal p =>
      have post := renews_post base (.sent sent) ⟨p, sent, built, rfl⟩
      rcases alters with put | delete
      · exact absurd (post.symm.trans put) (by decide)
      · exact absurd (post.symm.trans delete) (by decide)

end

section

variable (base : Url) (cfg : Path) (group app : String) (sel : Selector) (value : String) (w : World)
  (isBase : base.IsBase) (ofGroup : Url.Segment group) (ofApp : Url.Segment app)

-- A session under a base.
def under (base : Url) (cfg : Path) : Sender := Session.Channel.send ⟨.wire base, Profile.save cfg⟩

theorem find_within {R : World → World → Prop} (passage : Action.Passage R) (send : Sender)
    (inside : Action.Within R (send (list group app).request)) : Action.Within R (find send group app sel) := by
  refine Action.within_bind passage _ _ (Action.within_call passage send _ inside) (fun secrets => ?_)
  split
  · exact Action.within_pure passage _
  · exact Action.within_throw passage _

theorem find_directed : Action.Within (Adds (Directed base group app sel w (under base cfg)))
    (find (under base cfg) group app sel) :=
  find_within group app sel (adds_passage _) _
    (send_adds _ base cfg (list group app).request (asked_directed base group app sel w (under base cfg)))

include isBase ofGroup ofApp

theorem changes_directed (id : String) (means : Means group app sel w (under base cfg) id) (e : Endpoint Unit)
    (path : e.request.path = route group app ++ "/" ++ id) (bare : e.request.params = none) :
    Action.Within (Adds (Directed base group app sel w (under base cfg))) (e.call (under base cfg)) :=
  Action.within_call (adds_passage _) _ e (send_adds _ base cfg e.request
    (change_directed base group app sel w (under base cfg) isBase ofGroup ofApp id means e.request path bare))

theorem found_directed (change : Secret → Endpoint Unit)
    (path : ∀ s, (change s).request.path = route group app ++ "/" ++ s.id)
    (bare : ∀ s, (change s).request.params = none) : Adds (Directed base group app sel w (under base cfg)) w
      ((find (under base cfg) group app sel >>= fun s => (change s).call (under base cfg)).perform w).2 := by
  refine adds_bind _ _ _ w (find_directed base cfg group app sel w w) (fun s v found => ?_)
  have selected := found_selected group app sel w (under base cfg) s v found
  exact changes_directed base cfg group app sel w isBase ofGroup ofApp s.id (.found s v found selected) (change s)
    (path s) (bare s) v

theorem update_directed : Adds (Directed base group app sel w (under base cfg)) w
    ((update (under base cfg) group app sel value).perform w).2 :=
  found_directed base cfg group app sel w isBase ofGroup ofApp (fun s => put group app { s with value := some value })
    (fun _ => rfl) fun _ => rfl

theorem remove_directed : Adds (Directed base group app sel w (under base cfg)) w
    ((remove (under base cfg) group app sel).perform w).2 := by
  have found := found_directed base cfg group app sel w isBase ofGroup ofApp (fun s => deleteById group app s.id)
    (fun _ => rfl) fun _ => rfl
  cases sel with
  | id text =>
      exact changes_directed base cfg group app (.id text) w isBase ofGroup ofApp text (.given text rfl) _ rfl rfl w
  | name text => exact found
  | nothing => exact found

end

-- The server has agreed to a change that was asked for.
def Agreed (w v : World) : Prop :=
  ∃ e earlier response, e.Alters ∧ w.exchanges <:+ earlier ∧ e :: earlier <:+ v.exchanges ∧
    w.server earlier e = .ok response ∧ response.status = Status.noContent

theorem under_grows (base : Url) (cfg : Path) (r : Request) : Action.Within Grows (under base cfg r) :=
  Session.send_within grows_passage _ (fun c => Session.advance_kept grows_passage grows_sends
    (fun _ _ _ => ⟨rfl, List.suffix_rfl⟩) _ (fun p => Action.save_within grows_passage grows_writes cfg p) c) r

theorem change_agreed (base : Url) (cfg : Path) (request : Request) (text : String) (w v : World)
    (alters : request.method = "PUT" ∨ request.method = "DELETE")
    (changed : ((Endpoint.done request Status.noContent text).call (under base cfg)).perform w = (.ok (), v)) :
    Agreed w v := by
  obtain ⟨response, u, sent, checked⟩ := Action.bind_ok _ _ w v () changed
  obtain ⟨token, wired, earlier, built, first, last, given⟩ := Session.send_answered base (Profile.save cfg)
    (fun p => Action.save_within grows_passage grows_writes cfg p) request w u response sent
  have method := (Wire.build_parts base _ _ wired built).1
  refine ⟨.sent wired, earlier, response, ?_, first, ?_⟩
  · rcases alters with put | delete
    · left
      exact (method.trans (congrArg Text.upperAll put)).trans Text.upper_put
    · right
      exact (method.trans (congrArg Text.upperAll delete)).trans Text.upper_delete
  · simp only [Endpoint.done, Rejection.check] at checked
    split at checked
    · rename_i fine
      cases checked
      exact ⟨last, given, fine⟩
    · cases checked

theorem found_agreed (base : Url) (cfg : Path) (group app : String) (sel : Selector) (w v : World)
    (change : Secret → Endpoint Unit)
    (agrees : ∀ s u, ((change s).call (under base cfg)).perform u = (.ok (), v) → Agreed u v)
    (changed : (find (under base cfg) group app sel >>= fun s => (change s).call (under base cfg)).perform w =
      (.ok (), v)) : Agreed w v := by
  obtain ⟨s, u, found, changed⟩ := Action.bind_ok _ _ w v () changed
  have grows := find_within group app sel grows_passage _ (under_grows base cfg (list group app).request) w
  rw [found] at grows
  obtain ⟨e, earlier, response, alters, first, last, given, fine⟩ := agrees s u changed
  exact ⟨e, earlier, response, alters, grows.2.trans first, last, grows.1 ▸ given, fine⟩

theorem update_agreed (base : Url) (cfg : Path) (group app : String) (sel : Selector) (value : String) (w v : World)
    (updated : (update (under base cfg) group app sel value).perform w = (.ok (), v)) : Agreed w v :=
  found_agreed base cfg group app sel w v (fun s => put group app { s with value := some value })
    (fun s u changed => change_agreed base cfg (put group app { s with value := some value }).request _ u v (.inl rfl)
      changed) updated

theorem remove_agreed (base : Url) (cfg : Path) (group app : String) (sel : Selector) (w v : World)
    (removed : (remove (under base cfg) group app sel).perform w = (.ok (), v)) : Agreed w v := by
  have found := found_agreed base cfg group app sel w v (fun s => deleteById group app s.id)
    fun s u changed => change_agreed base cfg (deleteById group app s.id).request _ u v (.inr rfl) changed
  cases sel with
  | id text => exact change_agreed base cfg (deleteById group app text).request _ w v (.inr rfl) removed
  | name text => exact found removed
  | nothing => exact found removed

-- What an operation on a secret does: each change that it asks for leads to the secret,
-- and it succeeds with such a change only.
structure Reaches (base : Url) (cfg : Path) (group app : String) (sel : Selector) (w : World) (op : Action Unit) :
    Prop where
  directed : Adds (Directed base group app sel w (under base cfg)) w (op.perform w).2
  agreed : ∀ v, op.perform w = (.ok (), v) → Agreed w v

-- Whatever the server answers, and however often a call is made again.
theorem secrets_addressed (text : String) (base : Url) (cfg : Path) (group app : String) (sel : Selector)
    (value : String) (w : World) (linked : Link.toBase text = .ok (.wire base)) (unasked : base.query = none)
    (ofGroup : Url.Segment group) (ofApp : Url.Segment app) :
    Reaches base cfg group app sel w (update (under base cfg) group app sel value) ∧
      Reaches base cfg group app sel w (remove (under base cfg) group app sel) := by
  have isBase := Url.linked_base text base linked unasked
  constructor
  · exact ⟨update_directed base cfg group app sel value w isBase ofGroup ofApp,
      fun v updated => update_agreed base cfg group app sel value w v updated⟩
  · exact ⟨remove_directed base cfg group app sel w isBase ofGroup ofApp,
      fun v removed => remove_agreed base cfg group app sel w v removed⟩

def realm : Url := ⟨"https", "", "realm.example.com", none, "/api/admin/v3.0/", none, none⟩

def agreeing : World := World.start ⟨.folder [], []⟩ fun _ _ => .ok ⟨204, [], []⟩

def removal (id : String) : List Exchange :=
  ((remove (under realm ⟨1, ["p"]⟩) "g" "a" (.id id)).perform agreeing).2.exchanges

-- A space is encoded, and percent signs that escape nothing stay.
theorem secrets_addressed_spaced : ∃ r, removal "50 %" = [.sent r] ∧ r.method = "DELETE" ∧
    realm.Addresses (place "g" "a" "50 %") r.url := by
  have linked : Link.toBase "https://realm.example.com/api/admin/v3.0" = .ok (.wire realm) := by decide +kernel
  have addressed := (secrets_addressed _ realm ⟨1, ["p"]⟩ "g" "a" (.id "50 %") "" agreeing linked rfl
    (by decide) (by decide)).2
  obtain ⟨sent, added, directed⟩ := addressed.directed
  have methods : (removal "50 %").map Exchange.method = ["DELETE"] := by decide +kernel
  have all : removal "50 %" = sent := added.trans (List.append_nil sent)
  obtain ⟨e, rfl⟩ : ∃ e, sent = [e] := by
    rw [← all]
    exact List.length_eq_one_iff.mp (by simpa using congrArg List.length methods)
  have delete : e.method = "DELETE" := by simpa [all] using methods
  have leads := (directed e List.mem_cons_self (.inr delete)).2
  obtain ⟨r, rfl, addresses⟩ := leads "50 %" (.given "50 %" rfl) (by decide) (by decide)
  exact ⟨r, all, delete, addresses⟩

theorem addresses_decoded (base u : Url) (segments : List String) (addresses : base.Addresses segments u) :
    (u.path.toList.splitOn '/').map Url.decoded =
      (base.rawPath.toList.dropLast.splitOn '/').map Url.decoded ++ segments.map some ∧ u.query = none := by
  obtain ⟨front, parts, ended, split, decoded⟩ := addresses.path
  refine ⟨?_, addresses.unasked⟩
  rw [split, List.map_append, decoded, ended, List.dropLast_concat]

-- The removal of a secret leads elsewhere.
def Strays (id : String) : Prop :=
  ∃ r, removal id = [.sent r] ∧ r.method = "DELETE" ∧ ¬ realm.Addresses (place "g" "a" id) r.url

def deletion (path : String) (query : Option String) : WireRequest :=
  ⟨"DELETE", { realm with path, query }, [("User-Agent", Program.agent), ("Authorization", "Bearer ")], []⟩

theorem deletion_strays (id path : String) (query : Option String) (sent : removal id = [.sent (deletion path query)])
    (other : ¬ ((path.toList.splitOn '/').map Url.decoded =
      (realm.rawPath.toList.dropLast.splitOn '/').map Url.decoded ++ (place "g" "a" id).map some ∧ query = none)) :
    Strays id :=
  ⟨_, sent, rfl, fun addresses => other (addresses_decoded realm _ _ addresses)⟩

theorem odd_ids_stray : Strays "a/b" ∧ Strays "a?b" ∧ Strays "a#b" ∧ Strays ".." ∧ Strays "a%2Fb" := by
  refine ⟨?_, ?_, ?_, ?_, ?_⟩
  · exact deletion_strays "a/b" "/api/admin/v3.0/groups/g/apps/a/secrets/a/b" none (by decide +kernel) (by decide +kernel)
  · exact deletion_strays "a?b" "/api/admin/v3.0/groups/g/apps/a/secrets/a" (some "b") (by decide +kernel)
      (by decide +kernel)
  · exact deletion_strays "a#b" "/api/admin/v3.0/groups/g/apps/a/secrets/a" none (by decide +kernel) (by decide +kernel)
  · exact deletion_strays ".." "/api/admin/v3.0/groups/g/apps/a" none (by decide +kernel) (by decide +kernel)
  · exact deletion_strays "a%2Fb" "/api/admin/v3.0/groups/g/apps/a/secrets/a%2Fb" none (by decide +kernel)
      (by decide +kernel)

end Secret

end HostingAdmin
