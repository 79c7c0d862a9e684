import HostingAdmin.World

/-!
Authenticated calls on one set of credentials. A call sends its request with the current access
token. When that token is known to be expired, or the answer is that it is not accepted, the
session is refreshed and the request is sent again, once. Refreshes take turns, and one that finds
the token already replaced does nothing.

A call is a machine that moves when it starts, when its turn to refresh comes, and when an answer
comes; calls of one session may move in any order.
-/

set_option autoImplicit false

namespace HostingAdmin.Session

-- Where a call stands. `stale` is the token that it wants replaced, and `again` tells
-- that its request has been sent before.
inductive Phase where
  | new
  | queued (stale : String) (again : Bool)
  | refreshing (stale : String) (again : Bool)
  | sending (token : String) (again : Bool)
  | done (outcome : Except Failure Response)

structure Call where
  request : Request
  phase : Phase

-- What happens to a call. An answer to a refresh comes with the outcome of saving the
-- new credentials, should there be any.
inductive Event where
  | start (now : Rat)
  | enter
  | answer (reply : Except Failure Response) (saved : Except Failure Unit)

-- What a call does when it moves: it sends its request, asks for new tokens, finds its
-- token expired, has it refused, finds it replaced already, takes over new tokens in
-- place of its own, hands the new credentials over to be saved, and ends its refresh.
inductive Note where
  | sent (r : Request)
  | asked (r : Request)
  | expired (path token : String)
  | refused (method path token : String)
  | replacedBefore
  | renewed (stale : String) (t : Tokens)
  | saving (p : Profile)
  | completed

structure Move where
  call : Call
  profile : Profile
  notes : List Note

def refreshRequest (p : Profile) : Request :=
  (Request.plain "POST" "/auth/session").authorized p.refreshToken

def readTokens (r : Response) : Except Failure Tokens :=
  if r.status = Status.created then (Tokens.parse r.body).mapError .invalid
  else .error (.unauthorized ⟨r.status, r.statusText ++ ": failed to refresh auth", none⟩)

def granted (reply : Except Failure Response) : Except Failure Tokens := reply.bind readTokens

namespace Call

def transmit (c : Call) (p : Profile) (again : Bool) (before : List Note) : Move :=
  ⟨⟨c.request, .sending p.accessToken again⟩, p,
    before ++ [.sent (c.request.authorized p.accessToken)]⟩

def finish (c : Call) (p : Profile) (outcome : Except Failure Response) (notes : List Note) :
    Move :=
  ⟨⟨c.request, .done outcome⟩, p, notes⟩

def start (c : Call) (p : Profile) (now : Rat) : Move :=
  if p.isExpired now then
    ⟨⟨c.request, .queued p.accessToken false⟩, p, [.expired c.request.path p.accessToken]⟩
  else c.transmit p false []

def enter (c : Call) (p : Profile) (stale : String) (again : Bool) : Move :=
  if p.accessToken = stale then
    ⟨⟨c.request, .refreshing stale again⟩, p, [.asked (refreshRequest p)]⟩
  else c.transmit p again [.replacedBefore]

def refreshed (c : Call) (p : Profile) (stale : String) (again : Bool)
    (reply : Except Failure Response) (saved : Except Failure Unit) : Move :=
  match granted reply with
  | .error f => c.finish p (.error f) []
  | .ok t =>
    match saved with
    | .error f => c.finish (p.renewed t) (.error f) [.renewed stale t, .saving (p.renewed t)]
    | .ok () =>
      c.transmit (p.renewed t) again [.renewed stale t, .saving (p.renewed t), .completed]

def answered (c : Call) (p : Profile) (token : String) (again : Bool)
    (reply : Except Failure Response) : Move :=
  match reply with
  | .error f => c.finish p (.error f) []
  | .ok r =>
    if r.status = Status.unauthorized ∧ again = false then
      ⟨⟨c.request, .queued token true⟩, p, [.refused c.request.method c.request.path token]⟩
    else c.finish p (.ok r) []

-- How a call moves; not at all when the event does not fit its phase.
def react (c : Call) (p : Profile) (e : Event) : Option Move :=
  match c.phase, e with
  | .new, .start now => some (c.start p now)
  | .queued stale again, .enter => some (c.enter p stale again)
  | .refreshing stale again, .answer reply saved => some (c.refreshed p stale again reply saved)
  | .sending token again, .answer reply _ => some (c.answered p token again reply)
  | _, _ => none

end Call

def Phase.isRefreshing : Phase → Bool
  | .refreshing _ _ => true
  | _ => false

-- Several calls on one set of credentials, with all that was done, each note with the
-- position of its call, the latest first.
structure State where
  profile : Profile
  calls : List Call
  notes : List (Nat × Note)

namespace State

def start (p : Profile) (requests : List Request) : State :=
  ⟨p, requests.map fun r => ⟨r, .new⟩, []⟩

def isBusy (s : State) : Bool := s.calls.any fun c => c.phase.isRefreshing

def after (s : State) (i : Nat) (m : Move) : State :=
  ⟨m.profile, s.calls.set i m.call, (m.notes.map fun n => (i, n)).reverse ++ s.notes⟩

-- A move of the call at position `i`. No call enters a refresh while another one
-- refreshes.
def step (s : State) (i : Nat) (e : Event) : Option State :=
  match s.calls[i]? with
  | none => none
  | some c =>
    match e with
    | .enter => if s.isBusy then none else (c.react s.profile e).map (s.after i)
    | _ => (c.react s.profile e).map (s.after i)

end State

end HostingAdmin.Session
