import HostingAdmin.Http.Link
import HostingAdmin.Session.Call

/-!
Sessions at work: calls on the credentials of a world, one after the other or several at once.
-/

set_option autoImplicit false

namespace HostingAdmin.Session

structure Channel where
  link : Link
  save : Profile → Action Unit

-- Logs a note; the other effects of notes are part of `Channel.advance`.
def Note.log : Note → Action Unit
  | .expired path _ =>
    Action.record .debug "Access token expired, refreshing before request" [("path", .str path)]
  | .refused method path _ =>
    Action.record .info "Access token rejected, refreshing session"
      [("method", .str method), ("path", .str path)]
  | .replacedBefore =>
    Action.record .debug "Session already refreshed by a concurrent request" []
  | .completed => Action.record .info "Session refreshed" []
  | .sent _ | .asked _ | .renewed _ _ | .saving _ => pure ()

namespace Channel

def awaited? (p : Profile) (c : Call) : Option Request :=
  match c.phase with
  | .refreshing _ _ => some (refreshRequest p)
  | .sending token _ => some (c.request.authorized token)
  | _ => none

def nextEvent (ch : Channel) (p : Profile) (c : Call) : Action Event := do
  match c.phase with
  | .new => return .start (← Action.now)
  | .queued _ _ => return .enter
  | .refreshing _ _ =>
    let reply ← Action.outcome (ch.link.send (refreshRequest p))
    match granted reply with
    | .error _ => return .answer reply (.ok ())
    | .ok t =>
      modify fun w => { w with profile := p.renewed t, renewals := t :: w.renewals }
      return .answer reply (← Action.outcome (ch.save (p.renewed t)))
  | .sending token _ =>
    return .answer (← Action.outcome (ch.link.send (c.request.authorized token))) (.ok ())
  | .done _ => return .enter

def advance (ch : Channel) (c : Call) : Action Call := do
  let p := (← get).profile
  let e ← ch.nextEvent p c
  match c.react p e with
  | none => return c
  | some m =>
    modify fun w => { w with profile := m.profile }
    m.notes.forM Note.log
    return m.call

def drive (ch : Channel) : Nat → Call → Action Response
  | 0, _ => throw .stalled
  | fuel + 1, c =>
    match c.phase with
    | .done outcome => Action.ofExcept id outcome
    | _ => do ch.drive fuel (← ch.advance c)

-- The most moves of a call to which no other call happens: start, refresh, send,
-- refresh, send again, each of the last four with an answer.
def maxMoves : Nat := 9

def send (ch : Channel) : Sender := fun r => ch.drive maxMoves ⟨r, .new⟩

def refresh (ch : Channel) : Action Tokens := do
  let r ← ch.link.send (refreshRequest (← get).profile)
  Action.ofExcept id (readTokens r)

def untilAnswer (ch : Channel) : Nat → Call → Action Call
  | 0, c => return c
  | fuel + 1, c =>
    match c.phase with
    | .done _ => return c
    | .sending _ _ => ch.advance c
    | _ => do ch.untilAnswer fuel (← ch.advance c)

-- Sends several requests at once: all of them are sent and answered before any goes on
-- to a refresh. The one sent last goes on first, as its answer is the newest; the
-- others follow in order.
def together (ch : Channel) (requests : List Request) :
    Action (List (Except Failure Response)) := do
  let calls ← requests.mapM fun r => ch.untilAnswer maxMoves ⟨r, .new⟩
  match calls.getLast? with
  | none => return []
  | some last =>
    let final ← Action.outcome (ch.drive maxMoves last)
    let others ← calls.dropLast.mapM fun c => Action.outcome (ch.drive maxMoves c)
    return others ++ [final]

end Channel

end HostingAdmin.Session
