import HostingAdmin.Program
import HostingAdmin.World

/-!
Ways to a server. A direct link hands requests over as they are; a wire link puts them under a base
URL; a closed link refuses everything.
-/

set_option autoImplicit false

namespace HostingAdmin

inductive Link where
  | direct
  | wire (base : Url)
  | closed
deriving DecidableEq

abbrev Sender := Request → Action Response

namespace Wire

def notAscii? (headers : List (String × String)) : Option String :=
  (headers.flatMap fun h => [h.1, h.2]).find? fun s => s.toList.any (128 ≤ ·.toNat)

def mergeHeaders (client request : List (String × String)) : List (String × String) :=
  let overridden (h : String × String) : Bool :=
    request.any fun r => Text.lowerAscii r.1 = Text.lowerAscii h.1
  client.filter (fun h => !overridden h) ++ request

def build (base : Url) (client : List (String × String)) (r : Request) :
    Except Failure WireRequest := do
  let url ← (base.below r.path).mapError .url
  let headers := r.headers.getD []
  match notAscii? headers with
  | some text => throw (.notAscii text)
  | none =>
    return {
      method := Text.upperAll r.method
      url := url.withParams (r.params.getD [])
      headers := mergeHeaders client headers
      body := r.body.getD [] }

def unsupported? (u : Url) : Option TransportFault :=
  if u.scheme = "http" ∨ u.scheme = "https" then none
  else if u.scheme = "" then
    some ⟨.unsupportedProtocol, "Request URL is missing an 'http://' or 'https://' protocol."⟩
  else
    some ⟨.unsupportedProtocol,
      "Request URL has an unsupported protocol '" ++ u.scheme ++ "://'."⟩

def redirect? (current : Url) (r : Response) : Except Failure (Option Url) :=
  match r.header? "Location" with
  | none => .ok none
  | some place =>
    if !Status.redirects.contains r.status then .ok none
    else
      match Url.parse place with
      | .error fault => .error (.transport
          ⟨.remoteProtocol, "Invalid URL in location header: " ++ fault.message ++ "."⟩)
      | .ok ref =>
        let target : Except UrlFault Url := do
          let ref ←
            if ref.scheme != "" && ref.host = "" then
              Url.parse { ref with host := current.host }.toString
            else pure ref
          let ref ← if ref.isAbsolute then pure ref else current.resolve ref
          return if ref.fragment.getD "" = "" && current.fragment.getD "" != "" then
            { ref with fragment := current.fragment } else ref
        match target with
        | .error fault => .error (.url fault)
        | .ok u => .ok (some u)

def once (r : WireRequest) : Action (Response × Option Url) := do
  match unsupported? r.url with
  | some fault =>
    modify fun w => { w with exchanges := .sent r :: w.exchanges }
    throw (.transport fault)
  | none =>
    let response ← Action.exchange (.sent r)
    let next ← Action.ofExcept id (redirect? r.url response)
    return (response, next)

def maxRedirects : Nat := 20

def follow (r : WireRequest) : Nat → Action Response
  | 0 => do
    let (response, next) ← once r
    if next.isSome then
      throw (.transport ⟨.tooManyRedirects, "Exceeded maximum allowed redirects."⟩)
    return response
  | left + 1 => do
    match ← once r with
    | (_, some url) => follow { r with url } left
    | (response, none) => return response

def get (url : String) (redirects : Bool) : Action Response := do
  let nowhere : Url := ⟨"", "", "", none, "", none, none⟩
  let r ← Action.ofExcept id (build nowhere [] (.plain "GET" url))
  if redirects then follow r maxRedirects
  else return (← once r).1

end Wire

namespace Link

def toBase (base : String) : Except Failure Link :=
  (((Url.parse base).bind Url.asBase).map Link.wire).mapError .url

def send (l : Link) : Sender := fun r =>
  match l with
  | .direct => Action.exchange (.asked r)
  | .closed => throw .notOpen
  | .wire base => do
    let about : Members Json := [("method", .str r.method), ("path", .str r.path)]
    Action.record .debug "Making Realm API request" about
    let request ← Action.ofExcept id (Wire.build base [("User-Agent", Program.agent)] r)
    let (response, _) ← Wire.once request
    Action.record .debug "Realm API response" (about ++ [("status", .int response.status)])
    return response

end Link

end HostingAdmin
