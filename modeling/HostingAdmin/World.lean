import HostingAdmin.Failure
import HostingAdmin.Http.Message
import HostingAdmin.Log
import HostingAdmin.Profile

/-!
What an invocation works on, as a value: files, clock, terminal, log, and a server. An action takes
a world to a result or a failure, and to the world after it; a failure undoes nothing.
-/

set_option autoImplicit false

namespace HostingAdmin

structure WireRequest where
  method : String
  url : Url
  headers : List (String × String)
  body : Bytes
deriving DecidableEq

namespace WireRequest

def header? (r : WireRequest) (name : String) : Option String :=
  match (r.headers.filter fun h => Text.lowerAscii h.1 = Text.lowerAscii name).map Prod.snd with
  | [] => none
  | values => some (String.intercalate ", " values)

end WireRequest

inductive Exchange where
  | asked (request : Request)
  | sent (request : WireRequest)
deriving DecidableEq

namespace Exchange

def method : Exchange → String
  | .asked r => r.method
  | .sent r => r.method

def target : Exchange → String
  | .asked r => r.path
  | .sent r => r.url.target

def authorization? : Exchange → Option String
  | .asked r => (r.headers.getD []).lookup "Authorization"
  | .sent r => r.header? "authorization"

end Exchange

inductive Refusal where
  | fault (f : TransportFault)
  | interrupt
deriving DecidableEq

def Refusal.failure : Refusal → Failure
  | .fault f => .transport f
  | .interrupt => .interrupted

abbrev Reply := Except Refusal Response

-- A server answers a request in view of all requests before it, the latest first.
abbrev Server := List Exchange → Exchange → Reply

structure World where
  clock : Rat
  files : FileTree
  server : Server
  exchanges : List Exchange
  profile : Profile
  -- The tokens that refreshes were answered with, the latest first.
  renewals : List Tokens
  marks : List String
  input : List Char
  output : List String
  errors : List String
  waits : List Nat
  log : Log

abbrev Action := ExceptT Failure (StateM World)

namespace Action

variable {α : Type}

def perform (a : Action α) (w : World) : Except Failure α × World := (ExceptT.run a).run w

def ofExcept {ε : Type} (wrap : ε → Failure) (x : Except ε α) : Action α :=
  match x with
  | .ok a => pure a
  | .error e => throw (wrap e)

-- The outcome of an action as a value.
def outcome (a : Action α) : Action (Except Failure α) := fun w =>
  match a.perform w with
  | (r, w) => (.ok r, w)

def now : Action Rat := return (← get).clock

def mark : Action String := do
  match (← get).marks with
  | [] => return ""
  | [m] => return m
  | m :: rest =>
    modify fun w => { w with marks := rest }
    return m

/-! ### Log -/

def setCorrelation (id : String) : Action Unit :=
  modify fun w => { w with log := { w.log with correlation := id } }

def correlation : Action String := do
  let current := (← get).log.correlation
  if current = "" then
    let id := String.ofList ((← mark).toList.take 8)
    setCorrelation id
    return id
  else return current

def configureLog (level : String) (asJson : Bool) : Action Unit :=
  modify fun w => { w with log := { w.log with threshold := Level.threshold level, asJson } }

def record (level : Level) (event : String) (fields : Members Json) : Action Unit := do
  if (← get).log.threshold ≤ level.weight then
    let time ← now
    let correlation ← correlation
    let r : Record := ⟨level, event, fields, correlation, time⟩
    modify fun w => { w with log := { w.log with records := r :: w.log.records } }

/-! ### Files -/

def hasNull (p : Path) : Bool := p.parts.any fun part => part.toList.contains '\x00'

def guardPath (p : Path) : Action Unit :=
  if hasNull p then throw .nullCharacter else pure ()

-- What a path leads to, if anything; only names that are too long are an error.
def nodeAt? (p : Path) : Action (Option Node) := do
  if hasNull p then return none
  match (← get).files.node p with
  | .ok n => return some n
  | .error fault =>
    if fault.problem = .nameTooLong then throw (.file fault) else return none

def fileExists (p : Path) : Action Bool := return (← nodeAt? p).isSome

def folderExists (p : Path) : Action Bool :=
  return ((← nodeAt? p).map Node.isFolder).getD false

def load (p : Path) : Action Bytes := do
  guardPath p
  ofExcept .file ((← get).files.read p)

def statFile (p : Path) : Action (Nat × Int) := do
  guardPath p
  ofExcept .file ((← get).files.stat p)

def changeFiles (p : Path) (change : FileTree → FileTree.Result FileTree) : Action Unit := do
  guardPath p
  let files ← ofExcept .file (change (← get).files)
  modify fun w => { w with files }

def nanoseconds (clock : Rat) : Int := (clock * 1000000000).floor

def store (p : Path) (body : Bytes) : Action Unit := do
  let modified := nanoseconds (← now)
  changeFiles p fun t => t.write p body modified

def makeFolders (p : Path) : Action Unit := changeFiles p fun t => t.makeFolders p

/-! ### Server -/

def exchange (e : Exchange) : Action Response := do
  let w ← get
  let reply := w.server w.exchanges e
  set { w with exchanges := e :: w.exchanges }
  ofExcept Refusal.failure reply

def wait (seconds : Nat) : Action Unit :=
  modify fun w => { w with waits := seconds :: w.waits }

/-! ### Terminal -/

def inform (line : String) : Action Unit :=
  modify fun w => { w with output := (line ++ "\n") :: w.output }

def complain (line : String) : Action Unit :=
  modify fun w => { w with errors := (line ++ "\n") :: w.errors }

def confirm (question : String) : Action Bool := do
  modify fun w => { w with output := (question ++ " [y/N] ") :: w.output }
  let w ← get
  let line := w.input.takeWhile (· != '\n')
  set { w with input := w.input.drop (line.length + 1) }
  let answer := String.ofList ((Text.trim Text.isBlank line).map Char.toLower)
  return answer = "y" || answer = "yes"

end Action

namespace World

def outputText (w : World) : String := String.join w.output.reverse

def errorText (w : World) : String := String.join w.errors.reverse

def start (files : FileTree) (server : Server) : World :=
  ⟨1700000000, files, server, [], .empty, [], ["0123456789abcdef0123456789abcdef"], [], [], [], [],
    .quiet⟩

end World

end HostingAdmin
