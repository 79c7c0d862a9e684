import HostingAdmin.Json.Basic
import HostingAdmin.Text.Integer
import HostingAdmin.Text.Literal

/-!
Grammars of command lines: switches, groups of switches of which exactly one is to be given, and
words that lead to further grammars. Long switches may be shortened while only one is meant, and
take their text after a space or an equals sign.
-/

set_option autoImplicit false

namespace HostingAdmin.CommandLine

inductive Takes where
  | nothing
  | text
  | number
  | choice (words : List String)
  | help
  | version
deriving DecidableEq

structure Switch where
  names : List String
  key : String
  takes : Takes
  required : Bool
deriving DecidableEq

-- A grammar. Each group lists the keys of switches of which exactly one is to be
-- given. Where there are words, one has to be given, and the rest of the line is read
-- by its grammar.
inductive Grammar where
  | mk (program : String) (switches : List Switch) (groups : List (List String)) (key : String)
    (words : List (String × Grammar))

inductive Problem where
  | ambiguous (given : String) (candidates : List String)
  | expectedOne (switch : String)
  | ignored (switch text : String)
  | notNumber (switch text : String)
  | notChoice (switch text : String) (words : List String)
  | conflict (switch other : String)
  | missing (names : List String)
  | missingOneOf (names : List String)
  | unrecognized (texts : List String)
deriving DecidableEq

inductive Stop where
  | help (program : String)
  | version
  | problem (program : String) (p : Problem)
deriving DecidableEq

inductive Value where
  | on
  | text (s : String)
  | number (n : Int)
deriving DecidableEq

structure Parsed where
  values : Members Value
  words : List String
  extras : List String

def Problem.message : Problem → String
  | .ambiguous given candidates =>
    "ambiguous option: " ++ given ++ " could match " ++ String.intercalate ", " candidates
  | .expectedOne switch => "argument " ++ switch ++ ": expected one argument"
  | .ignored switch text =>
    "argument " ++ switch ++ ": ignored explicit argument " ++ Text.literal text
  | .notNumber switch text => "argument " ++ switch ++ ": invalid int value: " ++ Text.literal text
  | .notChoice switch text words =>
    "argument " ++ switch ++ ": invalid choice: " ++ Text.literal text ++ " (choose from " ++
      String.intercalate ", " (words.map Text.literal) ++ ")"
  | .conflict switch other => "argument " ++ switch ++ ": not allowed with argument " ++ other
  | .missing names =>
    "the following arguments are required: " ++ String.intercalate ", " names
  | .missingOneOf names => "one of the arguments " ++ String.intercalate " " names ++ " is required"
  | .unrecognized texts => "unrecognized arguments: " ++ String.intercalate " " texts

namespace Switch

def title (s : Switch) : String := String.intercalate "/" s.names

def takesText (s : Switch) : Bool :=
  match s.takes with
  | .text | .number | .choice _ => true
  | .nothing | .help | .version => false

def value (s : Switch) (text : String) : Except Problem Value :=
  match s.takes with
  | .number =>
    match Text.integer? text with
    | some n => .ok (.number n)
    | none => .error (.notNumber s.title text)
  | .choice words =>
    if words.contains text then .ok (.text text) else .error (.notChoice s.title text words)
  | _ => .ok (.text text)

end Switch

/-! ### Arguments -/

inductive Token where
  | ending
  | plain (text : String)
  | switch (s : Switch) (name : String) (attached : Option String)
  | unknown (text : String)

def Token.isPlain : Token → Bool
  | .plain _ => true
  | _ => false

def isNegativeNumber (text : String) : Bool :=
  let isDigit (c : Char) : Bool := (Text.digit? c).isSome
  let allDigits (cs : List Char) : Bool := !cs.isEmpty && cs.all isDigit
  let cs := if text.toList.getLast? = some '\n' then text.toList.dropLast else text.toList
  match cs with
  | '-' :: rest =>
    match Text.cut '.' rest with
    | (_, none) => allDigits rest
    | (whole, some fraction) => whole.all isDigit && allDigits fraction
  | _ => false

def named (switches : List Switch) : List (String × Switch) :=
  switches.flatMap fun s => s.names.map fun n => (n, s)

def atEquals (text : String) : String × Option String :=
  let (before, after) := Text.cut '=' text.toList
  (String.ofList before, after.map String.ofList)

-- The switches that an argument which is no exact name may mean: a long one may be
-- shortened, and a short one be followed by its text at once.
def candidates (switches : List Switch) (arg : String) : List (Switch × String × Option String) :=
  match arg.toList with
  | '-' :: '-' :: _ =>
    let (start, attached) := atEquals arg
    (named switches).filterMap fun (name, s) =>
      if Text.hasStart name start then some (s, name, attached) else none
  | a :: b :: rest =>
    (named switches).filterMap fun (name, s) =>
      if name = String.ofList [a, b] then some (s, name, some (String.ofList rest))
      else if Text.hasStart name arg then some (s, name, none)
      else none
  | _ => []

def token (switches : List Switch) (arg : String) : Except Problem Token :=
  match arg.toList with
  | '-' :: _ :: _ =>
    match (named switches).lookup arg with
    | some s => .ok (.switch s arg none)
    | none =>
      let (start, attached) := atEquals arg
      match attached, (named switches).lookup start with
      | some text, some s => .ok (.switch s start (some text))
      | _, _ =>
        match candidates switches arg with
        | [(s, name, attached)] => .ok (.switch s name attached)
        | [] =>
          .ok (if isNegativeNumber arg || arg.toList.contains ' ' then .plain arg
            else .unknown arg)
        | several => .error (.ambiguous arg (several.map fun c => c.2.1))
  | _ => .ok (.plain arg)

def tokens (switches : List Switch) : List String → Except Problem (List (String × Token))
  | [] => .ok []
  | arg :: rest =>
    if arg = "--" then .ok ((arg, .ending) :: rest.map fun r => (r, .plain r))
    else do
      let t ← token switches arg
      let ts ← tokens switches rest
      return (arg, t) :: ts

/-! ### Reading -/

structure Reading where
  values : Members Value
  extras : List String

def conflicts (switches : List Switch) (groups : List (List String)) (s : Switch) (r : Reading) :
    List Switch :=
  let rivals := (groups.filter fun g => g.contains s.key).flatMap fun g => g.filter (· != s.key)
  rivals.filterMap fun key =>
    if (r.values.lookup key).isSome then switches.find? fun x => x.key = key else none

def give (program : String) (switches : List Switch) (groups : List (List String)) (s : Switch)
    (text : Option String) (r : Reading) : Except Stop Reading := do
  match s.takes with
  | .help => throw (.help program)
  | .version => throw .version
  | _ =>
    let value ← match text with
      | some t => (s.value t).mapError (.problem program)
      | none => pure .on
    match conflicts switches groups s r with
    | other :: _ => throw (.problem program (.conflict s.title other.title))
    | [] => return { r with values := Members.put s.key value r.values }

-- Several short switches may be written as one: the switches without text at the
-- front, and the last one with its text, if any.
def cluster (switches : List Switch) (s : Switch) (name : String) :
    List Char → Except Problem (List (Switch × Option String))
  | [] =>
    if s.takesText then .ok [(s, some "")] else .error (.ignored s.title "")
  | c :: rest =>
    if s.takesText then .ok [(s, some (String.ofList (c :: rest)))]
    else if Text.hasStart name "--" then .error (.ignored s.title (String.ofList (c :: rest)))
    else
      let next := String.ofList ['-', c]
      match (named switches).lookup next with
      | none => .error (.ignored s.title (String.ofList (c :: rest)))
      | some t =>
        if rest.isEmpty then .ok [(s, none), (t, none)]
        else (cluster switches t next rest).map ((s, none) :: ·)

def take (program : String) (switches : List Switch) (groups : List (List String)) (s : Switch)
    (name : String) (attached : Option String) (after : List (String × Token)) (r : Reading) :
    Except Stop (Reading × Nat) := do
  let all ← match attached with
    | none => pure [(s, none)]
    | some text => (cluster switches s name text.toList).mapError (.problem program)
  let front := all.dropLast
  let r ← front.foldlM (fun r x => give program switches groups x.1 x.2 r) r
  match all.getLast? with
  | none => return (r, 0)
  | some (last, text) =>
    if last.takesText && text.isNone then
      match after with
      | (arg, .plain _) :: _ => return (← give program switches groups last (some arg) r, 1)
      | _ => throw (.problem program (.expectedOne last.title))
    else return (← give program switches groups last text r, 0)

-- Reads arguments up to the word that leads on, if there is one: what has been read,
-- and that word with the arguments after it. The next `skip` arguments are texts of
-- switches.
def scan (program : String) (switches : List Switch) (groups : List (List String)) (leads : Bool) :
    Nat → List (String × Token) → Reading → Except Stop (Reading × Option (String × List String))
  | _, [], r => .ok (r, none)
  | skip + 1, _ :: rest, r => scan program switches groups leads skip rest r
  | 0, (arg, t) :: rest, r =>
    let leave : Except Stop (Reading × Option (String × List String)) :=
      scan program switches groups leads 0 rest { r with extras := r.extras ++ [arg] }
    let leadOn : Except Stop (Reading × Option (String × List String)) :=
      .ok (r, some (arg, rest.map Prod.fst))
    match t with
    | .plain _ => if leads then leadOn else leave
    | .ending => if leads && rest.any (fun x => x.2.isPlain) then leadOn else leave
    | .unknown _ => leave
    | .switch s name attached =>
      match take program switches groups s name attached rest r with
      | .error stop => .error stop
      | .ok (r, used) => scan program switches groups leads used rest r

def complete (program : String) (switches : List Switch) (groups : List (List String))
    (wordKey : Option String) (r : Reading) : Except Stop Unit :=
  let isGiven (key : String) : Bool := (r.values.lookup key).isSome
  let missing := (switches.filter fun s => s.required && !isGiven s.key).map Switch.title ++
    wordKey.toList
  let titleOf (key : String) : Option String :=
    (switches.find? fun s => s.key = key).map Switch.title
  if !missing.isEmpty then .error (.problem program (.missing missing))
  else
    match groups.find? fun g => !g.any isGiven with
    | some g => .error (.problem program (.missingOneOf (g.filterMap titleOf)))
    | none => .ok ()

mutual

def Grammar.parse : Grammar → List String → Except Stop Parsed
  | .mk program switches groups key words, args => do
    let ts ← (tokens switches args).mapError (.problem program)
    let (r, word?) ← scan program switches groups (!words.isEmpty) 0 ts ⟨[], []⟩
    match word? with
    | some (word, rest) =>
      match Grammar.parseWord words word rest with
      | none =>
        throw (.problem program (.notChoice key word (words.map fun w => w.1)))
      | some below => do
        let below ← below
        complete program switches groups none r
        return ⟨r.values ++ below.values, word :: below.words, r.extras ++ below.extras⟩
    | none => do
      complete program switches groups (if words.isEmpty then none else some key) r
      return ⟨r.values, [], r.extras⟩

def Grammar.parseWord : List (String × Grammar) → String → List String →
    Option (Except Stop Parsed)
  | [], _, _ => none
  | (name, g) :: more, word, rest =>
    if name = word then some (g.parse rest) else Grammar.parseWord more word rest

end

def Grammar.program : Grammar → String
  | .mk program _ _ _ _ => program

def Grammar.parseAll (g : Grammar) (args : List String) : Except Stop Parsed := do
  let p ← g.parse args
  if p.extras.isEmpty then return p
  else throw (.problem g.program (.unrecognized p.extras))

end HostingAdmin.CommandLine
