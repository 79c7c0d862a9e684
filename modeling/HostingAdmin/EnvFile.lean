import HostingAdmin.Json.Basic

/-!
Files of assignments: a name, an equals sign and a value on each line. Values may be quoted, over
several lines too, and may refer to names that were assigned before or that the environment has.
-/

set_option autoImplicit false

namespace HostingAdmin.EnvFile

structure Assignment where
  name : String
  value : Option String
deriving DecidableEq

def newlines : List Char → List Char
  | '\r' :: '\n' :: rest => '\n' :: newlines rest
  | '\r' :: rest => '\n' :: newlines rest
  | c :: rest => c :: newlines rest
  | [] => []

def isSpace (c : Char) : Bool := Text.isBlank c && c != '\n'

def skipSpace (cs : List Char) : List Char := cs.dropWhile isSpace

def nextLine (cs : List Char) : List Char := (cs.dropWhile (· != '\n')).drop 1

-- The text up to the closing quote `q`, and what follows it. A quote after a backslash
-- closes only when no later quote does.
def quoted? (q : Char) : List Char → Option (List Char × List Char)
  | [] => none
  | [c] => if c = q then some ([], []) else none
  | c :: d :: rest =>
    if c = q then some ([], d :: rest)
    else if c = '\\' ∧ d = q then
      match quoted? q rest with
      | some (text, after) => some (c :: d :: text, after)
      | none => some ([c], rest)
    else (quoted? q (d :: rest)).map fun (text, after) => (c :: text, after)

def escapes : List (Char × Char) := [
  ('\\', '\\'), ('\'', '\''), ('"', '"'), ('a', '\x07'), ('b', '\x08'), ('f', '\x0c'),
  ('n', '\n'), ('r', '\r'), ('t', '\t'), ('v', '\x0b')]

def fewEscapes : List (Char × Char) := [('\\', '\\'), ('\'', '\'')]

def unescape (table : List (Char × Char)) : List Char → List Char
  | '\\' :: c :: rest =>
    match table.lookup c with
    | some d => d :: unescape table rest
    | none => '\\' :: unescape table (c :: rest)
  | c :: rest => c :: unescape table rest
  | [] => []

def plainValue (line : List Char) : List Char :=
  let rec cutComment : List Char → List Char
    | [] => []
    | c :: rest =>
      if Text.isBlank c && (rest.dropWhile Text.isBlank).head? = some '#' then []
      else c :: cutComment rest
  Text.trimRight Text.isBlank (cutComment line)

def value? (cs : List Char) : Option (List Char × List Char) :=
  match cs with
  | '\'' :: rest => (quoted? '\'' rest).map fun (v, after) => (unescape fewEscapes v, after)
  | '"' :: rest => (quoted? '"' rest).map fun (v, after) => (unescape escapes v, after)
  | _ => some (plainValue (cs.takeWhile (· != '\n')), cs.dropWhile (· != '\n'))

def name? (cs : List Char) : Option (List Char × List Char) :=
  match cs with
  | '\'' :: rest =>
    match Text.cut '\'' rest with
    | (c :: name, some after) => some (c :: name, after)
    | _ => none
  | _ =>
    let isPart (c : Char) : Bool := c != '=' && c != '#' && !Text.isBlank c
    match cs.takeWhile isPart with
    | [] => none
    | name => some (name, cs.dropWhile isPart)

def dropExport (cs : List Char) : List Char :=
  let word := "export".toList
  if word.isPrefixOf cs then
    let rest := cs.drop word.length
    if (rest.head?.map isSpace).getD false then skipSpace rest else cs
  else cs

def lineEnd? (cs : List Char) : Option (List Char) :=
  let cs := skipSpace cs
  let cs := if cs.head? = some '#' then cs.dropWhile (· != '\n') else cs
  match cs with
  | [] => some []
  | '\n' :: rest => some rest
  | _ => none

-- Reads the line at the front, which starts with no blank. A line that breaks the form
-- is skipped from where it breaks it.
def line (cs : List Char) : Option Assignment × List Char :=
  if cs.head? = some '#' then (none, nextLine cs)
  else
    let cs := dropExport cs
    match name? cs with
    | none => (none, nextLine cs)
    | some (name, rest) =>
      let finish (value : Option (List Char)) (rest : List Char) : Option Assignment × List Char :=
        match lineEnd? rest with
        | some after => (some ⟨String.ofList name, value.map String.ofList⟩, after)
        | none => (none, nextLine rest)
      match skipSpace rest with
      | '=' :: rest =>
        let rest := skipSpace rest
        match value? rest with
        | some (v, rest) => finish (some v) rest
        | none => (none, nextLine rest)
      | rest => finish none rest

def lines : Nat → List Char → List Assignment
  | 0, _ => []
  | fuel + 1, cs =>
    match cs.dropWhile Text.isBlank with
    | [] => []
    | cs =>
      let (a, rest) := line cs
      a.toList ++ lines fuel rest

def parse (text : String) : List Assignment :=
  let cs := newlines text.toList
  lines cs.length cs

def reference? (cs : List Char) : Option (String × String × Nat) :=
  match cs with
  | '$' :: '\x7b' :: rest =>
    let name := rest.takeWhile fun c => c != '\x7d' && c != ':'
    let otherwise? : Option (List Char × List Char) :=
      match rest.drop name.length with
      | ':' :: '-' :: rest => some (rest.takeWhile (· != '\x7d'), rest.dropWhile (· != '\x7d'))
      | '\x7d' :: rest => some ([], '\x7d' :: rest)
      | _ => none
    match otherwise? with
    | some (otherwise, '\x7d' :: after) =>
      some (String.ofList name, String.ofList otherwise, cs.length - after.length)
    | _ => none
  | _ => none

def expand (value : String → String → String) : Nat → List Char → List Char
  | _, [] => []
  | skip + 1, _ :: rest => expand value skip rest
  | 0, c :: rest =>
    match reference? (c :: rest) with
    | some (name, otherwise, size) =>
      (value name otherwise).toList ++ expand value (size - 1) rest
    | none => c :: expand value 0 rest

def assign (environment : Members String) (known : Members (Option String)) (a : Assignment) :
    Members (Option String) :=
  let value (name otherwise : String) : String :=
    match known.lookup name with
    | some v => v.getD ""
    | none => (environment.lookup name).getD otherwise
  Members.put a.name (a.value.map fun v => String.ofList (expand value 0 v.toList)) known

def values (environment : Members String) (text : String) : Members (Option String) :=
  (parse text).foldl (assign environment) []

end HostingAdmin.EnvFile
