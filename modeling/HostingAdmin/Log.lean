import HostingAdmin.Json.Basic

/-!
The log: records with fields, a threshold below which nothing is kept, and the identifier that all
records of one invocation share.
-/

set_option autoImplicit false

namespace HostingAdmin

inductive Level where
  | debug
  | info
  | warning
  | error
  | critical
deriving DecidableEq

namespace Level

def weight : Level → Nat
  | .debug => 10
  | .info => 20
  | .warning => 30
  | .error => 40
  | .critical => 50

def name : Level → String
  | .debug => "debug"
  | .info => "info"
  | .warning => "warning"
  | .error => "error"
  | .critical => "critical"

def ofName? (s : String) : Option Level :=
  [debug, info, warning, error, critical].find? fun l => l.name = s

def thresholds : List (String × Nat) := [
  ("DEBUG", 10), ("INFO", 20), ("WARNING", 30), ("WARN", 30), ("ERROR", 40), ("CRITICAL", 50),
  ("FATAL", 50), ("NOTSET", 0)]

def threshold (s : String) : Nat :=
  (thresholds.lookup (Text.upperAll s)).getD Level.warning.weight

end Level

structure Record where
  level : Level
  event : String
  fields : Members Json
  correlation : String
  time : Rat

namespace Record

def padded (width : Nat) (n : Nat) : String :=
  let digits := toString n
  String.ofList (List.replicate (width - digits.length) '0') ++ digits

-- Year, month and day of a number of days after the first of January 1970, by the
-- Gregorian calendar; the year starts in March here, so that leap days come last.
def civil (days : Int) : Int × Int × Int :=
  let z := days + 719468
  let era := Int.fdiv z 146097
  let dayOfEra := Int.fmod z 146097
  let year := (dayOfEra - dayOfEra / 1460 + dayOfEra / 36524 - dayOfEra / 146096) / 365
  let dayOfYear := dayOfEra - (365 * year + year / 4 - year / 100)
  let shifted := (5 * dayOfYear + 2) / 153
  let day := dayOfYear - (153 * shifted + 2) / 5 + 1
  let month := if shifted < 10 then shifted + 3 else shifted - 9
  (year + era * 400 + (if month ≤ 2 then 1 else 0), month, day)

def timestamp (time : Rat) : String :=
  let micros := (time * 1000000).floor
  let (year, month, day) := civil (Int.fdiv micros 86400000000)
  let rest := (Int.fmod micros 86400000000).toNat
  let two (n : Nat) : String := padded 2 n
  padded 4 year.toNat ++ "-" ++ two month.toNat ++ "-" ++ two day.toNat ++ "T" ++
    two (rest / 3600000000) ++ ":" ++ two (rest / 60000000 % 60) ++ ":" ++
    two (rest / 1000000 % 60) ++ "." ++ padded 6 (rest % 1000000) ++ "Z"

def toJson (r : Record) : Json :=
  let ms := Members.put "event" (.str r.event) r.fields
  let ms := Members.put "level" (.str r.level.name) ms
  let ms := Members.put "timestamp" (.str (timestamp r.time)) ms
  .obj (Members.put "correlation_id" (.str r.correlation) ms)

def lineCount (r : Record) : Nat := 1 + r.event.toList.count '\n'

end Record

structure Log where
  threshold : Nat
  asJson : Bool
  correlation : String
  records : List Record

def Log.quiet : Log := ⟨30, false, "", []⟩

end HostingAdmin
