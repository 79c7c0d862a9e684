import HostingAdmin.CommandLine.Scope
import HostingAdmin.FileTree.Changes
import Std.Time.DateTime.Timestamp

/-!
The program on a machine. The files that an invocation is about are read into a world, the
invocation is carried out there, and what it changed is written back. No network is attached: every
request fails to connect.
-/

set_option autoImplicit false

namespace HostingAdmin.Machine

def offline : Server := fun _ _ =>
  .error (.fault ⟨.connect, "All connection attempts failed"⟩)

def text (body : ByteArray) : String := (String.fromUTF8? body).getD ""

def records (file : String) (mark : Char) : IO (List String) := do
  try
    let body ← IO.FS.readBinFile file
    return ((text body).toList.splitOn mark).map String.ofList
  catch _ => return []

def environment : IO Environment := do
  let vars := (← records "/proc/self/environ" '\x00').filterMap fun line =>
    match Text.cut '=' line.toList with
    | (name, some value) => some (String.ofList name, String.ofList value)
    | _ => none
  let accounts := (← records "/etc/passwd" '\n').filterMap fun line =>
    match (line.toList.splitOn ':').map String.ofList with
    | name :: _ :: _ :: _ :: _ :: home :: _ => some (name, home)
    | _ => none
  return ⟨Members.ofPairs vars, accounts⟩

def absolute (names : List String) : String := "/" ++ String.intercalate "/" names

def nanoseconds (t : IO.FS.SystemTime) : Int := t.sec * 1000000000 + (t.nsec.toNat : Int)

-- What lies at an entry of a folder, with all below it; a link stays one, to the real
-- path that it leads to or else to a name that no file has. Those real paths are
-- collected.
partial def node (e : IO.FS.DirEntry) : StateT (List String) IO Node := do
  let about ← e.path.symlinkMetadata
  match about.type with
  | .dir =>
    let entries ← (← e.path.readDir).toList.mapM fun x => return (x.fileName, ← node x)
    return .folder entries
  | .symlink =>
    if ← e.path.pathExists then
      let target := (← IO.FS.realPath e.path).toString
      modify (target :: ·)
      return .link target
    else return .link "\x00"
  | _ => return .file (← IO.FS.readBinFile e.path).toList (nanoseconds about.modified)

def survey (read : IO.FS.DirEntry → StateT (List String) IO Node) (here : List String) :
    List String → FileTree → StateT (List String) IO FileTree
  | [], t => return t
  | ".." :: rest, t => survey read here.dropLast rest t
  | name :: rest, t => do
    let entry : IO.FS.DirEntry := ⟨absolute here, name⟩
    let next := here ++ [name]
    let place (n : Node) : FileTree := { t with root := t.root.put next n }
    if !(← entry.path.pathExists) then return t
    else if rest.isEmpty then
      let real ← IO.FS.realPath entry.path
      return place (← read ⟨real.parent.getD "/", real.fileName.getD ""⟩)
    else if (t.root.get? next).isSome || !(← entry.path.isDir) then survey read next rest t
    else survey read next rest (place (.folder []))

def bareNode (e : IO.FS.DirEntry) : StateT (List String) IO Node := do
  if ← e.path.isDir then return .folder [] else node e

def surveyAll (t : FileTree) (ps : List Path) : IO FileTree := do
  let parts (p : Path) : List String := (if p.isAbsolute then [] else t.current) ++ p.parts
  let (t, ends) ← (ps.foldlM (fun t p => survey node [] (parts p) t) t).run []
  let missing := ends.filter fun target => !t.contains (Path.ofString target)
  return (← (missing.foldlM (fun t p => survey bareNode [] (Path.split p) t) t).run []).1

def logLine (asJson : Bool) (r : Record) : String :=
  if asJson then Json.spaced r.toJson
  else Record.timestamp r.time ++ " [" ++ r.level.name ++ "] " ++ r.event

def apply : Change → IO Unit
  | .folder at_ => IO.FS.createDirAll (absolute at_)
  | .file at_ body => IO.FS.writeBinFile (absolute at_) ⟨body.toArray⟩

def world (e : Environment) (args : List String) : IO World := do
  let current := Path.split (← IO.currentDir).toString
  let empty := (← (survey bareNode [] current ⟨.folder [], current⟩).run []).1
  let time := (← Std.Time.Timestamp.now).toNanosecondsSinceUnixEpoch.val
  let mark := (← IO.getRandomBytes 16).toList.flatMap fun b => Text.hex 2 b.toNat
  let start (files : FileTree) : World :=
    { World.start files offline with clock := mkRat time 1000000000, marks := [String.ofList mark] }
  match CommandLine.Invocation.parse args with
  | .error _ => return start empty
  | .ok i =>
    let files ← surveyAll empty (CommandLine.settingsFile? e).toList
    match ((Settings.load e i.overrides).perform (start files)).1 with
    | .error _ => return start files
    | .ok s => return start (← surveyAll files (i.scope s))

end HostingAdmin.Machine

open HostingAdmin in
def main (args : List String) : IO UInt32 := do
  let e ← Machine.environment
  let before ← Machine.world e args
  let (result, after) := (CommandLine.run e args).perform before
  (after.files.changesSince before.files).forM Machine.apply
  IO.print after.outputText
  after.log.records.reverse.forM fun r => IO.eprintln (Machine.logLine after.log.asJson r)
  IO.eprint after.errorText
  match result with
  | .ok code => return code.toUInt32
  | .error f =>
    IO.eprintln f.message
    return 1
