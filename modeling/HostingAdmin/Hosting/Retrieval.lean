import Mathlib.Algebra.GroupWithZero.Nat
import HostingAdmin.Hosting.Export

/-!
Downloads by several workers at once. On the way from taking an asset to being done with it, a worker
finds out where the contents go, waits for them, makes the folder and writes the file. Steps of
different workers may come in any order.
-/

set_option autoImplicit false

namespace HostingAdmin.Hosting

-- How far a worker is with its asset.
inductive Leg where
  | fresh
  | aimed (target : Path)
  | fetched (target : Path) (body : Bytes)
  | housed (target : Path) (body : Bytes)

def Leg.distance : Leg → Nat
  | .fresh => 3
  | .aimed _ => 2
  | .fetched _ _ => 1
  | .housed _ _ => 0

-- The contents of an asset as they were written.
structure Copy where
  asset : Asset
  path : Path
  body : Bytes

structure Retrieval where
  root : Path
  pool : Pool.State Asset
  -- One for each worker.
  legs : List Leg
  files : FileTree
  reported : List Pool.Complaint
  saved : List Copy

namespace Retrieval

inductive Move where
  | put
  | take (worker : Nat)
  | aim (worker : Nat)
  | answer (worker : Nat) (outcome : Except Failure Bytes)
  | house (worker : Nat)
  | store (worker : Nat) (modified : Int)

def start (root : Path) (files : FileTree) (n : Nat) (assets : List Asset) : Retrieval :=
  ⟨root, .start n assets, List.replicate n .fresh, files, [], []⟩

-- What looking up the place of an asset comes to; only the files matter.
def aimed (files : FileTree) (root : Path) (assetPath : String) : Except Failure Path :=
  ((target root assetPath).perform (World.start files fun _ _ => .error .interrupt)).1

def changed (files : FileTree) (p : Path) (change : FileTree → FileTree.Result FileTree) :
    Except Failure FileTree :=
  if Action.hasNull p then .error .nullCharacter else (change files).mapError .file

def job? (b : Retrieval) (i : Nat) : Option Asset := (b.pool.workers[i]?).bind Pool.Worker.job?

def reach (b : Retrieval) (i : Nat) (leg : Leg) : Retrieval := { b with legs := b.legs.set i leg }

def settle (b : Retrieval) (i : Nat) (v : Pool.Verdict) : Option Retrieval :=
  (b.pool.finish i v).map fun p =>
    { b with pool := p, legs := b.legs.set i .fresh, reported := b.reported ++ v.complaint?.toList }

def fail (b : Retrieval) (i : Nat) (a : Asset) (f : Failure) : Option Retrieval :=
  b.settle i (exportVerdict a (.error f))

def aim (b : Retrieval) (i : Nat) : Option Retrieval :=
  match b.job? i, b.legs[i]? with
  | some a, some .fresh =>
    match aimed b.files b.root a.path with
    | .ok p => some (b.reach i (.aimed p))
    | .error f => b.fail i a f
  | _, _ => none

def answer (b : Retrieval) (i : Nat) (outcome : Except Failure Bytes) : Option Retrieval :=
  match b.job? i, b.legs[i]? with
  | some a, some (.aimed p) =>
    match outcome with
    | .ok body => some (b.reach i (.fetched p body))
    | .error f => b.fail i a f
  | _, _ => none

def house (b : Retrieval) (i : Nat) : Option Retrieval :=
  match b.job? i, b.legs[i]? with
  | some a, some (.fetched p body) =>
    match changed b.files p.parent fun t => t.makeFolders p.parent with
    | .ok files =>
      let built : Retrieval := { b with files }
      some (built.reach i (.housed p body))
    | .error f => b.fail i a f
  | _, _ => none

def store (b : Retrieval) (i : Nat) (modified : Int) : Option Retrieval :=
  match b.job? i, b.legs[i]? with
  | some a, some (.housed p body) =>
    match changed b.files p fun t => t.write p body modified with
    | .ok files =>
      let kept : Retrieval := { b with files, saved := b.saved ++ [⟨a, p, body⟩] }
      kept.settle i .done
    | .error f => b.fail i a f
  | _, _ => none

def step (b : Retrieval) : Move → Option Retrieval
  | .put => b.pool.put.map fun p => { b with pool := p }
  | .take i => (b.pool.take i).map fun p => { b with pool := p }
  | .aim i => b.aim i
  | .answer i outcome => b.answer i outcome
  | .house i => b.house i
  | .store i modified => b.store i modified

def size (b : Retrieval) : Nat := 4 * b.pool.size + (b.legs.map Leg.distance).sum

-- What the owner of the downloads comes to once all workers have stopped.
def outcome (b : Retrieval) (assets : List Asset) : Except Failure (List Asset) :=
  match b.reported with
  | first :: rest => .error (.exporting (rest.length + 1) first.text)
  | [] => .ok assets

end Retrieval

end HostingAdmin.Hosting
