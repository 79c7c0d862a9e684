import HostingAdmin.World

/-!
Pools of workers. A producer puts jobs into a queue of bounded length and one mark of the end for
each worker; workers take from the queue, do what they took, and stop at a mark. A pool is a machine
whose moves may come in any order.
-/

set_option autoImplicit false

namespace HostingAdmin.Pool

structure Complaint where
  path : String
  text : String
deriving DecidableEq

-- How a job ends: well, with a complaint, or with a failure that takes its worker
-- along.
inductive Verdict where
  | done
  | failed (c : Complaint)
  | crashed (f : Failure)
deriving DecidableEq

inductive Worker (α : Type) where
  | idle
  | busy (job : α)
  | stopped
  | crashed
deriving DecidableEq

structure State (α : Type) where
  -- The length of the queue; zero for a queue without bound.
  bound : Nat
  -- What is still to be put, `none` being the mark of the end.
  pending : List (Option α)
  queue : List (Option α)
  workers : List (Worker α)
  taken : List α
  finished : List (α × Verdict)

inductive Move where
  | put
  | take (worker : Nat)
  | finish (worker : Nat) (v : Verdict)

variable {α : Type}

namespace Worker

def isIdle : Worker α → Bool
  | .idle => true
  | _ => false

def job? : Worker α → Option α
  | .busy job => some job
  | _ => none

def isOver : Worker α → Bool
  | .stopped | .crashed => true
  | _ => false

end Worker

namespace Verdict

def worker : Verdict → Worker α
  | .crashed _ => .crashed
  | _ => .idle

def complaint? : Verdict → Option Complaint
  | .failed c => some c
  | _ => none

def failure? : Verdict → Option Failure
  | .crashed f => some f
  | _ => none

def ofComplaint : Option Complaint → Verdict
  | some c => .failed c
  | none => .done

end Verdict

namespace State

def start (n : Nat) (jobs : List α) : State α :=
  ⟨n, jobs.map some ++ List.replicate n none, [], List.replicate n .idle, [], []⟩

def hasRoom (s : State α) : Bool := s.bound = 0 || s.queue.length < s.bound

def put (s : State α) : Option (State α) :=
  match s.pending with
  | [] => none
  | x :: rest =>
    if s.hasRoom then some { s with pending := rest, queue := s.queue ++ [x] } else none

def take (s : State α) (i : Nat) : Option (State α) :=
  match s.workers[i]?, s.queue with
  | some .idle, none :: rest =>
    some { s with queue := rest, workers := s.workers.set i .stopped }
  | some .idle, some job :: rest =>
    some { s with queue := rest, workers := s.workers.set i (.busy job), taken := s.taken ++ [job] }
  | _, _ => none

def finish (s : State α) (i : Nat) (v : Verdict) : Option (State α) :=
  match s.workers[i]? with
  | some (.busy job) =>
    some { s with workers := s.workers.set i v.worker, finished := s.finished ++ [(job, v)] }
  | _ => none

def step (s : State α) : Move → Option (State α)
  | .put => s.put
  | .take i => s.take i
  | .finish i v => s.finish i v

def isOver (s : State α) : Bool := s.pending.isEmpty && s.workers.all Worker.isOver

def complaints (s : State α) : List Complaint := s.finished.filterMap fun x => x.2.complaint?

def crash? (s : State α) : Option Failure := s.finished.findSome? fun x => x.2.failure?

def size (s : State α) : Nat :=
  3 * s.pending.length + 2 * s.queue.length + s.workers.countP (fun w => w.job?.isSome)

end State

inductive Task (α : Type) where
  | put
  | take (worker : Nat)
  | work (worker : Nat) (job : α)

namespace State

def taker? (s : State α) : Option Nat :=
  let turn := s.taken.length % s.workers.length
  if ((s.workers[turn]?).map Worker.isIdle).getD false then some turn
  else s.workers.findIdx? Worker.isIdle

-- A schedule: jobs are done as soon as they are taken, and taken as soon as they are
-- put.
def next? (s : State α) : Option (Task α) :=
  match s.workers.findIdx? (fun w => w.job?.isSome) with
  | some i => ((s.workers[i]?).bind Worker.job?).map (Task.work i)
  | none =>
    match s.taker?, s.queue with
    | some i, _ :: _ => some (.take i)
    | _, _ =>
      match s.pending with
      | [] => none
      | _ => if s.hasRoom then some .put else none

end State

def advance (work : Nat → α → Action Verdict) (s : State α) : Task α → Action (Option (State α))
  | .put => return s.put
  | .take i => return s.take i
  | .work i job => return s.finish i (← work i job)

def drive (work : Nat → α → Action Verdict) : Nat → State α → Action (State α)
  | 0, s => return s
  | fuel + 1, s =>
    match s.next? with
    | none => return s
    | some task => do
      match ← advance work s task with
      | none => return s
      | some s => drive work fuel s

-- Does all jobs with `n` workers: the complaints that they end with, in order. A pool
-- in which nothing can move any more before it is over is stalled.
def run (work : Nat → α → Action Verdict) (n : Nat) (jobs : List α) :
    Action (List Complaint) := do
  let start := State.start n jobs
  let s ← drive work start.size start
  if s.isOver then
    match s.crash? with
    | some f => throw f
    | none => return s.complaints
  else throw .stalled

end HostingAdmin.Pool
