import HostingAdmin.Pool

/-!
Batches: a pool whose complaints go to a collector, which tells them one by one. The task that owns
the batch puts the jobs, waits for the workers, closes the queue of the collector, waits for it, and
then either fails with the number of complaints or, if that is wished, has the delivery network
forget all assets. Owner, workers and collector may move in any order.
-/

set_option autoImplicit false

namespace HostingAdmin.Hosting

def allPaths : String := "/*"

inductive Ending where
  | clean
  | failed (count : Nat) (first : Pool.Complaint)
  | refused (f : Failure)
deriving DecidableEq

inductive Stage where
  | working
  | draining
  | clearing
  | ended (e : Ending)
deriving DecidableEq

def Stage.distance : Stage → Nat
  | .working => 4
  | .draining => 2
  | .clearing => 1
  | .ended _ => 0

structure Batch (α : Type) where
  pool : Pool.State α
  -- What the collector has not seen yet, `none` being the mark of the end.
  waiting : List (Option Pool.Complaint)
  collecting : Bool
  reported : List Pool.Complaint
  stage : Stage
  resetCache : Bool
  forgotten : List String

namespace Batch

inductive Move where
  | put
  | take (worker : Nat)
  | finish (worker : Nat) (complaint : Option Pool.Complaint)
  | collect
  | join
  | conclude
  | answer (outcome : Except Failure Unit)

variable {α : Type}

def start (n : Nat) (jobs : List α) (resetCache : Bool) : Batch α :=
  ⟨.start n jobs, [], true, [], .working, resetCache, []⟩

def put (b : Batch α) : Option (Batch α) :=
  match b.stage with
  | .working => b.pool.put.map fun p => { b with pool := p }
  | _ => none

def take (b : Batch α) (i : Nat) : Option (Batch α) :=
  (b.pool.take i).map fun p => { b with pool := p }

def finish (b : Batch α) (i : Nat) (complaint : Option Pool.Complaint) : Option (Batch α) :=
  (b.pool.finish i (.ofComplaint complaint)).map fun p =>
    { b with pool := p, waiting := b.waiting ++ (complaint.map some).toList }

def collect (b : Batch α) : Option (Batch α) :=
  match b.collecting, b.waiting with
  | true, some c :: rest => some { b with waiting := rest, reported := b.reported ++ [c] }
  | true, none :: rest => some { b with waiting := rest, collecting := false }
  | _, _ => none

def join (b : Batch α) : Option (Batch α) :=
  match b.stage with
  | .working =>
    if b.pool.isOver then some { b with waiting := b.waiting ++ [none], stage := .draining }
    else none
  | _ => none

def conclude (b : Batch α) : Option (Batch α) :=
  match b.stage, b.collecting with
  | .draining, false =>
    match b.reported with
    | first :: rest => some { b with stage := .ended (.failed (rest.length + 1) first) }
    | [] =>
      if b.resetCache then
        some { b with stage := .clearing, forgotten := b.forgotten ++ [allPaths] }
      else some { b with stage := .ended .clean }
  | _, _ => none

def answer (b : Batch α) (outcome : Except Failure Unit) : Option (Batch α) :=
  match b.stage, outcome with
  | .clearing, .ok () => some { b with stage := .ended .clean }
  | .clearing, .error f => some { b with stage := .ended (.refused f) }
  | _, _ => none

def step (b : Batch α) : Move → Option (Batch α)
  | .put => b.put
  | .take i => b.take i
  | .finish i c => b.finish i c
  | .collect => b.collect
  | .join => b.join
  | .conclude => b.conclude
  | .answer outcome => b.answer outcome

def size (b : Batch α) : Nat :=
  2 * b.pool.size + b.waiting.length + b.stage.distance

inductive Task (α : Type) where
  | move (m : Move)
  | work (worker : Nat) (job : α)
  | forget

def Task.ofPool : Pool.Task α → Task α
  | .put => .move .put
  | .take i => .move (.take i)
  | .work i job => .work i job

def ownerNext? (b : Batch α) : Option (Task α) :=
  match b.stage with
  | .working => if b.pool.isOver then some (.move .join) else none
  | .draining => if b.collecting then none else some (.move .conclude)
  | .clearing => some .forget
  | .ended _ => none

-- A schedule: complaints are told at once, then the pool goes on, then the owner.
def next? (b : Batch α) : Option (Task α) :=
  if b.collecting && !b.waiting.isEmpty then some (.move .collect)
  else
    match b.pool.next? with
    | some task => some (.ofPool task)
    | none => b.ownerNext?

structure Trade (α : Type) where
  work : Nat → α → Action (Option Pool.Complaint)
  report : Pool.Complaint → Action Unit
  forget : String → Action Unit

namespace Trade

def tell (t : Trade α) (b : Batch α) : Action Unit :=
  match b.waiting with
  | some c :: _ => t.report c
  | _ => pure ()

def advance (t : Trade α) (b : Batch α) : Task α → Action (Option (Batch α))
  | .work i job => return b.finish i (← t.work i job)
  | .forget => return b.answer (← Action.outcome (t.forget allPaths))
  | .move .collect => do
    t.tell b
    return b.collect
  | .move m => return b.step m

def drive (t : Trade α) : Nat → Batch α → Action (Batch α)
  | 0, b => return b
  | fuel + 1, b =>
    match b.next? with
    | none => return b
    | some task => do
      match ← t.advance b task with
      | none => return b
      | some b => t.drive fuel b

-- Does all jobs with `n` workers. A batch in which nothing can move any more before
-- its end is stalled.
def run (t : Trade α) (n : Nat) (jobs : List α) (resetCache : Bool) : Action Ending := do
  let start := Batch.start n jobs resetCache
  match (← t.drive start.size start).stage with
  | .ended e => return e
  | _ => throw .stalled

end Trade

end Batch

end HostingAdmin.Hosting
