import HostingAdmin.Api.Assets
import HostingAdmin.Asset.Diff
import HostingAdmin.Hosting.Batch
import HostingAdmin.Hosting.Target

/-!
Import: bringing the hosted assets of an app to the state of the local ones. Every change becomes
one operation; a pool of workers carries them out, and an operation that fails stops no other.
-/

set_option autoImplicit false

namespace HostingAdmin.Hosting

inductive Operation where
  | add (a : Asset)
  | delete (a : Asset)
  | modify (m : Modification)
deriving DecidableEq

structure Site where
  group : String
  app : String
  root : Path

namespace Operation

def path : Operation → String
  | .add a => a.path
  | .delete a => a.path
  | .modify m => m.asset.path

def name : Operation → String
  | .add _ => "AddOp"
  | .delete _ => "DeleteOp"
  | .modify _ => "ModifyOp"

def ofDiff (d : Diff) : List Operation :=
  d.added.map .add ++ d.deleted.map .delete ++ d.modified.map .modify

inductive Effect where
  | upload (a : Asset)
  | delete (path : String)
  | setAttributes (path : String) (attrs : List Attribute)
  | nothing
deriving DecidableEq

def effect : Operation → Effect
  | .add a => .upload a
  | .delete a => .delete a.path
  | .modify m =>
    if m.bodyChanged then .upload m.asset
    else if m.attrsChanged then .setAttributes m.asset.path m.asset.attrs
    else .nothing

def upload (site : Site) (send : Sender) (a : Asset) : Action Unit := do
  let body ← Action.load (site.root.join (relative a.path))
  let boundary ← Action.mark
  (Hosting.upload site.group { a with appId := site.app } body boundary).call send

def Effect.perform (site : Site) (send : Sender) : Effect → Action Unit
  | .upload a => Operation.upload site send a
  | .delete path => (Hosting.delete site.group site.app path).call send
  | .setAttributes path attrs => (Hosting.setAttributes site.group site.app path attrs).call send
  | .nothing => pure ()

def Effect.trouble : Effect → String
  | .upload a => "uploading '" ++ a.path ++ "' failed => "
  | .delete path => "deleting '" ++ path ++ "' failed => "
  | .setAttributes path _ => path ++ " => "
  | .nothing => ""

-- Carries an operation out as the worker of a number; the complaint, should it fail.
-- Only an interrupt ends more than this operation.
def work (site : Site) (send : Sender) (worker : Nat) (op : Operation) :
    Action (Option Pool.Complaint) := do
  match ← Action.outcome (op.effect.perform site send) with
  | .ok () =>
    Action.record .debug "Asset operation done"
      [("worker", .int worker), ("op", .str op.name), ("asset", .str op.path)]
    return none
  | .error .interrupted => throw .interrupted
  | .error f => return some ⟨op.path, op.effect.trouble ++ f.message⟩

end Operation

def reportImport (c : Pool.Complaint) : Action Unit := do
  Action.record .warning "Asset operation failed" [("error", .str c.text)]
  Action.complain c.text

def importFields (site : Site) (workers : Int) : Members Json :=
  [("group_id", .str site.group), ("app_id", .str site.app), ("workers", .int workers)]

def forget (site : Site) (send : Sender) (workers : Int) (path : String) : Action Unit := do
  Action.record .info "Invalidating hosting cache" (importFields site workers)
  (invalidateCache site.group site.app path).call send

def importTrade (site : Site) (send : Sender) (workers : Int) : Batch.Trade Operation :=
  ⟨Operation.work site send, reportImport, forget site send workers⟩

-- Carries out a diff with a number of workers; after that, if nothing failed and it is
-- wished, the delivery network is made to forget all assets.
def importAssets (site : Site) (d : Diff) (resetCache : Bool) (send : Sender) (workers : Int) :
    Action Unit := do
  if workers < 1 then throw .workerCount
  let about := importFields site workers
  let ops := Operation.ofDiff d
  Action.record .info "Importing hosting assets" (about ++ [("operations", .int ops.length)])
  match ← (importTrade site send workers).run workers.toNat ops resetCache with
  | .clean => Action.record .info "Hosting import complete" about
  | .failed count first =>
    Action.record .warning "Hosting import finished with errors"
      (about ++ [("errors", .int count)])
    throw (.importing count first.text)
  | .refused f => throw f

end HostingAdmin.Hosting
