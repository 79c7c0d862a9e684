import HostingAdmin.Api.Assets
import HostingAdmin.Asset.Manifest
import HostingAdmin.Hosting.Target
import HostingAdmin.Pool

/-!
Export: writing the hosted assets of an app into its folder. The contents come from the public URLs
of the assets; a download that fails stops no other.
-/

set_option autoImplicit false

namespace HostingAdmin.Hosting

def fetch (url : String) (redirects : Bool) : Nat → Nat → Action Response
  | 0, _ => Wire.get url redirects
  | tries + 1, pause => do
    match ← Action.outcome (Wire.get url redirects) with
    | .ok r => return r
    | .error (.transport fault) =>
      if fault.problem.isTimeout then
        Action.wait pause
        fetch url redirects tries (2 * pause)
      else throw (.transport fault)
    | .error f => throw f

def maxRetries : Nat := 2

def firstPause : Nat := 1

def download (url : String) (redirects : Bool) : Action Bytes := do
  let r ← fetch url redirects maxRetries firstPause
  if r.status = Status.ok then return r.body
  else throw (.rejected ⟨r.status, "failed to get hosting asset", some url⟩)

def exportAsset (root : Path) (redirects : Bool) (a : Asset) : Action Unit := do
  let p ← target root a.path
  let body ← download a.url redirects
  Action.makeFolders p.parent
  Action.store p body

def reportExport (talks : Bool) (c : Pool.Complaint) : Action Unit := do
  Action.record .warning "Asset download failed" [("asset", .str c.path), ("error", .str c.text)]
  if talks then Action.complain c.text

-- How the download of an asset ends: failures of targets, answers, transport and files
-- are complaints; any other one takes the worker along.
def exportVerdict (a : Asset) : Except Failure Unit → Pool.Verdict
  | .ok () => .done
  | .error (.operation path text) => .failed ⟨path, text⟩
  | .error f =>
    match f with
    | .rejected _ | .transport _ | .file _ =>
      .failed ⟨a.path, "downloading '" ++ a.path ++ "' failed => " ++ f.message⟩
    | _ => .crashed f

def exportWork (root : Path) (redirects talks : Bool) (_ : Nat) (a : Asset) :
    Action Pool.Verdict := do
  match ← Action.outcome (exportAsset root redirects a) with
  | .error .interrupted => throw .interrupted
  | outcome =>
    let v := exportVerdict a outcome
    v.complaint?.forM (reportExport talks)
    return v

structure ExportStyle where
  workers : Int
  redirects : Bool
  talks : Bool

def exportAssets (send : Sender) (group app : String) (folder : Path) (style : ExportStyle) :
    Action (List Asset) := do
  let assets ← (list group app).call send
  Manifest.save (Manifest.location folder) (Asset.descriptions assets)
  let files := Manifest.filesFolder folder
  Action.makeFolders files
  let root ← realPath files
  match ← Pool.run (exportWork root style.redirects style.talks) style.workers.toNat
      (assets.filter fun a => !a.isFolder) with
  | first :: rest => throw (.exporting (rest.length + 1) first.text)
  | [] =>
    Action.record .info "Exported hosting assets"
      [("app_id", .str app), ("count", .int assets.length)]
    return assets

end HostingAdmin.Hosting
