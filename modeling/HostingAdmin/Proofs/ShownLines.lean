import HostingAdmin.Proofs.ImportRequests
import HostingAdmin.Proofs.ImportPlan

set_option autoImplicit false

namespace HostingAdmin

namespace Hosting

-- A request that stores an asset under a path: the path is in the description that
-- comes with the contents.
structure Stores (site : Site) (path : String) (r : Request) : Prop where
  method : r.method = "PUT"
  route : r.path = assetRoute site.group site.app
  params : r.params = none
  carried : ∃ (a : Asset) (boundary : String) (contents : Bytes), a.path = path ∧ a.appId = site.app ∧
    r.headers = some [("Content-Type", Multipart.contentType boundary)] ∧
    r.body = some (Multipart.encode boundary [("meta", Text.utf8 a.uploadMeta.spaced), ("file", contents)])

structure Names (site : Site) (method path : String) (r : Request) : Prop where
  method : r.method = method
  route : r.path = assetRoute site.group site.app
  params : r.params = some [("path", path)]

inductive Permits (site : Site) : String → Request → Prop where
  | add (path : String) (r : Request) (stores : Stores site path r) : Permits site ("\t+ " ++ path) r
  | remove (path : String) (r : Request) (names : Names site "DELETE" path r) : Permits site ("\t- " ++ path) r
  | replace (path : String) (r : Request) (stores : Stores site path r) : Permits site ("\t* " ++ path) r
  | change (path : String) (r : Request) (names : Names site "PATCH" path r) : Permits site ("\t* " ++ path) r

-- Each request is permitted by a line of its own, and only a wished reset is added.
def Permitted (site : Site) (lines : List String) (resetCache : Bool) (rs : List Request) : Prop :=
  ∃ (parts : List (String × Request)) (resets : List Request), rs = parts.map Prod.snd ++ resets ∧
    (parts.map Prod.fst).Nodup ∧ (∀ x ∈ parts, x.1 ∈ lines ∧ Permits site x.1 x.2) ∧
    (resets = [] ∨ resetCache = true ∧ resets = [resetRequest site])

theorem upload_stores (site : Site) (a : Asset) (body : Bytes) (boundary : String) :
    Stores site a.path (Hosting.upload site.group { a with appId := site.app } body boundary).request :=
  ⟨rfl, rfl, rfl, { a with appId := site.app }, boundary, body, rfl, rfl, rfl, rfl⟩

namespace Operation

def line : Operation → String
  | .add a => "\t+ " ++ a.path
  | .delete a => "\t- " ++ a.path
  | .modify m => "\t* " ++ m.asset.path

theorem carries_permits (site : Site) (op : Operation) (r : Request) (carries : op.Carries site r) :
    Permits site op.line r := by
  cases carries with
  | add a body boundary => exact .add a.path _ (upload_stores site a body boundary)
  | delete a => exact .remove a.path _ ⟨rfl, rfl, rfl⟩
  | replace m body boundary => exact .replace m.asset.path _ (upload_stores site m.asset body boundary)
  | change m => exact .change m.asset.path _ ⟨rfl, rfl, rfl⟩

theorem line_injective (op other : Operation) (same : op.line = other.line) : op.path = other.path := by
  have letters := congrArg String.toList same
  cases op <;> cases other <;> simp only [line, String.toList_append] at letters <;> simp [path] at letters ⊢
  all_goals exact String.toList_inj.mp letters

end Operation

theorem block_lines (title sign : String) (paths : List String) :
    (paths.map fun p => "\t" ++ sign ++ " " ++ p).Sublist (Diff.block title sign paths) := by
  cases paths with
  | nil => exact List.Sublist.refl _
  | cons p rest => exact List.sublist_cons_self _ _

-- Every operation is shown by a line, the operations in their order.
theorem operations_shown (d : Diff) : ((Operation.ofDiff d).map Operation.line).Sublist d.lines := by
  have added := block_lines "New Files:" "+" (d.added.map Asset.path)
  have deleted := block_lines "Removed Files:" "-" (d.deleted.map Asset.path)
  have modified := block_lines "Modified Files:" "*" (d.modified.map fun m => m.asset.path)
  rw [List.map_map] at added deleted modified
  rw [Operation.ofDiff, List.map_append, List.map_append, List.map_map, List.map_map, List.map_map]
  exact (added.append deleted).append modified

theorem lines_once (ops : List Operation) (distinct : (ops.map Operation.path).Nodup) :
    (ops.map Operation.line).Nodup := by
  rw [List.Nodup, List.pairwise_map] at distinct ⊢
  exact distinct.imp fun {op other} apart same => apart (Operation.line_injective op other same)

theorem charges_permitted (site : Site) (d : Diff) (resetCache : Bool) (rs : List Request)
    (distinct : ((Operation.ofDiff d).map Operation.path).Nodup)
    (charges : Charges site (Operation.ofDiff d) resetCache rs) : Permitted site d.lines resetCache rs := by
  obtain ⟨parts, resets, rfl, ⟨ops, same, planned⟩, carries, reset⟩ := charges
  refine ⟨parts.map fun x => (x.1.line, x.2), resets, ?_, ?_, ?_, reset⟩
  · rw [List.map_map]
    rfl
  · have once := (same.map Operation.line).nodup ((planned.map Operation.line).nodup (lines_once _ distinct))
    rwa [List.map_map] at once ⊢
  · intro x member
    obtain ⟨part, among, rfl⟩ := List.mem_map.mp member
    have line : part.1.line ∈ (Operation.ofDiff d).map Operation.line :=
      List.mem_map_of_mem (planned.subset (same.symm.subset (List.mem_map_of_mem among)))
    exact ⟨(operations_shown d).subset line, Operation.carries_permits site part.1 part.2 (carries part among)⟩

-- Only a line for a removed path leads to a deletion.
theorem undeleted (site : Site) (d : Diff) (resetCache : Bool) (rs : List Request) (none : d.deleted = [])
    (charges : Charges site (Operation.ofDiff d) resetCache rs) : ∀ r ∈ rs, r.method ≠ "DELETE" := by
  obtain ⟨parts, resets, rfl, sub, carries, reset⟩ := charges
  intro r member deletion
  rcases List.mem_append.mp member with part | last
  · obtain ⟨⟨op, r⟩, among, rfl⟩ := List.mem_map.mp part
    have planned : op ∈ Operation.ofDiff d := sub.subset (List.mem_map_of_mem among)
    have carried := carries _ among
    cases carried with
    | delete a => simp [Operation.ofDiff, none] at planned
    | add a body boundary => exact absurd (show "PUT" = "DELETE" from deletion) (by decide)
    | replace m body boundary => exact absurd (show "PUT" = "DELETE" from deletion) (by decide)
    | change m => exact absurd (show "PATCH" = "DELETE" from deletion) (by decide)
  · rcases reset with rfl | ⟨_, rfl⟩
    · cases last
    · rw [List.mem_singleton.mp last] at deletion
      exact absurd (show "PUT" = "DELETE" from deletion) (by decide)

end Hosting

end HostingAdmin
