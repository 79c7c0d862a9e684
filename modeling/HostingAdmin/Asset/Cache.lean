import HostingAdmin.World

/-!
Known hashes of files, by app and asset path. An entry holds while size and time of change of its
file are the ones it was made with.
-/

set_option autoImplicit false

namespace HostingAdmin

structure CacheEntry where
  path : String
  lastModified : Int
  size : Int
  hash : String
deriving DecidableEq

structure Cache where
  entries : Members (Members CacheEntry)
  dirty : Bool

namespace CacheEntry

def title : String := "AssetCacheEntry"

def check (source : Source) : Json → Checked CacheEntry :=
  Check.record source title fun ms =>
    let f := Checked.and (.ok CacheEntry.mk) (Check.required ms ["path"] Check.string)
    let f := Checked.and f (Check.optional ms ["last_modified"] Check.integer 0)
    let f := Checked.and f (Check.optional ms ["size"] Check.integer 0)
    Checked.and f (Check.optional ms ["hash"] Check.string "")

def toJson (e : CacheEntry) : Json :=
  .obj [("path", .str e.path), ("last_modified", .int e.lastModified), ("size", .int e.size),
    ("hash", .str e.hash)]

def holds (e : CacheEntry) (size lastModified : Int) : Bool :=
  e.size = size && e.lastModified = lastModified

end CacheEntry

namespace Cache

def empty : Cache := ⟨[], false⟩

def get? (c : Cache) (app path : String) : Option CacheEntry :=
  (c.entries.lookup app).bind fun es => es.lookup path

def set (c : Cache) (app : String) (e : CacheEntry) : Cache :=
  ⟨Members.put app (Members.put e.path e ((c.entries.lookup app).getD [])) c.entries, true⟩

def title : String := "dict[str,dict[str," ++ CacheEntry.title ++ "]]"

def toJson (c : Cache) : Json :=
  .obj (c.entries.map fun (app, es) => (app, .obj (es.map fun (path, e) => (path, e.toJson))))

def fileText (c : Cache) : Bytes := Text.utf8 c.toJson.compact

def parse (body : Bytes) : Except Invalid Cache :=
  (Json.parsed title
    (fun source => Check.map source (Check.map source (CacheEntry.check source))) body).map
      fun entries => ⟨entries, false⟩

def load (p : Path) : Action Cache := do
  if ← Action.fileExists p then
    match parse (← Action.load p) with
    | .ok c => return c
    | .error fault =>
      Action.record .warning "Ignoring unreadable asset cache"
        [("path", .str p.toString), ("error", .str fault.message)]
      return empty
  else return empty

def save (c : Cache) (p : Path) : Action Cache := do
  Action.makeFolders p.parent
  Action.store p c.fileText
  return { c with dirty := false }

end Cache

end HostingAdmin
