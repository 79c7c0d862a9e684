import HostingAdmin.Asset.Cache
import HostingAdmin.Proofs.CheckedValues
import HostingAdmin.Proofs.StoredFiles

set_option autoImplicit false

namespace HostingAdmin

open HostingAdmin.Action

namespace CacheEntry

structure Short (e : CacheEntry) : Prop where
  time : Json.Short e.lastModified
  size : Json.Short e.size

theorem entry_checked (source : Source) (e : CacheEntry) : check source e.toJson = .ok e := rfl

theorem entry_short (source : Source) (j : Json) (e : CacheEntry) (sound : j.Sound) (checked : check source j = .ok e) :
    e.Short := by
  cases j with
  | obj ms =>
      obtain ⟨_, hash, untilSize, _, rfl⟩ := checked_and _ _ e checked
      obtain ⟨_, size, untilTime, sizeEq, rfl⟩ := checked_and _ _ _ untilSize
      obtain ⟨_, time, untilPath, timeEq, rfl⟩ := checked_and _ _ _ untilTime
      obtain ⟨_, path, start, _, rfl⟩ := checked_and _ _ _ untilPath
      cases start
      exact ⟨Check.optional_short ms _ time sound timeEq, Check.optional_short ms _ size sound sizeEq⟩
  | _ => cases checked

theorem entry_legible (r : Json.Rules) (depth : Nat) (allowed : r.allows depth = true) (e : CacheEntry)
    (short : e.Short) : Json.Legible r depth e.toJson :=
  ⟨allowed, show ["path", "last_modified", "size", "hash"].Nodup by decide, trivial, short.time, short.size, trivial,
    trivial⟩

end CacheEntry

namespace Cache

-- A cache that its file can hold: each app once, each path of an app once, and no number
-- that is too long to be read.
structure Storable (c : Cache) : Prop where
  apps : (Members.names c.entries).Nodup
  paths : ∀ app es, (app, es) ∈ c.entries → (Members.names es).Nodup
  numbers : ∀ app es path e, (app, es) ∈ c.entries → (path, e) ∈ es → e.Short

theorem empty_storable : empty.Storable where
  apps := List.nodup_nil
  paths _ _ member := by cases member
  numbers _ _ _ _ member := by cases member

theorem set_storable (c : Cache) (app : String) (e : CacheEntry) (storable : c.Storable) (short : e.Short) :
    (c.set app e).Storable := by
  have known : ∀ es, c.entries.lookup app = some es → (app, es) ∈ c.entries :=
    fun es found => Members.lookup_some_mem app es c.entries found
  have own : (Members.names ((c.entries.lookup app).getD [])).Nodup ∧
      ∀ path e, (path, e) ∈ (c.entries.lookup app).getD [] → e.Short := by
    cases found : c.entries.lookup app with
    | none => exact ⟨List.nodup_nil, fun path e member => by cases member⟩
    | some es =>
        have listed := known es found
        exact ⟨storable.paths app es listed, fun path e => storable.numbers app es path e listed⟩
  refine ⟨Members.put_nodup app _ _ storable.apps, ?_, ?_⟩
  · intro other es member
    rcases Members.mem_put app other _ es c.entries member with ⟨rfl, rfl⟩ | before
    · exact Members.put_nodup e.path e _ own.1
    · exact storable.paths other es before
  · intro other es path x member inside
    rcases Members.mem_put app other _ es c.entries member with ⟨rfl, rfl⟩ | before
    · rcases Members.mem_put e.path path e x _ inside with ⟨rfl, rfl⟩ | older
      · exact short
      · exact own.2 path x older
    · exact storable.numbers other es path x before inside

theorem cache_legible (c : Cache) (storable : c.Storable) : Json.Legible .strict 0 c.toJson := by
  refine map_legible .strict 0 rfl (fun es => .obj (es.map fun m => (m.1, m.2.toJson))) c.entries
    storable.apps fun app es listed => ?_
  refine map_legible .strict 1 rfl CacheEntry.toJson es (storable.paths app es listed) fun path e inside => ?_
  exact CacheEntry.entry_legible .strict 2 rfl e (storable.numbers app es path e listed inside)

theorem text_entries (c : Cache) (storable : c.Storable) : parse c.fileText = .ok { c with dirty := false } := by
  have checked := map_checked .text (Check.map .text (CacheEntry.check .text)) _
    (map_checked .text (CacheEntry.check .text) _ (CacheEntry.entry_checked .text)) c.entries
  have parsed := written_parsed .compact Json.compact_regular title
    (fun source => Check.map source (Check.map source (CacheEntry.check source))) c.toJson c.entries
    (cache_legible c storable) checked
  rw [parse, fileText, Json.compact, parsed]
  rfl

-- A cache that comes from a file can be put into one again, however the file was written.
theorem parse_storable (body : Bytes) (c : Cache) (parsed : parse body = .ok c) : c.Storable := by
  rw [parse, Json.parsed] at parsed
  split at parsed
  · rename_i j read
    cases checked : Check.map .text (Check.map .text (CacheEntry.check .text)) j with
    | error faults =>
        rw [checked] at parsed
        cases parsed
    | ok entries =>
        rw [checked] at parsed
        cases parsed
        obtain ⟨apps, rfl, names, inside⟩ := checked_map .text _ j entries checked
        cases Json.strict_sound body _ read with
        | obj _ unique members =>
            have below : ∀ app es, (app, es) ∈ entries → ∃ ms, (Json.obj ms).Sound ∧
                Members.names es = Members.names ms ∧
                  ∀ path e, (path, e) ∈ es → ∃ y, (path, y) ∈ ms ∧ CacheEntry.check .text y = .ok e := by
              intro app es listed
              obtain ⟨y, member, read⟩ := inside app es listed
              obtain ⟨ms, rfl, same, found⟩ := checked_map .text _ y es read
              exact ⟨ms, members app _ member, same, found⟩
            refine ⟨by rw [names]; exact unique, ?_, ?_⟩
            · intro app es listed
              obtain ⟨ms, sound, same, _⟩ := below app es listed
              cases sound with
              | obj _ distinct _ => rwa [same]
            · intro app es path e listed member
              obtain ⟨ms, sound, _, found⟩ := below app es listed
              obtain ⟨y, there, checked⟩ := found path e member
              cases sound with
              | obj _ _ values => exact CacheEntry.entry_short .text y e (values path y there) checked
  · cases parsed

theorem load_storable (p : Path) (w v : World) (c : Cache) (loaded : (load p).perform w = (.ok c, v)) :
    c.Storable := by
  rw [load, perform_bind] at loaded
  rcases asked : (Action.fileExists p).perform w with ⟨f | here, u⟩
  · rw [asked] at loaded
    cases loaded
  · rw [asked] at loaded
    dsimp only at loaded
    split at loaded
    · rw [perform_bind] at loaded
      rcases bytes : (Action.load p).perform u with ⟨f | body, x⟩
      · rw [bytes] at loaded
        cases loaded
      · rw [bytes] at loaded
        dsimp only at loaded
        split at loaded
        · rename_i found parsed
          cases loaded
          exact parse_storable body _ parsed
        · rename_i fault _
          obtain ⟨y, recorded⟩ := record_succeeds .warning "Ignoring unreadable asset cache"
            [("path", .str p.toString), ("error", .str fault.message)] x
          rw [perform_bind, recorded] at loaded
          cases loaded
          exact empty_storable
    · cases loaded
      exact empty_storable

theorem saved_read (c : Cache) (p : Path) (w : World) (clean : hasNull p = false) (takes : w.files.Takes p) :
    ∃ made files, (save c p).perform w = (.ok { c with dirty := false }, { w with files }) ∧
      files.read p = .ok c.fileText ∧ w.files.makeFolders p.parent = .ok made ∧
      made.write p c.fileText (nanoseconds w.clock) = .ok files := by
  obtain ⟨made, files, folders, stored, held, built, written⟩ := stored_read p c.fileText w clean takes
  refine ⟨made, files, ?_, held, built, written⟩
  rw [save, perform_bind, folders]
  dsimp only
  rw [perform_bind, stored]
  rfl

theorem load_saved (c : Cache) (p : Path) (w : World) (clean : hasNull p = false) (storable : c.Storable)
    (there : w.files.read p = .ok c.fileText) : (load p).perform w = (.ok { c with dirty := false }, w) := by
  obtain ⟨here, loaded⟩ := Profile.file_loaded p w c.fileText clean there
  rw [load, perform_bind, here]
  dsimp only
  rw [if_pos rfl, perform_bind, loaded]
  dsimp only
  rw [text_entries c storable]
  rfl

end Cache

end HostingAdmin
