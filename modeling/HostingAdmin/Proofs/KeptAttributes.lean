import HostingAdmin.Proofs.AttributeOrder
import HostingAdmin.Proofs.CachedListings
import HostingAdmin.Proofs.ImportPlan

set_option autoImplicit false

namespace HostingAdmin

open HostingAdmin.Action

-- The attributes that come back for an asset: the allowed ones, and of an asset without
-- any those of its media type.
structure Asset.Returned (a : Asset) (attrs : List Attribute) : Prop where
  kept : Attribute.sameAll attrs (a.attrs.filter Attribute.isAllowed) = true ↔
    (a.attrs = [] → MediaType.ofPath? a.path = none)
  given : ∀ type, a.attrs = [] → MediaType.ofPath? a.path = some type → attrs = [⟨Attribute.contentType, type⟩]

namespace Attribute

theorem allowed_usual (type : String) : isAllowed ⟨contentType, type⟩ = true := by
  simp [isAllowed, allowedNames]

theorem returned_bare (a : Asset) (bare : a.attrs = []) : a.Returned (usual a.path) := by
  rw [usual]
  cases typed : MediaType.ofPath? a.path with
  | none => exact ⟨by simp [bare, typed, same_all_refl], by simp [typed]⟩
  | some type => exact ⟨by simp [bare, typed, sameAll], by simp [typed]⟩

theorem returned_kept (a : Asset) (some_attrs : a.attrs ≠ []) (attrs : List Attribute)
    (same : attrs = a.attrs.filter isAllowed) : a.Returned attrs :=
  ⟨by simp [some_attrs, same, same_all_refl], fun _ bare => absurd bare some_attrs⟩

theorem returned_described (a : Asset) : a.Returned (Listing.attributes a.path a.description?) := by
  rcases a.description_cases with ⟨absent, bare | ⟨type, typed, attrs⟩⟩ | ⟨some_attrs, described⟩
  · rw [absent]
    exact returned_bare a bare
  · rw [absent]
    apply returned_kept a (by simp [attrs])
    simp [Listing.attributes, usual, typed, attrs, allowed_usual]
  · rw [described]
    exact returned_kept a some_attrs _ rfl

-- They differ from the hosted ones when names that are not allowed go, or when the media
-- type comes.
theorem returned_changed (a : Asset) (attrs : List Attribute) (returned : a.Returned attrs) :
    sameAll attrs a.attrs = false ↔
      (∃ x ∈ a.attrs, x.isAllowed = false) ∨ a.attrs = [] ∧ MediaType.ofPath? a.path ≠ none := by
  have kept := returned.kept
  by_cases bare : a.attrs = []
  · rw [bare] at kept ⊢
    rw [← Bool.not_eq_true, ← List.filter_nil, kept]
    simp
  · have back := (same_all_perm _ _).mp (kept.mpr fun empty => absurd empty bare)
    rw [← Bool.not_eq_true, same_all_perm, back.congr_left]
    have whole : (a.attrs.filter isAllowed).Perm a.attrs ↔ ∀ x ∈ a.attrs, x.isAllowed = true := by
      rw [← List.filter_eq_self]
      constructor
      · intro perm
        exact (List.filter_sublist).eq_of_length perm.length_eq
      · intro same
        rw [same]
    rw [whole]
    simp [bare]

end Attribute

namespace Listing

variable (t : FileTree) (now : Int) (app : String)

theorem describe_attributes (q : Path) (path : String) (d : Option Description) (c after : Cache) (here : Asset)
    (described : describe t now app q path d c = .ok (here, after)) :
    here.path = path ∧ here.attrs = attributes path d := by
  obtain ⟨_, _, _, _, _, rfl⟩ := describe_parts t now app q path d c after here described
  exact ⟨rfl, rfl⟩

theorem all_attributes (root : Path) (ds : Members Description) (files : List (List String)) (c after : Cache)
    (here : List Asset) (described : describeAll t now app root ds files c = (.ok here, after)) (x : Asset)
    (listed : x ∈ here) : x.attrs = attributes x.path (ds.lookup x.path) := by
  induction files generalizing c here with
  | nil =>
      cases described
      cases listed
  | cons names rest ih =>
      rw [describeAll] at described
      dsimp only at described
      split at described
      · cases described
      · rename_i a next first
        obtain ⟨path, attrs⟩ := describe_attributes t now app _ _ _ c next a first
        rcases restEq : describeAll t now app root ds rest next with ⟨fault | others, learnt⟩
        · rw [restEq] at described
          cases described
        · rw [restEq] at described
          cases described
          rcases List.mem_cons.mp listed with rfl | later
          · rw [path]
            exact attrs
          · exact ih next others restEq later

end Listing

namespace Manifest

theorem saved_loaded_back (p : Path) (ds : List Description) (w v : World)
    (saved : (save p ds).perform w = (.ok (), v)) : (load p).perform v = (.ok (byPath ds), v) := by
  obtain ⟨_, u, folders, stored⟩ := bind_ok _ _ _ _ _ saved
  obtain ⟨_, made⟩ := Hosting.change_done p.parent _ w u folders
  rw [Hosting.store_performed] at stored
  obtain ⟨clean, written⟩ := Hosting.change_done p _ u v stored
  have named := FileTree.saved_named w.files u.files v.files p (fileText ds) _ made written
  have held := FileTree.written_read u.files v.files p (fileText ds) _ named written
  obtain ⟨_, text⟩ := Profile.file_loaded p v _ clean held
  simp [load, perform_bind, text, Action.ofExcept, text_descriptions]

theorem site_saved (body : Bytes) (modified : Int) (ds : List Description) (w : World)
    (files : w.files = Listing.site body modified []) : ∃ v, (save ⟨1, ["c"]⟩ ds).perform w = (.ok (), v) ∧
      v.files = Listing.site body modified [("c", .file (fileText ds) (nanoseconds w.clock))] := by
  obtain ⟨made, after, folders, stored, _, built, written⟩ := stored_read ⟨1, ["c"]⟩ (fileText ds) w (by decide)
    (by rw [files]; exact Listing.site_takes body modified)
  rw [files, Listing.site_folders] at built
  cases built
  rw [Listing.site_written] at written
  cases written
  have saved := perform_bind (makeFolders (Path.parent ⟨1, ["c"]⟩)) (fun _ => store ⟨1, ["c"]⟩ (fileText ds)) w
  rw [folders] at saved
  exact ⟨_, saved.trans stored, rfl⟩

theorem html_typed : MediaType.ofPath? "/a.html" = some "text/html" := by decide

end Manifest

end HostingAdmin
