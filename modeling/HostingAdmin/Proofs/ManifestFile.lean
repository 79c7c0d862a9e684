import Mathlib.Data.List.Nodup
import HostingAdmin.Asset.Manifest
import HostingAdmin.Proofs.CheckedValues
import HostingAdmin.Proofs.ProfileFile

set_option autoImplicit false

namespace HostingAdmin

theorem attribute_checked (source : Source) (a : Attribute) : Attribute.check source a.toJson = .ok a := rfl

theorem attribute_legible (r : Json.Rules) (depth : Nat) (allowed : r.allows depth = true) (a : Attribute) :
    Json.Legible r depth a.toJson :=
  ⟨allowed, show ["name", "value"].Nodup by decide, trivial, trivial, trivial⟩

theorem attributes_legible (r : Json.Rules) (depth : Nat) (list : r.allows depth = true)
    (item : r.allows (depth + 1) = true) (attrs : List Attribute) :
    Json.Legible r depth (Attribute.listJson attrs) :=
  ⟨list, items_legible r (depth + 1) Attribute.toJson (attribute_legible r (depth + 1) item) attrs⟩

theorem attributes_checked (source : Source) (attrs : List Attribute) :
    Check.list source (Attribute.check source) (Attribute.listJson attrs) = .ok attrs :=
  list_checked source (Attribute.check source) Attribute.toJson (attribute_checked source) attrs

theorem description_checked (source : Source) (d : Description) : Description.check source d.toJson = .ok d := by
  have optional : Check.optional [("path", .str d.path), ("attrs", Attribute.listJson d.attrs)] ["attrs"]
      (Check.list source (Attribute.check source)) [] = .ok d.attrs := by
    have found : Check.optional [("path", .str d.path), ("attrs", Attribute.listJson d.attrs)] ["attrs"]
        (Check.list source (Attribute.check source)) [] =
        (Check.list source (Attribute.check source) (Attribute.listJson d.attrs)).under "attrs" := rfl
    rw [found, attributes_checked]
    rfl
  have built : Description.check source d.toJson = Checked.and (.ok (Description.mk d.path))
      (Check.optional [("path", .str d.path), ("attrs", Attribute.listJson d.attrs)] ["attrs"]
        (Check.list source (Attribute.check source)) []) := rfl
  rw [built, optional]
  rfl

theorem description_legible (d : Description) : Json.Legible .strict 1 d.toJson :=
  ⟨rfl, show ["path", "attrs"].Nodup by decide, trivial,
    attributes_legible .strict 2 rfl rfl d.attrs, trivial⟩

namespace Asset

-- No description is written for an asset without attributes, nor for one with the usual
-- ones only.
theorem description_cases (a : Asset) :
    a.description? = none ∧ (a.attrs = [] ∨
      ∃ type, MediaType.ofPath? a.path = some type ∧ a.attrs = [⟨Attribute.contentType, type⟩]) ∨
    a.attrs ≠ [] ∧ a.description? = some ⟨a.path, a.attrs.filter Attribute.isAllowed⟩ := by
  rw [description?]
  by_cases empty : a.attrs = []
  · exact .inl ⟨by simp [empty], .inl empty⟩
  · by_cases usual : a.hasUsualAttrs = true
    · refine .inl ⟨by simp [usual], .inr ?_⟩
      rw [hasUsualAttrs] at usual
      split at usual
      · rename_i x attrs
        obtain ⟨named, typed⟩ := Bool.and_eq_true_iff.mp usual
        obtain ⟨name, value⟩ := x
        obtain rfl := of_decide_eq_true named
        exact ⟨value, of_decide_eq_true typed, attrs⟩
      · cases usual
    · exact .inr ⟨empty, by simp [empty, usual]⟩

theorem described_path (a : Asset) (d : Description) (described : a.description? = some d) : d.path = a.path := by
  rw [Asset.description?] at described
  split at described
  · cases described
  · cases described
    rfl

theorem descriptions_paths (listing : List Asset) (distinct : (listing.map Asset.path).Nodup) :
    ((descriptions listing).map Description.path).Nodup := by
  have within : ((descriptions listing).map Description.path).Sublist (listing.map Asset.path) := by
    clear distinct
    induction listing with
    | nil => exact List.Sublist.refl _
    | cons a rest ih =>
        rw [descriptions, List.filterMap_cons]
        cases described : a.description? with
        | none => exact ih.cons a.path
        | some d =>
            rw [List.map_cons, described_path a d described]
            exact ih.cons_cons a.path
  exact within.nodup distinct

end Asset

namespace Manifest

theorem descriptions_plain (listing : List Asset) (distinct : (listing.map Asset.path).Nodup) :
    byPath (Asset.descriptions listing) = (Asset.descriptions listing).map fun d => (d.path, d) := by
  apply Members.pairs_distinct
  rw [Members.names, List.map_map]
  exact Asset.descriptions_paths listing distinct

theorem descriptions_lookup (listing : List Asset) (distinct : (listing.map Asset.path).Nodup) (a : Asset)
    (listed : a ∈ listing) : (byPath (Asset.descriptions listing)).lookup a.path = a.description? := by
  rw [descriptions_plain listing distinct]
  cases described : a.description? with
  | some d =>
      apply Members.mem_lookup
      · rw [Members.names, List.map_map]
        exact Asset.descriptions_paths listing distinct
      · rw [← Asset.described_path a d described]
        exact List.mem_map_of_mem (List.mem_filterMap.mpr ⟨a, listed, described⟩)
  | none =>
      rw [Option.eq_none_iff_forall_ne_some]
      intro d found
      obtain ⟨e, member, same⟩ := List.mem_map.mp (Members.lookup_some_mem a.path d _ found)
      obtain ⟨b, also, given⟩ := List.mem_filterMap.mp member
      obtain ⟨path, rfl⟩ := Prod.mk.inj same
      have twin := List.inj_on_of_nodup_map distinct also listed ((Asset.described_path b e given).symm.trans path)
      rw [twin, described] at given
      cases given

theorem text_descriptions (ds : List Description) : parse (fileText ds) = .ok ds := by
  refine text_parsed _ _ _ ds ?_ (list_checked .text _ Description.toJson (description_checked .text) ds)
  exact ⟨rfl, items_legible .strict 1 Description.toJson description_legible ds⟩

end Manifest

end HostingAdmin
