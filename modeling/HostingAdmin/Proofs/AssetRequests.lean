import HostingAdmin.Proofs.CallTraffic
import HostingAdmin.Proofs.FormFields
import HostingAdmin.Proofs.HostedStore
import HostingAdmin.Proofs.ImportRequests
import HostingAdmin.Proofs.UploadFormat

set_option autoImplicit false

namespace HostingAdmin

namespace Multipart

-- The boundary that a content type names.
def boundary? (type : String) : Option String :=
  ("multipart/mixed; boundary=".toList.isPrefixOf? type.toList).map String.ofList

-- The contents of the first part, if it has this name; what stands behind its end is
-- not looked at.
def first? (boundary name : String) (payload : Bytes) : Option Bytes := do
  let rest ← (opening boundary name).isPrefixOf? payload
  (cut (delimiter boundary) rest).head?

theorem boundary_named (boundary : String) : boundary? (contentType boundary) = some boundary := by
  have split : (contentType boundary).toList = "multipart/mixed; boundary=".toList ++ boundary.toList :=
    String.toList_append
  have rest := List.isPrefixOf?_eq_some_iff_append_eq.mpr split.symm
  rw [boundary?, rest, Option.map_some, String.ofList_toList]

theorem cut_front (boundary : String) (piece rest : Bytes) (line : 0x0D ∉ piece) :
    (cut (delimiter boundary) (piece ++ (delimiter boundary ++ rest))).head? = some piece := by
  have octets := delimiter_octets boundary
  induction piece with
  | nil =>
      have found : (delimiter boundary).isPrefixOf (delimiter boundary ++ rest) = true :=
        List.isPrefixOf_iff_prefix.mpr (List.prefix_append _ _)
      rw [List.nil_append]
      rw [octets, List.cons_append] at found ⊢
      rw [cut, if_pos found, List.head?_cons]
  | cons b piece ih =>
      rw [List.mem_cons, not_or] at line
      have apart : ¬ (delimiter boundary).isPrefixOf (b :: (piece ++ (delimiter boundary ++ rest))) = true := by
        rw [List.isPrefixOf_iff_prefix, octets, List.cons_prefix_cons]
        exact fun front => line.1 front.1
      have further := ih line.2
      rw [List.cons_append, cut, if_neg apart]
      cases pieces : cut (delimiter boundary) (piece ++ (delimiter boundary ++ rest)) with
      | nil =>
          rw [pieces] at further
          cases further
      | cons first more =>
          rw [pieces, List.head?_cons] at further
          rw [extend, List.head?_cons, Option.some.inj further]

theorem first_part (boundary name other : String) (about contents : Bytes) (line : 0x0D ∉ about) :
    first? boundary name (encode boundary [(name, about), (other, contents)]) = some about := by
  have ends : Text.utf8 "\r\n" = lineEnd := by decide
  have whole : encode boundary [(name, about), (other, contents)] = opening boundary name ++ (about ++
      (delimiter boundary ++ (piece (other, contents) ++ (lineEnd ++ closing boundary)))) := by
    have opens : opening boundary other = dashes boundary ++ (opensName ++ (Text.utf8 other ++ closesName)) := by
      simp [opening, dashes, opensName, closesName, Text.utf8]
    simp only [encode, List.flatMap_cons, List.flatMap_nil, ends, opens, piece, delimiter, List.append_assoc,
      List.append_nil]
  have opened : (opening boundary name).isPrefixOf? (encode boundary [(name, about), (other, contents)]) =
      some (about ++ (delimiter boundary ++ (piece (other, contents) ++ (lineEnd ++ closing boundary)))) :=
    List.isPrefixOf?_eq_some_iff_append_eq.mpr whole.symm
  rw [first?, opened]
  exact cut_front boundary about _ line

end Multipart

namespace Hosting

def readAttribute (j : Json) : Option Attribute :=
  match j.get? "name", j.get? "value" with
  | some (.str name), some (.str value) => some ⟨name, value⟩
  | _, _ => none

def readAttributes : Json → Option (List Attribute)
  | .arr items => items.mapM readAttribute
  | _ => none

theorem read_attributes (attrs : List Attribute) : readAttributes (Attribute.listJson attrs) = some attrs := by
  unfold Attribute.listJson readAttributes
  induction attrs with
  | nil => rfl
  | cons a rest ih =>
      have first : readAttribute a.toJson = some a := rfl
      simp only [List.map_cons, List.mapM_cons, first, ih]
      rfl

-- What a description of an asset stores. Without a hash that is nothing.
def Change.ofMeta? (about : Json) : Option Change :=
  match about.get? "path", about.get? "hash", (about.get? "attrs").bind readAttributes with
  | some (.str path), some (.str hash), some attrs => some (.put path hash attrs)
  | _, _, _ => none

section

variable (query : Option String) (body : Bytes)

-- What a request says in its query and its body; what an upload stores stands in its
-- first part.
def Change.ofUpload? (type : Option String) : Option Change := do
  let boundary ← type.bind Multipart.boundary?
  let about ← Multipart.first? boundary "meta" body
  ofMeta? (← (Json.ofBytes about).toOption)

def Change.ofPatch? : Option Change := do
  let path ← query.bind (Url.formField? "path")
  let fields ← (Json.ofBytes body).toOption
  return .patch path (← (fields.get? "attributes").bind readAttributes)

def Change.ofDeletion? : Option Change := (query.bind (Url.formField? "path")).map .delete

end

-- The change that a request to the asset resource at a place asks for.
def Change.ofRequest? (place : Url) (r : WireRequest) : Option Change :=
  if { r.url with query := none } = { place with query := none } then
    if r.method = "PUT" then ofUpload? r.body (r.header? "Content-Type")
    else if r.method = "PATCH" then ofPatch? r.url.query r.body
    else if r.method = "DELETE" then ofDeletion? r.url.query
    else none
  else none

theorem request_placed (place : Url) (method : String) (params headers : List (String × String)) (body : Bytes) :
    Change.ofRequest? place ⟨method, place.withParams params, headers, body⟩ =
      if method = "PUT" then
        Change.ofUpload? body (WireRequest.header? ⟨method, place.withParams params, headers, body⟩ "Content-Type")
      else if method = "PATCH" then Change.ofPatch? (place.withParams params).query body
      else if method = "DELETE" then Change.ofDeletion? (place.withParams params).query
      else none := by
  have there : { place.withParams params with query := none } = { place with query := none } := by
    cases params <;> rfl
  exact if_pos there

-- The change of an app below a base that an exchange asks for.
def asked? (base : Url) (site : Site) : Exchange → Option Change
  | .asked _ => none
  | .sent r =>
    match base.below (assetRoute site.group site.app) with
    | .ok place => Change.ofRequest? place r
    | .error _ => none

theorem meta_stores (a : Asset) (hashed : a.hash ≠ "") :
    Change.ofMeta? a.uploadMeta = some (.put a.path a.hash a.attrs) := by
  have found := a.lookup_upload
  simp [Change.ofMeta?, Asset.upload_fields, Json.get?, found, hashed, read_attributes]

theorem upload_stored (a : Asset) (contents : Bytes) (boundary : String) (hashed : a.hash ≠ "")
    (short : Json.Short a.size) :
    Change.ofUpload? (encodeUpload boundary a.uploadMeta contents).1 (some (Multipart.contentType boundary)) =
      some (.put a.path a.hash a.attrs) := by
  have about := Multipart.first_part boundary "meta" "file" _ contents (a.meta_line short)
  simp only [Change.ofUpload?, encodeUpload, Option.bind_some, Multipart.boundary_named, about, Option.bind_eq_bind,
    a.meta_read short, Except.toOption]
  exact meta_stores a hashed

theorem patch_stored (path : String) (attrs : List Attribute) :
    Change.ofPatch? (some (Url.form [("path", path)]))
      (Text.utf8 (Json.obj [("attributes", Attribute.listJson attrs)]).spaced) = some (.patch path attrs) := by
  have legible : Json.Legible .free 0 (.obj [("attributes", Attribute.listJson attrs)]) :=
    ⟨rfl, by simp [Members.names], attributes_legible .free 1 rfl rfl attrs, trivial⟩
  have opens : ∃ rest, (Json.write .spaced 0 (.obj [("attributes", Attribute.listJson attrs)])).toList =
      '\x7b' :: '"' :: rest := by
    rw [Json.object_chars, Json.quoted_chars]
    exact ⟨_, rfl⟩
  obtain ⟨rest, front⟩ := opens
  have read := Json.bytes_read .spaced Json.spaced_regular _ legible _ _ rest front (.inr rfl) (by decide)
  have fields : (Json.obj [("attributes", Attribute.listJson attrs)]).get? "attributes" =
      some (Attribute.listJson attrs) := rfl
  simp only [Change.ofPatch?, Option.bind_some, Url.form_field, Option.bind_eq_bind, Json.spaced, read, Except.toOption,
    fields, read_attributes]
  rfl

section

variable (base : Url) (site : Site) (e : Exchange)

open Exchange

theorem renewal_changes (renews : Renews base e) : asked? base site e = none := by
  have post := renews_post base e renews
  obtain ⟨p, sent, built, rfl⟩ := renews
  have method : sent.method = "POST" := post
  rw [asked?]
  split
  · simp [Change.ofRequest?, method]
  · rfl

theorem bears_asked (method : String) (params : Option (Members String)) (headers : Option (Members String))
    (body : Option Bytes) (upper : Text.upperAll method = method)
    (bears : Bears base ⟨method, assetRoute site.group site.app, params, headers, body⟩ e) :
    ∃ token place, asked? base site e = Change.ofRequest? place ⟨method, place.withParams (params.getD []),
      Wire.mergeHeaders client (Members.put "Authorization" ("Bearer " ++ token) (headers.getD [])), body.getD []⟩ := by
  obtain ⟨token, sent, built, rfl⟩ := bears
  obtain ⟨place, below, rfl⟩ := Wire.build_whole base client _ sent built
  have here : base.below (assetRoute site.group site.app) = .ok place := below
  refine ⟨token, place, ?_⟩
  simp only [asked?, here, Request.authorized, Option.getD_some, upper]

theorem content_type (type : String) (token : String) (method : String) (url : Url) (body : Bytes) :
    WireRequest.header? ⟨method, url, Wire.mergeHeaders client
      (Members.put "Authorization" ("Bearer " ++ token) [("Content-Type", type)]), body⟩ "Content-Type" =
        some type := by
  simp [WireRequest.header?, Wire.mergeHeaders, client, Members.put]

theorem upload_asks (a : Asset) (contents : Bytes) (boundary : String) (hashed : a.hash ≠ "")
    (short : Json.Short a.size)
    (bears : Bears base (Hosting.upload site.group { a with appId := site.app } contents boundary).request e) :
    asked? base site e = some (.put a.path a.hash a.attrs) := by
  obtain ⟨token, place, asked⟩ := bears_asked base site e "PUT" none
    (some [("Content-Type", Multipart.contentType boundary)]) (some _) Text.upper_put bears
  rw [asked, request_placed, if_pos rfl]
  refine (congrArg (Change.ofUpload? _) (content_type _ token _ _ _)).trans ?_
  exact upload_stored { a with appId := site.app } contents boundary hashed short

theorem patch_asks (path : String) (attrs : List Attribute)
    (bears : Bears base (Hosting.setAttributes site.group site.app path attrs).request e) :
    asked? base site e = some (.patch path attrs) := by
  obtain ⟨token, place, asked⟩ := bears_asked base site e "PATCH" (some [("path", path)]) (some _) (some _)
    Text.upper_patch bears
  rw [asked, request_placed, if_neg (by decide), if_pos rfl]
  exact patch_stored path attrs

theorem delete_asks (path : String) (bears : Bears base (Hosting.delete site.group site.app path).request e) :
    asked? base site e = some (.delete path) := by
  obtain ⟨token, place, asked⟩ := bears_asked base site e "DELETE" (some [("path", path)]) none none
    Text.upper_delete bears
  rw [asked, request_placed, if_neg (by decide), if_neg (by decide), if_pos rfl]
  have query : (place.withParams ((some [("path", path)]).getD [])).query = some (Url.form [("path", path)]) := rfl
  rw [Change.ofDeletion?, query, Option.bind_some, Url.form_field, Option.map_some]

theorem reset_asks (bears : Bears base (resetRequest site) e) : asked? base site e = none := by
  obtain ⟨token, sent, built, rfl⟩ := bears
  obtain ⟨u, _, rfl⟩ := Wire.build_whole base client _ sent built
  have other : Multipart.boundary? "application/json" = none := rfl
  have plain : ∀ url body, Change.ofUpload? body (WireRequest.header? ⟨Text.upperAll "PUT", url,
      Wire.mergeHeaders client (Members.put "Authorization" ("Bearer " ++ token) [("Content-Type", "application/json")]), body⟩
        "Content-Type") = none := by
    intro url body
    rw [content_type, Change.ofUpload?, Option.bind_some, other]
    rfl
  rw [asked?]
  split
  · rw [Change.ofRequest?]
    split
    · exact (if_pos Text.upper_put).trans (plain _ _)
    · rfl
  · rfl

end

end Hosting

end HostingAdmin
