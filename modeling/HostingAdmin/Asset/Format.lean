import HostingAdmin.Asset.Basic
import HostingAdmin.Validation

/-!
The JSON forms of assets, attributes and descriptions. Records take the name of the wire format or
the plain name of a field; the former wins.
-/

set_option autoImplicit false

namespace HostingAdmin

namespace Attribute

def title : String := "AssetAttribute"

def check (source : Source) : Json → Checked Attribute :=
  Check.record source title fun ms =>
    Checked.and (Checked.and (.ok Attribute.mk)
      (Check.required ms ["name"] Check.string))
      (Check.required ms ["value"] Check.string)

def toJson (a : Attribute) : Json := .obj [("name", .str a.name), ("value", .str a.value)]

def listJson (attrs : List Attribute) : Json := .arr (attrs.map toJson)

end Attribute

namespace Asset

def title : String := "AssetMetadata"

def check (source : Source) : Json → Checked Asset :=
  Check.record source title fun ms =>
    let f := Checked.and (.ok Asset.mk) (Check.optional ms ["appId", "app_id"] Check.string "")
    let f := Checked.and f (Check.required ms ["path", "file_path"] Check.string)
    let f := Checked.and f (Check.optional ms ["hash", "file_hash"] Check.string "")
    let f := Checked.and f (Check.optional ms ["size", "file_size"] Check.integer 0)
    let f := Checked.and f
      (Check.optional ms ["attrs"] (Check.list source (Attribute.check source)) [])
    let f := Checked.and f (Check.optional ms ["last_modified"] Check.integer 0)
    Checked.and f (Check.optional ms ["url"] Check.string "")

def uploadMeta (a : Asset) : Json :=
  let given (present : Bool) (name : String) (value : Json) : List (String × Json) :=
    if present then [(name, value)] else []
  .obj <| [("path", .str a.path)] ++ given (a.appId != "") "appId" (.str a.appId) ++
    given (a.hash != "") "hash" (.str a.hash) ++ given (a.size != 0) "size" (.int a.size) ++
    [("attrs", Attribute.listJson a.attrs)]

end Asset

namespace Description

def title : String := "AssetDescription"

def check (source : Source) : Json → Checked Description :=
  Check.record source title fun ms =>
    Checked.and (Checked.and (.ok Description.mk)
      (Check.required ms ["path", "file_path"] Check.string))
      (Check.optional ms ["attrs"] (Check.list source (Attribute.check source)) [])

def toJson (d : Description) : Json :=
  .obj [("path", .str d.path), ("attrs", Attribute.listJson d.attrs)]

end Description

end HostingAdmin
