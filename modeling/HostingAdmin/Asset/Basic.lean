import HostingAdmin.MediaType

/-!
Assets of static hosting: what is known about a file apart from its contents.
-/

set_option autoImplicit false

namespace HostingAdmin

structure Attribute where
  name : String
  value : String
deriving DecidableEq

-- An asset. The path is its key: it starts with a slash, and ends with one when it
-- stands for a folder.
structure Asset where
  appId : String
  path : String
  hash : String
  size : Int
  attrs : List Attribute
  lastModified : Int
  url : String
deriving DecidableEq

structure Description where
  path : String
  attrs : List Attribute
deriving DecidableEq

namespace Attribute

def contentType : String := "Content-Type"

def allowedNames : List String := [
  contentType, "Content-Disposition", "Content-Language", "Content-Encoding", "Cache-Control",
  "Website-Redirect-Location"]

def isAllowed (a : Attribute) : Bool := allowedNames.contains a.name

def le (a b : Attribute) : Bool :=
  a.name < b.name || (a.name = b.name && a.value ≤ b.value)

-- Same attributes with the same multiplicities, in any order: the sorted lists are
-- equal.
def sameAll (a b : List Attribute) : Bool :=
  if a.length = b.length then a.mergeSort le == b.mergeSort le else false

def usual (path : String) : List Attribute :=
  match MediaType.ofPath? path with
  | some type => [⟨contentType, type⟩]
  | none => []

end Attribute

namespace Asset

def isFolder (a : Asset) : Bool := Text.hasEnd a.path "/"

def hasUsualAttrs (a : Asset) : Bool :=
  match a.attrs with
  | [x] => x.name = Attribute.contentType && MediaType.ofPath? a.path = some x.value
  | _ => false

-- The description to write for an asset: none without attributes or with the usual
-- ones only; attributes with other than the allowed names are left out.
def description? (a : Asset) : Option Description :=
  if a.attrs.isEmpty || a.hasUsualAttrs then none
  else some ⟨a.path, a.attrs.filter Attribute.isAllowed⟩

def descriptions (assets : List Asset) : List Description := assets.filterMap description?

end Asset

end HostingAdmin
