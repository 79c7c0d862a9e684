import HostingAdmin.Api.Apps
import HostingAdmin.Asset.Format
import HostingAdmin.Http.Multipart

/-!
The hosted assets of an app: listing, uploading, changing and deleting them.
-/

set_option autoImplicit false

namespace HostingAdmin.Hosting

def assetsRoute (group app : String) : String := App.route group app ++ "/hosting/assets"

def assetRoute (group app : String) : String := assetsRoute group app ++ "/asset"

def list (group app : String) : Endpoint (List Asset) where
  request := { Request.plain "GET" (assetsRoute group app) with
    params := some [("recursive", "true")] }
  read := Endpoint.readListing Asset.title "failed to list assets" Asset.check

def encodeUpload (boundary : String) (metadata : Json) (body : Bytes) : Bytes × String :=
  (Multipart.encode boundary [("meta", Text.utf8 metadata.spaced), ("file", body)],
    Multipart.contentType boundary)

def upload (group : String) (a : Asset) (body : Bytes) (boundary : String) : Endpoint Unit :=
  let (payload, type) := encodeUpload boundary a.uploadMeta body
  let request := { Request.plain "PUT" (assetRoute group a.appId) with
    headers := some [("Content-Type", type)], body := some payload }
  .done request Status.noContent "failed to upload asset"

def setAttributes (group app path : String) (attrs : List Attribute) : Endpoint Unit :=
  let body := Json.obj [("attributes", Attribute.listJson attrs)]
  let request := { Endpoint.withJson "PATCH" (assetRoute group app) body.spaced with
    params := some [("path", path)] }
  .done request Status.noContent "failed to update asset"

def delete (group app path : String) : Endpoint Unit :=
  let request := { Request.plain "DELETE" (assetRoute group app) with
    params := some [("path", path)] }
  .done request Status.noContent "failed to delete asset"

def invalidateCache (group app path : String) : Endpoint Unit :=
  let body := Json.obj [("invalidate", .bool true), ("path", .str path)]
  .done (Endpoint.withJson "PUT" (App.route group app ++ "/hosting/cache") body.spaced)
    Status.noContent "failed to invalidate cache"

end HostingAdmin.Hosting
