import HostingAdmin.Api.Account
import HostingAdmin.Api.Assets
import HostingAdmin.Api.Secrets
import HostingAdmin.Proofs.Actions

set_option autoImplicit false

namespace HostingAdmin

def Url.FromRoot (path : String) : Prop := path.toList.head? = some '/'

theorem Url.append_from_root (path rest : String) (first : FromRoot path) : FromRoot (path ++ rest) := by
  rw [FromRoot] at first ⊢
  rw [String.toList_append, List.head?_append, first]
  rfl

-- A request as endpoints make it.
structure Request.Routed (r : Request) : Prop where
  modest : r.Modest
  fromRoot : Url.FromRoot r.path

open Url

theorem Account.logged_routed (l : Login) : (Account.logIn l).request.Routed :=
  ⟨.typed _ rfl, append_from_root _ _ (append_from_root _ _ rfl)⟩

namespace App

theorem listed_routed (group : String) : (list group).request.Routed :=
  ⟨.bare rfl, append_from_root _ _ (append_from_root _ _ rfl)⟩

theorem below_from_root (group app rest : String) : FromRoot (route group app ++ rest) :=
  append_from_root _ _ (append_from_root _ _ (append_from_root _ _ (append_from_root _ _ rfl)))

end App

namespace Secret

variable (group app : String)

theorem listed_routed : (list group app).request.Routed := ⟨.bare rfl, App.below_from_root group app _⟩

theorem added_routed (name value : String) : (add group app name value).request.Routed :=
  ⟨.typed _ rfl, App.below_from_root group app _⟩

theorem single_from_root (id : String) : FromRoot (route group app ++ "/" ++ id) :=
  append_from_root _ _ (append_from_root _ _ (App.below_from_root group app _))

theorem put_routed (s : Secret) : (put group app s).request.Routed := ⟨.typed _ rfl, single_from_root group app s.id⟩

theorem deleted_routed (id : String) : (deleteById group app id).request.Routed :=
  ⟨.bare rfl, single_from_root group app id⟩

end Secret

namespace Hosting

variable (group app : String)

theorem listed_routed : (list group app).request.Routed := ⟨.bare rfl, App.below_from_root group app _⟩

theorem asset_from_root : FromRoot (assetRoute group app) := append_from_root _ _ (App.below_from_root group app _)

theorem uploaded_routed (a : Asset) (body : Bytes) (boundary : String) :
    (upload group a body boundary).request.Routed :=
  ⟨.typed _ rfl, asset_from_root group a.appId⟩

theorem changed_routed (path : String) (attrs : List Attribute) :
    (setAttributes group app path attrs).request.Routed :=
  ⟨.typed _ rfl, asset_from_root group app⟩

theorem deleted_routed (path : String) : (delete group app path).request.Routed :=
  ⟨.bare rfl, asset_from_root group app⟩

theorem forgotten_routed (path : String) : (invalidateCache group app path).request.Routed :=
  ⟨.typed _ rfl, App.below_from_root group app _⟩

end Hosting

end HostingAdmin
