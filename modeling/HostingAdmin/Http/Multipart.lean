import HostingAdmin.Text.Utf

/-!
Bodies of several named parts, divided by a boundary.
-/

set_option autoImplicit false

namespace HostingAdmin.Multipart

def opening (boundary name : String) : Bytes :=
  Text.utf8 ("--" ++ boundary ++ "\r\nContent-Disposition: form-data; name=\"" ++ name ++
    "\"\r\n\r\n")

def closing (boundary : String) : Bytes := Text.utf8 ("--" ++ boundary ++ "--\r\n")

def encode (boundary : String) (parts : List (String × Bytes)) : Bytes :=
  parts.flatMap (fun p => opening boundary p.1 ++ p.2 ++ Text.utf8 "\r\n") ++ closing boundary

def contentType (boundary : String) : String := "multipart/mixed; boundary=" ++ boundary

end HostingAdmin.Multipart
