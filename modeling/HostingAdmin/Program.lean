/-!
How the program names itself.
-/

set_option autoImplicit false

namespace HostingAdmin.Program

def name : String := "realm-cli"

def version : String := "0.1.0"

def agent : String := name ++ "/" ++ version

end HostingAdmin.Program
