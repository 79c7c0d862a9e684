import HostingAdmin.World

/-!
Servers that follow a script: rules with the replies to give, each reply once and the last one for
ever after.
-/

set_option autoImplicit false

namespace HostingAdmin

-- A rule of a script. A condition that is not given holds of every request.
structure Rule where
  method : Option String
  path : Option String
  bearer : Option String
  replies : List Reply

namespace Rule

def applies (r : Rule) (e : Exchange) : Bool :=
  r.method.all (· = e.method) && r.path.all (Text.hasEnd e.target ·) &&
    r.bearer.all (e.authorization? = some ·)

end Rule

abbrev Script := List Rule

namespace Script

def noRoute : Response := ⟨404, [], Text.utf8 "\x7b\"error\": \"no route\"\x7d"⟩

def rule? (s : Script) (e : Exchange) : Option Nat := s.findIdx? fun r => r.applies e

-- The server that follows a script: a rule's replies are counted by the requests that
-- it has answered before.
def server (s : Script) : Server := fun before e =>
  match s.rule? e with
  | none => .ok noRoute
  | some i =>
    let used := before.countP fun b => s.rule? b = some i
    let replies := (s[i]?.map Rule.replies).getD []
    (replies[used]?.or replies.getLast?).getD (.ok noRoute)

end Script

end HostingAdmin
