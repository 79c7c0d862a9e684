import HostingAdmin.Text.Chars
import HostingAdmin.Text.Printable

/-!
Texts written as quoted literals, the way messages show a path or a word the user gave.
-/

set_option autoImplicit false

namespace HostingAdmin.Text

def quoteFor (cs : List Char) : Char :=
  if cs.contains '\'' && !cs.contains '"' then '"' else '\''

-- One character inside quotes `q`: the quote, the backslash and what cannot be shown
-- are escaped, the latter by the shortest of the forms with two, four and eight
-- hexadecimal digits.
def literalChar (q c : Char) : List Char :=
  if c = q ∨ c = '\\' then ['\\', c]
  else if c = '\n' then ['\\', 'n']
  else if c = '\r' then ['\\', 'r']
  else if c = '\t' then ['\\', 't']
  else if isPrintable c then [c]
  else if c.toNat < 0x100 then '\\' :: 'x' :: hex 2 c.toNat
  else if c.toNat < 0x10000 then '\\' :: 'u' :: hex 4 c.toNat
  else '\\' :: 'U' :: hex 8 c.toNat

def literal (s : String) : String :=
  let q := quoteFor s.toList
  String.ofList (q :: s.toList.flatMap (literalChar q) ++ [q])

end HostingAdmin.Text
