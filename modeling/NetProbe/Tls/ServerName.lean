import NetProbe.Net.Domain
set_option autoImplicit false

/-! # Names of servers

The name that a client tells a server in a handshake: an address, or labels of letters, digits,
low lines and hyphens. A label does not start or end with a hyphen, and the last one is not all
digits, which would look like an address. A dot may follow the last label. -/

namespace NetProbe.ServerName

def isLetterOrDigit (c : Char) : Bool :=
  ('a' ≤ c && c ≤ 'z') || ('A' ≤ c && c ≤ 'Z') || ('0' ≤ c && c ≤ '9')

def isLabelChar (c : Char) : Bool :=
  isLetterOrDigit c || c == '_' || c == '-'

def isLabel (label : List Char) : Bool :=
  !label.isEmpty && label.length ≤ Domain.maxLabelLength && label.all isLabelChar &&
    label.head? != some '-' && label.getLast? != some '-'

/-- Whether a text is a name of at most 253 characters, the dot at its end included. -/
def isHostName (cs : List Char) : Bool :=
  let labels := Domain.labels (Domain.withoutDot cs)
  cs.length ≤ Domain.maxLength && labels.all isLabel &&
    !labels.getLast?.any fun l => l.all fun c => '0' ≤ c && c ≤ '9'

/-- Whether a text can name a server. -/
def isValid (text : String) : Bool :=
  isHostName text.toList || (Ip.parse? text).isSome

end NetProbe.ServerName
