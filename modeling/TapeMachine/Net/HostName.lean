/-
Host names: labels between dots.

* `HostName.isValid` decides whether a text can be a host name;
* `HostName.resolver` asks a name server only for names that it can know.

The host itself is known without a name server.
-/
import TapeMachine.Net.Ip

namespace TapeMachine

/-- The addresses of host names; a name without addresses does not resolve. -/
abbrev HostTable := Bytes → List Ip

namespace HostName

/-- The most bytes of a label. -/
def maxLabel : Nat := 63

/-- The most bytes of a name without its last dot. -/
def maxLength : Nat := 253

/-- Whether a byte can stand in a label and is no digit. -/
def isNameByte (b : UInt8) : Bool :=
  65 ≤ b && b ≤ 90 || 97 ≤ b && b ≤ 122 || b = 95 || b = 45

/-- Whether a text can be a label; a hyphen stands neither first nor last. -/
def isLabel (s : Bytes) : Bool :=
  !s.isEmpty && s.length ≤ maxLabel && s.all (fun b => isNameByte b || Number.isDigit b) &&
    s.head? ≠ some 45 && s.getLast? ≠ some 45

/-- A name without the dot at its end. -/
def withoutLastDot (s : Bytes) : Bytes :=
  if s.getLast? = some 46 then s.dropLast else s

/-- Whether a text can be a host name. The dot alone is the root, and a name of digits only is none. -/
def isValid (s : Bytes) : Bool :=
  s = [46] || withoutLastDot s ≠ [] && (withoutLastDot s).length ≤ maxLength &&
    ((withoutLastDot s).split 46).all isLabel && s.any isNameByte

/-- A text in lower case. -/
def lower (s : Bytes) : Bytes :=
  s.map fun b => if 65 ≤ b && b ≤ 90 then b + 32 else b

/-- Whether a name belongs to a network that name servers do not know. -/
def isHidden (s : Bytes) : Bool :=
  (utf8 ".onion").isSuffixOf (lower (withoutLastDot s))

/-- The names of the host itself, in any case. -/
def ownHosts : HostTable := fun name =>
  if lower (withoutLastDot name) = utf8 "localhost" then [utf8 "127.0.0.1", utf8 "::1"].filterMap Ip.parse?
  else []

/-- The addresses of a host, where a name server knows the addresses of names without their last dot. An
address with a zone stands for itself. -/
def resolver (server : HostTable) : HostTable := fun host =>
  match Ip.parseZoned? host with
  | some ip => [ip]
  | none =>
    if !isValid host then []
    else if !(ownHosts host).isEmpty then ownHosts host
    else if isHidden host then []
    else server (withoutLastDot host)

end HostName

end TapeMachine
