/-
Ports: numbers of 16 bits, some of which have names.

* `Port.parse?` reads a port.
-/
import TapeMachine.Number.Integer

namespace TapeMachine.Port

/-- The largest port. -/
def largest : Nat := 65535

/-- The names of ports. -/
def services : List (String × Nat) :=
  [("domain", 53), ("ftp", 21), ("ftps", 990), ("gopher", 70), ("http", 80), ("https", 443), ("imap2", 143),
    ("imap3", 220), ("imaps", 993), ("pop3", 110), ("pop3s", 995), ("smtp", 25), ("submissions", 465),
    ("ssh", 22), ("telnet", 23)]

/-- The port with a name, in any case. -/
def named? (name : Bytes) : Option Nat :=
  let name := name.map fun b => if 65 ≤ b && b ≤ 90 then b + 32 else b
  (services.find? fun (service, _) => utf8 service = name).map (·.2)

/-- Reads a port: a sign and digits, of which there may be none, or a name. -/
def parse? (s : Bytes) : Option Nat :=
  let digits := match s with
    | c :: rest => if c = 43 || c = 45 then rest else s
    | [] => []
  if digits.all Number.isDigit then
    let n := digits.foldl (fun n c => n * 10 + (c.toNat - 48)) 0
    if largest < n || (s.head? = some 45 && 0 < n) then none else some n
  else named? s

end TapeMachine.Port
