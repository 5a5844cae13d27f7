/-
Internet addresses.

An address is a number of 128 bits; the addresses of 32 bits are a block of them.

* `Ip.parse?` reads an address literal;
* `Ip.isLocal` tells whether an address is of this host or of a private network.
-/
import TapeMachine.Number.Integer

namespace TapeMachine

/-- An address of 128 bits. -/
structure Ip where
  value : Nat
deriving DecidableEq, Repr

namespace Ip

/-- The first address of the block that holds the addresses of 32 bits. -/
def v4Block : Nat := 0xFFFF * Nat.pow 2 32

/-- An address of 32 bits, if it is one. -/
def v4? (ip : Ip) : Option Nat :=
  if ip.value / Nat.pow 2 32 = 0xFFFF then some (ip.value % Nat.pow 2 32) else none

/-! ### Reading -/

/-- Reads a decimal byte of one to three digits, without a leading zero. -/
def octet? (s : Bytes) : Option Nat :=
  if s.isEmpty || 3 < s.length || (1 < s.length && s.head? = some 48) || !s.all Number.isDigit then none
  else
    let n := s.foldl (fun n c => n * 10 + (c.toNat - 48)) 0
    if n ≤ 255 then some n else none

/-- Reads four octets between dots to a number of 32 bits. -/
def parseV4? (s : Bytes) : Option Nat :=
  match s.split 46 with
  | [a, b, c, d] => do
    let a ← octet? a
    let b ← octet? b
    let c ← octet? c
    let d ← octet? d
    return ((a * 256 + b) * 256 + c) * 256 + d
  | _ => none

/-- Reads a group of one to four hexadecimal digits. -/
def group? (s : Bytes) : Option Nat :=
  if s.isEmpty || 4 < s.length then none
  else s.foldlM (fun n c =>
    match Number.digitValue? c with
    | some d => if d < 16 then some (n * 16 + d) else none
    | none => none) 0

/-- Reads groups between colons, where the last may be four octets if `v4Last`. -/
def groups? (v4Last : Bool) : List Bytes → Option (List Nat)
  | [] => some []
  | [last] =>
    match group? last with
    | some g => some [g]
    | none => if v4Last then (parseV4? last).map fun v => [v / 65536, v % 65536] else none
  | g :: rest => do
    let g ← group? g
    let rest ← groups? v4Last rest
    return g :: rest

/-- The parts before and after the first double colon. -/
def splitEllipsis : Bytes → Option (Bytes × Bytes)
  | 58 :: 58 :: rest => some ([], rest)
  | c :: rest => (splitEllipsis rest).map fun (a, b) => (c :: a, b)
  | [] => none

/-- The groups of a text, an empty text having none. -/
def partGroups? (v4Last : Bool) (s : Bytes) : Option (List Nat) :=
  if s.isEmpty then some [] else groups? v4Last (s.split 58)

/-- Reads eight groups; a double colon stands for one or more groups of zero. -/
def parseV6? (s : Bytes) : Option Nat := do
  let groups ← match splitEllipsis s with
    | none => do
      let groups ← partGroups? true s
      if groups.length = 8 then some groups else none
    | some (before, after) => do
      let before ← partGroups? false before
      let after ← partGroups? true after
      let present := before.length + after.length
      if present < 8 then some (before ++ List.replicate (8 - present) 0 ++ after) else none
  return groups.foldl (fun n g => n * 65536 + g) 0

/-- Reads an address literal; one with a zone is none. -/
def parse? (s : Bytes) : Option Ip :=
  if s.contains 37 then none
  else match s.find? (fun c => c = 46 || c = 58) with
    | some 46 => (parseV4? s).map fun v => ⟨v4Block + v⟩
    | some 58 => (parseV6? s).map (⟨·⟩)
    | _ => none

/-- Reads an address literal with a zone behind a percent sign, which only the long addresses have. -/
def parseZoned? (s : Bytes) : Option Ip :=
  match s.span (· ≠ 37) with
  | (address, _ :: _ :: _) => if address.find? (fun c => c = 46 || c = 58) = some 58 then parse? address else none
  | _ => none

/-! ### Blocks -/

/-- Whether an address is of the host itself. -/
def isLoopback (ip : Ip) : Bool :=
  match ip.v4? with
  | some v => v / Nat.pow 2 24 = 127
  | none => ip.value = 1

/-- Whether an address is of a private network. -/
def isPrivate (ip : Ip) : Bool :=
  match ip.v4? with
  | some v => v / Nat.pow 2 24 = 10 || v / Nat.pow 2 20 = 172 * 16 + 1 ||
    v / Nat.pow 2 16 = 192 * 256 + 168
  | none => ip.value / Nat.pow 2 121 = 0xFC / 2

/-- Whether an address is of this host or of a private network. -/
def isLocal (ip : Ip) : Bool :=
  ip.isLoopback || ip.isPrivate

end Ip

end TapeMachine
