/-
The timestamps that a plain YAML scalar may be taken for.

A timestamp is a date of a four-digit year with short month and day, alone or followed by a time of
day: behind a `T` with a zone, or behind spaces without one.

* `Yaml.isTimestamp` decides whether a text is one.
-/
import TapeMachine.Number.Integer

namespace TapeMachine.Yaml

open Number (isDigit)

/-- The number of days of a month. -/
def daysIn (year month : Nat) : Nat :=
  if month = 2 then
    if year % 4 = 0 ∧ (year % 100 ≠ 0 ∨ year % 400 = 0) then 29 else 28
  else if month = 4 ∨ month = 6 ∨ month = 9 ∨ month = 11 then 30
  else 31

/-- Takes a number of one or two digits. -/
def takeShort : Bytes → Option (Nat × Bytes)
  | a :: b :: rest =>
    if !isDigit a then none
    else if isDigit b then some ((a.toNat - 48) * 10 + (b.toNat - 48), rest)
    else some (a.toNat - 48, b :: rest)
  | [a] => if isDigit a then some (a.toNat - 48, []) else none
  | [] => none

/-- Takes a number of exactly two digits. -/
def takeTwo : Bytes → Option (Nat × Bytes)
  | a :: b :: rest =>
    if isDigit a && isDigit b then some ((a.toNat - 48) * 10 + (b.toNat - 48), rest) else none
  | _ => none

/-- Takes one given byte. -/
def takeByte (c : UInt8) : Bytes → Option Bytes
  | d :: rest => if d = c then some rest else none
  | [] => none

/-- Drops a fraction of a second, if there is one. -/
def dropFraction : Bytes → Bytes
  | c :: d :: rest => if (c = 46 ∨ c = 44) ∧ isDigit d then (d :: rest).dropWhile isDigit else c :: d :: rest
  | s => s

/-- Takes a date that the calendar has. -/
def takeDate (s : Bytes) : Option Bytes := do
  let (digits, s) := s.span isDigit
  if digits.length ≠ 4 then none
  let year := digits.foldl (fun n c => n * 10 + (c.toNat - 48)) 0
  let (month, s) ← takeShort (← takeByte 45 s)
  let (day, s) ← takeShort (← takeByte 45 s)
  if month = 0 ∨ 12 < month ∨ day = 0 ∨ daysIn year month < day then none
  return s

/-- Takes hour, minute and second, with or without a fraction. -/
def takeTime (s : Bytes) : Option Bytes := do
  let (hour, s) ← takeShort s
  let (minute, s) ← takeShort (← takeByte 58 s)
  let (second, s) ← takeShort (← takeByte 58 s)
  if 24 ≤ hour ∨ 60 ≤ minute ∨ 60 ≤ second then none
  return dropFraction s

/-- Takes a zone: `Z`, or a signed offset in hours and minutes. -/
def takeZone : Bytes → Option Bytes
  | 90 :: rest => some rest
  | sign :: s => do
    if sign ≠ 43 ∧ sign ≠ 45 then none
    let (hour, s) ← takeTwo s
    let (minute, s) ← takeTwo (← takeByte 58 s)
    if 24 < hour ∨ 60 < minute then none
    return s
  | [] => none

/-- Whether a text is a timestamp. -/
def isTimestamp (s : Bytes) : Bool :=
  match takeDate s with
  | none => false
  | some [] => true
  | some (c :: rest) =>
    if c = 84 ∨ c = 116 then (takeTime rest >>= takeZone) = some []
    else if c = 32 then takeTime (rest.dropWhile (· = 32)) = some []
    else false

end TapeMachine.Yaml
