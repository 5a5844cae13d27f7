/-
Durations as text.

A duration is a number of nanoseconds in a word of 64 bits. From one second on it is written in hours,
minutes and seconds, below that in the largest unit that fits.

* `Duration.text` writes a duration.
-/
import TapeMachine.Text.Bytes

namespace TapeMachine.Duration

/-- `n` units of `10 ^ places` parts each as a decimal number, without zeros at its end. -/
def fraction (places n : Nat) : String :=
  let digits := (Nat.toDigits 10 (n % Nat.pow 10 places + Nat.pow 10 places)).drop 1
  let digits := (digits.reverse.dropWhile (· = '0')).reverse
  decimal (n / Nat.pow 10 places) ++ if digits.isEmpty then "" else "." ++ String.ofList digits

/-- A positive duration. -/
def magnitudeText (n : Nat) : String :=
  if n < Nat.pow 10 3 then decimal n ++ "ns"
  else if n < Nat.pow 10 6 then fraction 3 n ++ "µs"
  else if n < Nat.pow 10 9 then fraction 6 n ++ "ms"
  else
    let minutes := n / (60 * Nat.pow 10 9)
    (if 60 ≤ minutes then decimal (minutes / 60) ++ "h" else "") ++
      (if 0 < minutes then decimal (minutes % 60) ++ "m" else "") ++
      fraction 9 (n % (60 * Nat.pow 10 9)) ++ "s"

/-- A duration in nanoseconds. -/
def text (d : Int64) : String :=
  if d = 0 then "0s"
  else (if d < 0 then "-" else "") ++ magnitudeText d.toInt.natAbs

end TapeMachine.Duration
