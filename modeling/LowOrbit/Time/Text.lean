import LowOrbit.Time

/-!
# Durations as text

A duration is written in the largest of the units `s`, `ms`, `µs` and `ns` that it reaches, as an
exact decimal number: the fraction has as many places as it needs, and no point is written when
the number is whole. Zero is `0ns`.
-/

namespace LowOrbit.Nanos

/-- The digits of `n` behind a decimal point with `places` places, without the zeros at the
end. -/
def fractionDigits (places n : Nat) : List Char :=
  let digits := Nat.toDigits 10 n
  let padded := List.replicate (places - digits.length) '0' ++ digits
  (padded.reverse.dropWhile (· = '0')).reverse

/-- The number of units in `n` in decimal notation, exactly. A unit has `places` zeros. -/
def decimal (places unit n : Nat) : String :=
  let fraction := fractionDigits places (n % unit)
  let whole := toString (n / unit)
  if fraction.isEmpty then whole else whole ++ "." ++ String.ofList fraction

/-- The text of a duration in its largest unit. -/
def text (d : Nat) : String :=
  if 1000000000 ≤ d then decimal 9 1000000000 d ++ "s"
  else if 1000000 ≤ d then decimal 6 1000000 d ++ "ms"
  else if 1000 ≤ d then decimal 3 1000 d ++ "µs"
  else toString d ++ "ns"

example : text 11800000000 = "11.8s" := by cbv
example : text 11000000500 = "11.0000005s" := by cbv
example : text 1500 = "1.5µs" := by cbv
example : text 0 = "0ns" := by cbv

end LowOrbit.Nanos
