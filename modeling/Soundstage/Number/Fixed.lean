import Soundstage.Number.Binary

/-!
# Fixed places

The text of a floating point number with a fixed number of decimal places: its exact binary value
rounded on that decimal grid, a half to the even neighbour.
-/

namespace Soundstage.Number

/-- `n` in decimal with `places` digits after the point. -/
def pointed (n places : Nat) : String :=
  let digits := Nat.toDigits 10 n
  let padded := List.replicate (places + 1 - digits.length) '0' ++ digits
  let whole := padded.take (padded.length - places)
  let fraction := padded.drop (padded.length - places)
  String.ofList (if places = 0 then whole else whole ++ '.' :: fraction)

/-- The parts of a floating point number. -/
inductive Parts
  | nan
  | infinite (negative : Bool)
  /-- The magnitude is `significand · 2^exponent`. -/
  | finite (negative : Bool) (significand : Nat) (exponent : Int)

/-- Split a word of the format, whose words have a sign bit at `2^width`. -/
def Parts.ofWord (fmt : Format) (width word : Nat) : Parts :=
  let negative := decide (twoPower width ≤ word)
  let magnitude := word % twoPower width
  let step := twoPower (fmt.precision - 1)
  if fmt.infinity < magnitude then .nan
  else if magnitude = fmt.infinity then .infinite negative
  else if magnitude < step then .finite negative magnitude fmt.leastExponent
  else .finite negative (step + magnitude % step) (fmt.leastExponent + (magnitude / step - 1 : Nat))

/-- The nearest multiple of `10^(-places)` to `significand · 2^exponent`, in those units. -/
def gridPoint (significand : Nat) (exponent : Int) (places : Nat) : Nat :=
  if exponent < 0 then roundQuotient (significand * tenPower places) (twoPower (-exponent).toNat)
  else significand * tenPower places * twoPower exponent.toNat

def Parts.fixed (places : Nat) : Parts → String
  | .nan => "NaN"
  | .infinite negative => if negative then "-inf" else "inf"
  | .finite negative significand exponent =>
    let body := pointed (gridPoint significand exponent places) places
    if negative then "-" ++ body else body

/-- A double with `places` decimal places. -/
def fixed (places : Nat) (x : Float) : String :=
  (Parts.ofWord double 63 x.toBits.toNat).fixed places

/-- A single with `places` decimal places. -/
def fixed32 (places : Nat) (x : Float32) : String :=
  (Parts.ofWord single 31 x.toBits.toNat).fixed places

end Soundstage.Number
