import Soundstage.Number.Fixed
import Soundstage.Number.Literal
import Soundstage.Spatial
import Soundstage.Text.Blank
import Soundstage.Text.Pieces

/-!
# Values on the command line

Numbers may have blanks around them. Of several faults in one value the first from the left is
reported.
-/

namespace Soundstage.CommandLine

open Number

/-- Why a value is refused. -/
inductive ValueFault
  | noEquals (value : String)
  /-- The number that is called `what` cannot be read. -/
  | number (what : String) (reason : LiteralError)
  | noDuration (value : String)
  | count (count : Nat)
  deriving DecidableEq, Repr

def ValueFault.message : ValueFault → String
  | noEquals value => "expected name=value, got '" ++ value ++ "'"
  | number what reason => "invalid " ++ what ++ ": " ++ reason.message
  | noDuration value => "expected a non-negative duration, got '" ++ value ++ "'"
  | count n => "expected 3 comma-separated values, got " ++ toString n

def readSingle (what value : String) : Except ValueFault Float32 :=
  (readFloat32 (Text.trim value)).mapError (.number what)

/-- A parameter, written `name=value`. The first sign of equality counts. -/
def readParam (value : String) : Except ValueFault (String × Float32) :=
  match Text.splitOnce '=' value.toList with
  | none => .error (.noEquals value)
  | some (name, rest) =>
    (readSingle "value" (String.ofList rest)).map fun x => (Text.trim (String.ofList name), x)

/-- The seconds that no duration reaches: two to the power of 64. -/
def secondsLimit : Nat := 18446744073709551616

/-- The nearest whole number of nanoseconds, unless the number of seconds is negative or too
large. A negative zero is a zero. -/
def nanoseconds? (seconds : Float) : Option Nat :=
  match Parts.ofWord double 63 seconds.toBits.toNat with
  | .finite negative significand exponent =>
    let nanos := gridPoint significand exponent 9
    if negative ∧ significand ≠ 0 then none
    else if secondsLimit * 1000000000 ≤ nanos then none
    else some nanos
  | _ => none

/-- A number of seconds, in nanoseconds. -/
def readSeconds (value : String) : Except ValueFault Nat :=
  match readFloat (Text.trim value) with
  | .error reason => .error (.number "seconds" reason)
  | .ok seconds =>
    match nanoseconds? seconds with
    | some nanos => .ok nanos
    | none => .error (.noDuration value)

/-- Three coordinates with commas between them. -/
def readPosition (value : String) : Except ValueFault Vec3 :=
  match Text.split ',' value with
  | [x, y, z] => do
    let x ← readSingle "x" x
    let y ← readSingle "y" y
    let z ← readSingle "z" z
    return ⟨x, y, z⟩
  | parts => .error (.count parts.length)

end Soundstage.CommandLine
