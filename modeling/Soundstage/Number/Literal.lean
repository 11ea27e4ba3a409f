import Soundstage.Number.Binary
import Soundstage.Number.Digits

/-!
# Float literals

The decimal literals accepted on the command line: an optional sign, digits with at most one point
among or around them, and an optional exponent; or `inf`, `infinity` and `nan` in any case.
-/

namespace Soundstage.Number

/-- Why a text is no literal. -/
inductive LiteralError
  | empty
  | invalid
  deriving DecidableEq, Repr

def LiteralError.message : LiteralError → String
  | empty => "cannot parse float from empty string"
  | invalid => "invalid float literal"

/-- What a literal denotes, before rounding to a format. -/
inductive Literal
  | decimal (value : Decimal)
  | infinity (negative : Bool)
  | nan (negative : Bool)
  deriving DecidableEq, Repr

/-- The part after the exponent mark: all of it must be a signed run of digits. -/
def readExponent (cs : List Char) : Option Int :=
  let (negative, rest) := takeSign cs
  match takeDigits rest with
  | ([], _) => none
  | (ds, []) =>
    let magnitude := (digitsValue ds : Int)
    some (if negative then -magnitude else magnitude)
  | (_, _ :: _) => none

/-- The digits after the point, if there is one, and the rest. -/
def takeFraction : List Char → List Char × List Char
  | '.' :: rest => takeDigits rest
  | cs => ([], cs)

/-- An unsigned decimal literal. -/
def readDecimal (negative : Bool) (cs : List Char) : Option Decimal :=
  let (whole, rest) := takeDigits cs
  let (fraction, rest) := takeFraction rest
  if whole.isEmpty && fraction.isEmpty then none
  else
    let at10 (e : Int) : Decimal := ⟨negative, digitsValue (whole ++ fraction), e - fraction.length⟩
    match rest with
    | [] => some (at10 0)
    | c :: rest => if c = 'e' ∨ c = 'E' then (readExponent rest).map at10 else none

/-- The number a text denotes. Only ASCII digits and letters count. -/
def readLiteral (text : String) : Except LiteralError Literal :=
  match text.toList with
  | [] => .error .empty
  | cs =>
    let (negative, body) := takeSign cs
    match readDecimal negative body with
    | some value => .ok (.decimal value)
    | none =>
      let name := String.ofList (body.map Char.toLower)
      if name = "inf" ∨ name = "infinity" then .ok (.infinity negative)
      else if name = "nan" then .ok (.nan negative)
      else .error .invalid

def infinity64 : Float := Float.ofBits double.infinity.toUInt64

def infinity32 : Float32 := Float32.ofBits single.infinity.toUInt32

def Literal.toFloat : Literal → Float
  | .decimal value => value.toFloat
  | .infinity negative => if negative then -infinity64 else infinity64
  | .nan _ => infinity64 - infinity64

def Literal.toFloat32 : Literal → Float32
  | .decimal value => value.toFloat32
  | .infinity negative => if negative then -infinity32 else infinity32
  | .nan _ => infinity32 - infinity32

def readFloat (text : String) : Except LiteralError Float := (readLiteral text).map Literal.toFloat

def readFloat32 (text : String) : Except LiteralError Float32 :=
  (readLiteral text).map Literal.toFloat32

end Soundstage.Number
