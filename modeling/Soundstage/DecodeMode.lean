/-!
# Decode modes

A set of flags that says how a file is to be decoded. Bits without a name are kept.
-/

namespace Soundstage

structure DecodeMode where
  bits : UInt32
  deriving DecidableEq, Repr

namespace DecodeMode

def loopNormal : DecodeMode := ⟨1⟩

def compressedSample : DecodeMode := ⟨2⟩

/-- Open the file for streaming instead of decoding it up front. -/
def nonblocking : DecodeMode := ⟨4⟩

def union (a b : DecodeMode) : DecodeMode := ⟨a.bits ||| b.bits⟩

/-- The mode of files streamed into template events: every named flag. -/
def programmerSound : DecodeMode := loopNormal.union (compressedSample.union nonblocking)

/-- Whether `mode` has every bit of `flags`. -/
def contains (mode flags : DecodeMode) : Bool := mode.bits &&& flags.bits == flags.bits

/-- The bits of `mode` that have a name. -/
def named (mode : DecodeMode) : DecodeMode := ⟨mode.bits &&& programmerSound.bits⟩

/-- The bits of `mode` that have none. -/
def unnamed (mode : DecodeMode) : DecodeMode := ⟨mode.bits &&& ~~~programmerSound.bits⟩

/-- Whether every bit of `mode` has a name. -/
def isKnown (mode : DecodeMode) : Bool := mode.unnamed.bits == 0

def flagNames : List (DecodeMode × String) :=
  [(loopNormal, "LOOP_NORMAL"), (compressedSample, "CREATE_COMPRESSED_SAMPLE"),
    (nonblocking, "NONBLOCKING")]

def hex (n : Nat) : String := "0x" ++ String.ofList (Nat.toDigits 16 n)

/-- The flags in bit order, then what is left in hexadecimal; `0x0` when nothing is set. -/
def text (mode : DecodeMode) : String :=
  let names := (flagNames.filter fun flag => mode.contains flag.1).map (·.2)
  let parts := if mode.isKnown then names else names ++ [hex mode.unnamed.bits.toNat]
  "DecodeMode(" ++ (if parts.isEmpty then hex 0 else " | ".intercalate parts) ++ ")"

end DecodeMode

end Soundstage
