/-!
Binary floating-point numbers taken apart into sign, significand and exponent.
-/

namespace FunctionWorker.Decimal

/-- An interchange format: the bits that hold the fraction and those that hold the exponent. -/
structure BinaryFormat where
  fractionBits : Nat
  exponentBits : Nat

def binary64 : BinaryFormat := ⟨52, 11⟩

def binary32 : BinaryFormat := ⟨23, 8⟩

/-- A binary number. The finite ones are `significand * 2 ^ exponent`; `lowest` marks the first
number of a binade, below which the neighbours lie half as far apart as above. -/
inductive Binary where
  | finite (negative : Bool) (significand : Nat) (exponent : Int) (lowest : Bool)
  | infinite (negative : Bool)
  | nan
  deriving DecidableEq, Repr

def BinaryFormat.ofBits (f : BinaryFormat) (bits : Nat) : Binary :=
  let fraction := bits % Nat.pow 2 f.fractionBits
  let exponent := bits / Nat.pow 2 f.fractionBits % Nat.pow 2 f.exponentBits
  let negative := bits / Nat.pow 2 (f.fractionBits + f.exponentBits) % 2 = 1
  let bias : Int := Nat.pow 2 (f.exponentBits - 1) - 1 + f.fractionBits
  if exponent = Nat.pow 2 f.exponentBits - 1 then
    if fraction = 0 then .infinite negative else .nan
  else if exponent = 0 then .finite negative fraction (1 - bias) false
  else
    .finite negative (Nat.pow 2 f.fractionBits + fraction) (exponent - bias)
      (fraction = 0 && 1 < exponent)

def ofDouble (x : Float) : Binary := binary64.ofBits x.toBits.toNat

def ofSingle (x : Float32) : Binary := binary32.ofBits x.toBits.toNat

end FunctionWorker.Decimal
