/-! Numbers of the 64-bit binary format. A finite number is a sign and a
magnitude, and a magnitude is a whole multiple of the smallest positive number,
`2 ^ -1074`; that multiple is its count of `units`. A statement about values is
therefore one about natural numbers, and no operation below is approximate. The
least number of fifty-three bits, `0x10000000000000`, is the least significand above
the least exponent. -/

namespace PocketCalc

/-- A finite magnitude of `significand * 2 ^ exponent` units. The significand
has at most fifty-three bits, and fewer only if the exponent is the least, so no two
magnitudes have the same value. -/
structure Magnitude where
  significand : Nat
  exponent : Nat
  significand_lt : significand < 0x20000000000000
  exponent_le : exponent ≤ 2045
  normal : exponent = 0 ∨ 0x10000000000000 ≤ significand
deriving DecidableEq

namespace Magnitude

/-- How many units of `2 ^ -1074` the magnitude is worth. -/
def units (magnitude : Magnitude) : Nat :=
  magnitude.significand * Nat.pow 2 magnitude.exponent

def unitsPerOne : Nat := Nat.pow 2 1074

def zero : Magnitude := ⟨0, 0, by decide, by decide, .inl rfl⟩

end Magnitude

/-- A number of the format. There are two zeros and two infinities, and the
many bit patterns that are not numbers are a single value. -/
inductive Binary64 where
  | nan
  | infinite (negative : Bool)
  | finite (negative : Bool) (magnitude : Magnitude)
deriving DecidableEq

namespace Binary64

def zero : Binary64 := .finite false .zero

def isFinite : Binary64 → Bool
  | .finite _ _ => true
  | _ => false

/-- Both zeros are zero. -/
def isZero : Binary64 → Bool
  | .finite _ magnitude => magnitude.significand == 0
  | _ => false

/-- Less than zero, which neither the negative zero nor a non-number is. -/
def isNegative : Binary64 → Bool
  | .nan => false
  | .infinite negative => negative
  | .finite negative magnitude => negative && magnitude.significand != 0

/-- The value of a finite number in units. -/
def signedUnits (negative : Bool) (magnitude : Magnitude) : Int :=
  if negative then -(magnitude.units : Int) else magnitude.units

/-- The sign bit, eleven exponent bits and fifty-two fraction bits of a number.
Consecutive magnitudes have consecutive patterns. -/
def toBits : Binary64 → UInt64
  | .nan => 0x7ff8000000000000
  | .infinite negative => signBit negative + 0x7ff0000000000000
  | .finite negative magnitude =>
    signBit negative + .ofNat (magnitude.exponent * 0x10000000000000 + magnitude.significand)
where
  signBit (negative : Bool) : UInt64 := if negative then 0x8000000000000000 else 0

def ofBits (bits : UInt64) : Binary64 :=
  let negative := decide (0x8000000000000000 ≤ bits.toNat)
  let pattern := bits.toNat % 0x8000000000000000
  if subnormal : pattern < 0x10000000000000 then
    .finite negative ⟨pattern, 0, by omega, by decide, .inl rfl⟩
  else if bounded : pattern < 0x7ff0000000000000 then
    .finite negative ⟨0x10000000000000 + pattern % 0x10000000000000,
      pattern / 0x10000000000000 - 1,
      by omega, by omega, .inr (Nat.le_add_right _ _)⟩
  else if pattern = 0x7ff0000000000000 then .infinite negative
  else .nan

end Binary64
end PocketCalc
