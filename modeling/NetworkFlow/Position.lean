namespace NetworkFlow

/-- A word of 64 bits with a sign holds the integers below this one. -/
def wordLimit : Nat := 0x8000000000000000

/-- The natural position that an integer names in a sequence of a given size. -/
def position? (size : Nat) (index : Int) : Option Nat :=
  if 0 ≤ index then
    if index < size then some index.toNat else none
  else if 0 ≤ index + size then some (index + size).toNat
  else none

theorem position?_natCast {size index : Nat} (inRange : index < size) :
    position? size index = some index := by
  simp [position?, inRange]

theorem position?_lt {size : Nat} {index : Int} {found : Nat}
    (resolved : position? size index = some found) : found < size := by
  unfold position? at resolved
  split at resolved <;> split at resolved <;> simp_all <;> omega

end NetworkFlow
