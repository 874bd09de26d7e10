import Mathlib.Tactic.Ring

/-!
# `int`

Arithmetic in the `int` of C++, which has 32 bits.  A result outside of the range is undefined
behaviour, and so there is none; a conversion of a wider integer keeps its lower bits.
-/

namespace CloudEdgePush.Lib.CInt

def Fits (n : Int) : Prop := -2 ^ 31 ≤ n ∧ n < 2 ^ 31

instance (n : Int) : Decidable (Fits n) := inferInstanceAs (Decidable (_ ∧ _))

def int (n : Int) : Option Int := if Fits n then some n else none

def toInt (n : Int) : Int := n.bmod (2 ^ 32)

variable {n m : Int} {k l : Nat}

theorem int_of_fits (h : Fits n) : int n = some n := if_pos h

theorem int_eq_some_iff : int n = some m ↔ Fits n ∧ n = m := by
  rw [int, Option.ite_none_right_eq_some, Option.some_inj]

theorem toInt_of_fits (h : Fits n) : toInt n = n := by
  obtain ⟨hlow, hhigh⟩ := h
  rw [toInt, Int.bmod_def]
  omega

theorem toInt_natCast_le (k : Nat) : toInt k ≤ k := by
  rw [toInt, Int.bmod_def]
  omega

theorem fits_natCast (h : k < 2 ^ 31) : Fits k := by
  unfold Fits
  omega

theorem int_natCast_add (h : k + l < 2 ^ 31) : int (k + l) = some ((k + l : Nat) : Int) := by
  rw [← Int.natCast_add]
  exact int_of_fits (fits_natCast h)

theorem int_natCast_add_overflow (h : 2 ^ 31 ≤ k + l) : int (k + l) = none := by
  refine if_neg ?_
  unfold Fits
  omega

end CloudEdgePush.Lib.CInt
