import CloudEdgePush.Lib.LittleEndian
import Mathlib.Tactic.Common

/-!
# Byte strings and 32-bit operations of Lua

The part of the Lua (LuaJIT) standard library that byte-level protocol code uses:
`string.byte`, `string.char` and `string.sub` with their 1-based, possibly negative
positions, and the `bit` operations, which work on 32-bit words and return a signed
number.  A string is the list of its bytes.
-/

namespace CloudEdgePush.Lib.Lua

open CloudEdgePush.Lib.LittleEndian

/-! ## Strings -/

/-- The byte at the 1-based position `i`, as `string.byte` finds it. -/
def byte (data : List UInt8) (i : Nat) : Option UInt8 :=
  if i = 0 then none else data[i - 1]?

/-- A position counted from the end when it is negative. -/
def posrelat (pos : Int) (len : Nat) : Int :=
  if pos < 0 then max (pos + len + 1) 0 else pos

/-- `string.sub(s, i, j)`: both ends included, out-of-range positions clipped. -/
def sub (s : List UInt8) (i j : Int) : List UInt8 :=
  let start := max (posrelat i s.length) 1
  let stop := min (posrelat j s.length) s.length
  if start ≤ stop then (s.take stop.toNat).drop (start.toNat - 1) else []

theorem byte_succ (data : List UInt8) (i : Nat) : byte data (i + 1) = data[i]? := by
  simp [byte]

theorem sub_of_pos (s : List UInt8) {i : Nat} (hi : 1 ≤ i) (j : Nat) :
    sub s i j = (s.take j).drop (i - 1) := by
  have hstart : max (posrelat i s.length) 1 = (i : Int) := by
    simp only [posrelat]
    omega
  have hstop : min (posrelat j s.length) s.length = ((min j s.length : Nat) : Int) := by
    simp only [posrelat]
    omega
  have htake : s.take (min j s.length) = s.take j := by
    rw [List.take_eq_take_iff]
    omega
  simp only [sub, hstart, hstop, Int.toNat_natCast, htake]
  split
  · rfl
  · rw [eq_comm, List.drop_eq_nil_iff, List.length_take]
    omega

theorem sub_to_end (s : List UInt8) {i : Nat} (hi : 1 ≤ i) : sub s i (-1) = s.drop (i - 1) := by
  have hstart : max (posrelat i s.length) 1 = (i : Int) := by
    simp only [posrelat]
    omega
  have hstop : min (posrelat (-1) s.length) s.length = (s.length : Int) := by
    simp only [posrelat]
    omega
  simp only [sub, hstart, hstop, Int.toNat_natCast, List.take_length]
  split
  · rfl
  · rw [eq_comm, List.drop_eq_nil_iff]
    omega

/-! ## 32-bit operations -/

def tobit (n : Int) : BitVec 32 := BitVec.ofInt 32 n

/-- `bor(a, lshift(b, 8), lshift(c, 16), lshift(d, 24))` on four bytes. -/
def borBytes (a b c d : UInt8) : BitVec 32 :=
  tobit a.toNat ||| tobit b.toNat <<< 8 ||| tobit c.toNat <<< 16 ||| tobit d.toNat <<< 24

/-- `string.char(band(rshift(n, shift), 0xff))`. -/
def charOfShift (n : Int) (shift : Nat) : UInt8 :=
  UInt8.ofBitVec ((tobit n >>> shift &&& 0xff).setWidth 8)

theorem toNat_tobit (b : UInt8) : (tobit b.toNat).toNat = b.toNat := by
  have hb : b.toNat < 256 := b.toNat_lt
  simp only [tobit, BitVec.ofInt_natCast, BitVec.toNat_ofNat]
  omega

theorem toNat_tobit_shiftLeft (b : UInt8) {k : Nat} (hk : k ≤ 24) :
    (tobit b.toNat <<< k).toNat = b.toNat <<< k := by
  have hb : b.toNat < 2 ^ 8 := b.toNat_lt
  have hlt : b.toNat * 2 ^ k < 2 ^ 32 :=
    calc b.toNat * 2 ^ k < 2 ^ 8 * 2 ^ k := Nat.mul_lt_mul_of_pos_right hb (Nat.two_pow_pos k)
      _ ≤ 2 ^ 8 * 2 ^ 24 := Nat.mul_le_mul_left _ (Nat.pow_le_pow_right (by decide) hk)
  rw [BitVec.toNat_shiftLeft, toNat_tobit, Nat.shiftLeft_eq, Nat.mod_eq_of_lt hlt]

theorem toNat_borBytes (a b c d : UInt8) : (borBytes a b c d).toNat = ofLE [a, b, c, d] := by
  simp only [borBytes, BitVec.toNat_or, toNat_tobit]
  rw [toNat_tobit_shiftLeft b (by decide), toNat_tobit_shiftLeft c (by decide),
    toNat_tobit_shiftLeft d (by decide), or_shiftLeft_four]

/-- The word as the signed number that the `bit` library returns: itself below `2^31`. -/
theorem toInt_borBytes {a b c d : UInt8} (h : ofLE [a, b, c, d] < 2 ^ 31) :
    (borBytes a b c d).toInt = ofLE [a, b, c, d] := by
  rw [BitVec.toInt_eq_toNat_of_lt, toNat_borBytes]
  rw [toNat_borBytes]
  omega

def signed (n : Nat) : Int := if n < 2 ^ 31 then n else n - 2 ^ 32

theorem toInt_borBytes_eq (a b c d : UInt8) :
    (borBytes a b c d).toInt = signed (ofLE [a, b, c, d]) := by
  rw [BitVec.toInt_eq_toNat_cond, toNat_borBytes, signed]
  by_cases hlt : ofLE [a, b, c, d] < 2 ^ 31
  · rw [if_pos (by omega), if_pos hlt]
  · rw [if_neg (by omega), if_neg hlt]
    rfl

theorem charOfShift_natCast {n : Nat} (hn : n < 2 ^ 32) (shift : Nat) :
    charOfShift n shift = UInt8.ofNat (n / 2 ^ shift) := by
  apply UInt8.toNat_inj.mp
  have hmask : (0xff : BitVec 32).toNat = 2 ^ 8 - 1 := by decide
  simp only [charOfShift, tobit, UInt8.toNat_ofBitVec, BitVec.toNat_setWidth, BitVec.toNat_and,
    BitVec.toNat_ushiftRight, hmask, Nat.and_two_pow_sub_one_eq_mod, Nat.shiftRight_eq_div_pow,
    BitVec.ofInt_natCast, BitVec.toNat_ofNat, Nat.mod_eq_of_lt hn, UInt8.toNat_ofNat']
  exact Nat.mod_mod _ _

theorem charOfShift_four {n : Nat} (hn : n < 2 ^ 32) :
    [charOfShift n 0, charOfShift n 8, charOfShift n 16, charOfShift n 24] = toLE 4 n := by
  simp only [charOfShift_natCast hn, toLE_four]
  norm_num

end CloudEdgePush.Lib.Lua
