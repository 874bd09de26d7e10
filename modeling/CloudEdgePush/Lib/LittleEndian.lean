import Mathlib.Data.Nat.Bitwise
import Mathlib.Tactic.Ring

/-!
# Little-endian bytes

A natural number as a fixed number of bytes, least significant first.  Nothing here
depends on who writes the bytes: a program that copies the memory of an integer and a
program that assembles it with shifts and ors both meet in `toLE` and `ofLE`.
-/

namespace CloudEdgePush.Lib.LittleEndian

/-- The `width` little-endian bytes of `n`; higher bits are dropped. -/
def toLE : Nat → Nat → List UInt8
  | 0, _ => []
  | width + 1, n => UInt8.ofNat n :: toLE width (n / 256)

def ofLE : List UInt8 → Nat
  | [] => 0
  | b :: bs => b.toNat + 256 * ofLE bs

@[simp] theorem length_toLE (width n : Nat) : (toLE width n).length = width := by
  induction width generalizing n with
  | zero => rfl
  | succ width ih => simp [toLE, ih]

theorem ofLE_toLE (width n : Nat) : ofLE (toLE width n) = n % 256 ^ width := by
  induction width generalizing n with
  | zero => simp [toLE, ofLE, Nat.mod_one]
  | succ width ih =>
      rw [toLE, ofLE, ih, Nat.pow_succ', Nat.mod_mul]
      simp

theorem ofLE_toLE_of_lt {width n : Nat} (h : n < 256 ^ width) :
    ofLE (toLE width n) = n := by
  rw [ofLE_toLE, Nat.mod_eq_of_lt h]

theorem ofLE_lt (bytes : List UInt8) : ofLE bytes < 256 ^ bytes.length := by
  induction bytes with
  | nil => simp [ofLE]
  | cons b bytes ih =>
      have hb : b.toNat < 256 := b.toNat_lt
      rw [ofLE, List.length_cons, Nat.pow_succ']
      omega

theorem toLE_ofLE {width : Nat} {bytes : List UInt8} (h : bytes.length = width) :
    toLE width (ofLE bytes) = bytes := by
  induction bytes generalizing width with
  | nil =>
      subst h
      rfl
  | cons b bytes ih =>
      subst h
      have hb : b.toNat < 256 := b.toNat_lt
      have hdiv : (b.toNat + 256 * ofLE bytes) / 256 = ofLE bytes := by omega
      have hhead : UInt8.ofNat (b.toNat + 256 * ofLE bytes) = b := by
        apply UInt8.toNat_inj.mp
        rw [UInt8.toNat_ofNat']
        omega
      rw [ofLE, List.length_cons, toLE, hdiv, hhead, ih rfl]

def wordAt (data : List UInt8) (i : Nat) : Nat := ofLE ((data.drop i).take 4)

theorem wordAt_take {data : List UInt8} {i n : Nat} (h : i + 4 ≤ n) :
    wordAt (data.take n) i = wordAt data i := by
  rw [wordAt, List.drop_take, List.take_take, Nat.min_eq_left (by omega), wordAt]

theorem wordAt_drop (data : List UInt8) (n i : Nat) :
    wordAt (data.drop n) i = wordAt data (n + i) := by
  rw [wordAt, List.drop_drop, wordAt]

theorem toLE_four (n : Nat) :
    toLE 4 n = [UInt8.ofNat n, UInt8.ofNat (n / 256), UInt8.ofNat (n / 65536),
      UInt8.ofNat (n / 16777216)] := by
  simp only [toLE, Nat.div_div_eq_div_mul]

theorem or_shiftLeft_eq_add {a i : Nat} (ha : a < 2 ^ i) (b : Nat) :
    a ||| b <<< i = a + b * 2 ^ i := by
  rw [Nat.or_comm, ← Nat.shiftLeft_add_eq_or_of_lt ha, Nat.shiftLeft_eq, Nat.add_comm]

/-- Assembling four bytes by shift and or gives the little-endian number. -/
theorem or_shiftLeft_four (a b c d : UInt8) :
    a.toNat ||| b.toNat <<< 8 ||| c.toNat <<< 16 ||| d.toNat <<< 24 = ofLE [a, b, c, d] := by
  have ha : a.toNat < 2 ^ 8 := a.toNat_lt
  have hb : b.toNat < 2 ^ 8 := b.toNat_lt
  have hc : c.toNat < 2 ^ 8 := c.toNat_lt
  have hab : a.toNat + b.toNat * 2 ^ 8 < 2 ^ 16 := by omega
  have habc : a.toNat + b.toNat * 2 ^ 8 + c.toNat * 2 ^ 16 < 2 ^ 24 := by omega
  rw [or_shiftLeft_eq_add ha, or_shiftLeft_eq_add hab, or_shiftLeft_eq_add habc]
  simp only [ofLE]
  omega

end CloudEdgePush.Lib.LittleEndian
