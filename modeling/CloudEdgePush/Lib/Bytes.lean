import Mathlib.Data.List.Basic
import Mathlib.Tactic.Common

/-!
# Fixed storage as a list

`overwrite` is a copy into existing storage and `resize` a change of its size that keeps
what fits.  Both are list functions, for storage of any element type.
-/

namespace CloudEdgePush.Lib.Bytes

variable {α : Type*}

/-- Copy `data` over the elements of `l` from index `pos` on. -/
def overwrite (l : List α) (pos : Nat) (data : List α) : List α :=
  l.take pos ++ data ++ l.drop (pos + data.length)

def resize (l : List α) (n : Nat) (fill : α) : List α :=
  l.take n ++ List.replicate (n - l.length) fill

theorem length_overwrite {l : List α} {pos : Nat} {data : List α}
    (h : pos + data.length ≤ l.length) : (overwrite l pos data).length = l.length := by
  simp only [overwrite, List.length_append, List.length_take, List.length_drop]
  omega

theorem take_overwrite {l : List α} {pos : Nat} (data : List α) (h : pos ≤ l.length) :
    (overwrite l pos data).take (pos + data.length) = l.take pos ++ data := by
  have hlen : (l.take pos ++ data).length = pos + data.length := by
    simp only [List.length_append, List.length_take]
    omega
  rw [overwrite, ← hlen, List.take_left]

theorem overwrite_all {l data : List α} (h : data.length = l.length) :
    overwrite l 0 data = data := by
  simp [overwrite, h]

theorem overwrite_replicate (data : List α) (n : Nat) (fill : α) :
    overwrite (List.replicate (data.length + n) fill) 0 data = data ++ List.replicate n fill := by
  rw [overwrite, List.take_zero, List.nil_append, Nat.zero_add, List.drop_replicate,
    Nat.add_sub_cancel_left]

theorem overwrite_tail {pre old data : List α} (h : data.length = old.length) :
    overwrite (pre ++ old) pre.length data = pre ++ data := by
  rw [overwrite, List.take_left, h, ← List.length_append, List.drop_length, List.append_nil]

@[simp] theorem length_resize (l : List α) (n : Nat) (fill : α) :
    (resize l n fill).length = n := by
  simp only [resize, List.length_append, List.length_take, List.length_replicate]
  omega

theorem resize_nil (n : Nat) (fill : α) : resize [] n fill = List.replicate n fill := by
  rw [resize, List.take_nil, List.nil_append, List.length_nil, Nat.sub_zero]

theorem take_resize {l : List α} {k n : Nat} (fill : α) (hkn : k ≤ n) (hk : k ≤ l.length) :
    (resize l n fill).take k = l.take k := by
  rw [resize, List.take_append_of_le_length (by simp; omega), List.take_take,
    Nat.min_eq_left hkn]

theorem resize_of_le {l : List α} {n : Nat} (fill : α) (h : l.length ≤ n) :
    resize l n fill = l ++ List.replicate (n - l.length) fill := by
  rw [resize, List.take_of_length_le h]

end CloudEdgePush.Lib.Bytes
