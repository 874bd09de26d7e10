import CloudEdgePush.Lib.Lua

/-!
# `zzlib.filelist`

The names in a zip archive, read from its local file headers.  `none` is a Lua error: a header
cut off by the end of the archive, an encrypted entry, an unknown method or a data descriptor.
-/

namespace CloudEdgePush.Server.Zzlib

open CloudEdgePush.Lib

def int2le (str : List UInt8) (pos : Nat) : Option Nat := do
  let a ← Lua.byte str pos
  let b ← Lua.byte str (pos + 1)
  return b.toNat * 256 + a.toNat

def int4le (str : List UInt8) (pos : Nat) : Option Nat := do
  let a ← Lua.byte str pos
  let b ← Lua.byte str (pos + 1)
  let c ← Lua.byte str (pos + 2)
  let d ← Lua.byte str (pos + 3)
  return ((d.toNat * 256 + c.toNat) * 256 + b.toNat) * 256 + a.toNat

/-- One turn of the loop: the name at `p` and the position behind its data, or the end of the
list. -/
def entryAt (buf : List UInt8) (p : Nat) : Option (Option (List UInt8 × Nat)) := do
  let head ← int4le buf p
  if head = 0x04034b50 then
    let flag ← int2le buf (p + 6)
    let method ← int2le buf (p + 8)
    let _crc ← int4le buf (p + 14)
    let csize ← int4le buf (p + 18)
    let namelen ← int2le buf (p + 26)
    let extlen ← int2le buf (p + 28)
    let name := Lua.sub buf (p + 30) (p + 29 + namelen)
    if flag.testBit 0 then none
    else if method ≠ 8 ∧ method ≠ 0 then none
    else if flag.testBit 3 then none
    else some (some (name, p + 30 + namelen + extlen + csize))
  else some none

def filelistFrom (buf : List UInt8) : Nat → Nat → Option (List (List UInt8))
  | 0, _ => none
  | fuel + 1, p =>
      match entryAt buf p with
      | none => none
      | some none => some []
      | some (some (name, next)) => (filelistFrom buf fuel next).map (name :: ·)

/-- An entry takes 30 bytes at least, so the fuel suffices (`filelistFrom_fuel`). -/
def filelist (buf : List UInt8) : Option (List (List UInt8)) := filelistFrom buf buf.length 1

theorem int4le_beyond {buf : List UInt8} {p : Nat} (h : buf.length < p) : int4le buf p = none := by
  have hbyte : Lua.byte buf p = none := by
    rw [Lua.byte, if_neg (by omega), List.getElem?_eq_none]
    omega
  simp [int4le, hbyte]

theorem entryAt_beyond {buf : List UInt8} {p : Nat} (h : buf.length < p) : entryAt buf p = none := by
  simp [entryAt, int4le_beyond h]

theorem entryAt_next {buf name : List UInt8} {p next : Nat}
    (h : entryAt buf p = some (some (name, next))) : p < next := by
  simp only [entryAt, Option.bind_eq_bind, Option.bind_eq_some_iff] at h
  obtain ⟨head, -, h⟩ := h
  split at h
  · simp only [Option.bind_eq_some_iff] at h
    obtain ⟨flag, -, method, -, crc, -, csize, -, namelen, -, extlen, -, h⟩ := h
    split at h
    · cases h
    · split at h
      · cases h
      · split at h
        · cases h
        · simp only [Option.some.injEq, Prod.mk.injEq] at h
          omega
  · cases h

theorem filelistFrom_fuel {buf : List UInt8} {fuel p : Nat} (h : buf.length < p + fuel)
    (more : Nat) : filelistFrom buf (fuel + more) p = filelistFrom buf fuel p := by
  induction fuel generalizing p with
  | zero =>
      cases more with
      | zero => rfl
      | succ more =>
          have hend : entryAt buf p = none := entryAt_beyond h
          rw [Nat.zero_add]
          simp only [filelistFrom, hend]
  | succ fuel ih =>
      rw [Nat.add_right_comm, filelistFrom, filelistFrom]
      cases hentry : entryAt buf p with
      | none => rfl
      | some entry =>
          cases entry with
          | none => rfl
          | some entry =>
              obtain ⟨name, next⟩ := entry
              have hnext := entryAt_next hentry
              dsimp only
              rw [ih (by omega)]

end CloudEdgePush.Server.Zzlib
