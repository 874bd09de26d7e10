import CloudEdgePush.Lib.Bytes

/-!
# `BytesBuffer`

The byte buffer of `bytes_buffer.hpp`: a vector with a reader and a writer index.

```
| discardable bytes |  readable bytes  |  writable bytes  |
0      <=      readerIndex   <=   writerIndex    <=     size
```

Lengths are the non-negative `int` lengths of the source; the differences that the
source computes in `int` and that can be negative are `Int` here.  The assertions are
those of a release build: a failed one has no effect.
-/

namespace CloudEdgePush.Client

open CloudEdgePush.Lib.Bytes

abbrev Bytes := List UInt8

structure BytesBuffer where
  buffer : Bytes
  readerIndex : Nat
  writerIndex : Nat
deriving DecidableEq, Repr

namespace BytesBuffer

def kInitialSize : Nat := 1024

def ofSize (initialSize : Nat) : BytesBuffer :=
  { buffer := List.replicate initialSize 0, readerIndex := 0, writerIndex := 0 }

def empty : BytesBuffer := ofSize kInitialSize

def readableBytes (b : BytesBuffer) : Int := b.writerIndex - b.readerIndex

def writableBytes (b : BytesBuffer) : Int := b.buffer.length - b.writerIndex

def discardableBytes (b : BytesBuffer) : Int := b.readerIndex

def peek (b : BytesBuffer) : Bytes := b.buffer.drop b.readerIndex

def retrieveAll (b : BytesBuffer) : BytesBuffer :=
  { b with readerIndex := 0, writerIndex := 0 }

def retrieve (b : BytesBuffer) (length : Nat) : BytesBuffer :=
  if length < b.readableBytes then { b with readerIndex := b.readerIndex + length }
  else if length = b.readableBytes then b.retrieveAll
  else b

/-- `int retrieve(char* buffer, int length)`: the bytes copied out, and the buffer after it. -/
def retrieveInto (b : BytesBuffer) (length : Nat) : Bytes × BytesBuffer :=
  if b.readableBytes ≤ 0 then ([], b)
  else if length > b.readableBytes then (b.peek.take b.readableBytes.toNat, b.retrieveAll)
  else (b.peek.take length, b.retrieve length)

def retrieveAsString (b : BytesBuffer) (length : Nat) : Bytes × BytesBuffer :=
  (b.peek.take length, b.retrieve length)

def makeSpace (b : BytesBuffer) (more : Nat) : BytesBuffer :=
  if b.writableBytes + b.discardableBytes < more then
    { b with buffer := resize b.buffer (b.writerIndex + more) 0 }
  else
    -- move the readable bytes to the front
    let used := b.readableBytes.toNat
    { buffer := overwrite b.buffer 0 (b.peek.take used), readerIndex := 0, writerIndex := used }

def append (b : BytesBuffer) (data : Bytes) : BytesBuffer :=
  let b := if b.writableBytes < data.length then b.makeSpace data.length else b
  { b with
    buffer := overwrite b.buffer b.writerIndex data
    writerIndex := b.writerIndex + data.length }

/-! ## The readable bytes

`Wf` is the picture above as a predicate.  Each operation keeps it, and its effect is
stated on the readable bytes alone.
-/

structure Wf (b : BytesBuffer) : Prop where
  reader_le : b.readerIndex ≤ b.writerIndex
  writer_le : b.writerIndex ≤ b.buffer.length

def readable (b : BytesBuffer) : Bytes := (b.buffer.take b.writerIndex).drop b.readerIndex

theorem wf_ofSize (initialSize : Nat) : (ofSize initialSize).Wf :=
  ⟨Nat.le_refl _, Nat.zero_le _⟩

@[simp] theorem readable_ofSize (initialSize : Nat) : (ofSize initialSize).readable = [] := rfl

theorem wf_empty : empty.Wf := wf_ofSize _

theorem readableBytes_eq {b : BytesBuffer} (hb : b.Wf) :
    b.readableBytes = b.readable.length := by
  have := hb.reader_le
  have := hb.writer_le
  simp only [readableBytes, readable, List.length_drop, List.length_take]
  omega

theorem peek_take {b : BytesBuffer} (hb : b.Wf) {n : Nat} (hn : n ≤ b.readable.length) :
    b.peek.take n = b.readable.take n := by
  have hlen : b.readable.length = b.writerIndex - b.readerIndex := by
    have := hb.writer_le
    simp only [readable, List.length_drop, List.length_take]
    omega
  rw [readable, List.drop_take, List.take_take, peek, Nat.min_eq_left (hlen ▸ hn)]

theorem retrieveAll_wf (b : BytesBuffer) : b.retrieveAll.Wf :=
  ⟨Nat.le_refl _, Nat.zero_le _⟩

@[simp] theorem readable_retrieveAll (b : BytesBuffer) : b.retrieveAll.readable = [] := by
  simp [retrieveAll, readable]

theorem retrieve_wf {b : BytesBuffer} (hb : b.Wf) (length : Nat) : (b.retrieve length).Wf := by
  have := hb.reader_le
  have := hb.writer_le
  unfold retrieve
  split
  · rename_i hlt
    simp only [readableBytes] at hlt
    exact ⟨by simp only; omega, by assumption⟩
  · split
    · exact retrieveAll_wf b
    · exact hb

theorem readable_retrieve {b : BytesBuffer} (hb : b.Wf) {length : Nat}
    (hlen : length ≤ b.readable.length) :
    (b.retrieve length).readable = b.readable.drop length := by
  have hreadable := readableBytes_eq hb
  unfold retrieve
  split
  · simp only [readable, List.drop_drop]
  · rename_i hge
    have heq : length = b.readable.length := by omega
    rw [if_pos (by omega), readable_retrieveAll, heq, List.drop_length]

theorem retrieveInto_eq {b : BytesBuffer} (hb : b.Wf) {length : Nat} (hpos : 0 < length)
    (hlen : length ≤ b.readable.length) :
    b.retrieveInto length = (b.readable.take length, b.retrieve length) := by
  have hreadable := readableBytes_eq hb
  rw [retrieveInto, if_neg (by omega), if_neg (by omega), peek_take hb hlen]

theorem retrieveAsString_eq {b : BytesBuffer} (hb : b.Wf) {length : Nat}
    (hlen : length ≤ b.readable.length) :
    b.retrieveAsString length = (b.readable.take length, b.retrieve length) := by
  rw [retrieveAsString, peek_take hb hlen]

/-- What `append` needs of `makeSpace`: room for the new bytes, the old ones kept. -/
theorem makeSpace_spec {b : BytesBuffer} (hb : b.Wf) {more : Nat}
    (hneed : b.writableBytes < more) :
    (b.makeSpace more).Wf ∧ (b.makeSpace more).readable = b.readable ∧
      (b.makeSpace more).writerIndex + more ≤ (b.makeSpace more).buffer.length := by
  have hr := hb.reader_le
  have hw := hb.writer_le
  simp only [writableBytes] at hneed
  unfold makeSpace
  split
  · refine ⟨⟨hr, ?_⟩, ?_, ?_⟩
    · simp
    · simp only [readable]
      rw [take_resize 0 (by omega) hw]
    · simp
  · rename_i hroom
    simp only [writableBytes, discardableBytes] at hroom
    have hused : b.readableBytes.toNat = b.readable.length := by
      rw [readableBytes_eq hb, Int.toNat_natCast]
    have hlen : b.readable.length = b.writerIndex - b.readerIndex := by
      simp only [readable, List.length_drop, List.length_take]
      omega
    have hmoved : b.peek.take b.readable.length = b.readable := by
      rw [peek_take hb (Nat.le_refl _), List.take_length]
    have hsize : (overwrite b.buffer 0 b.readable).length = b.buffer.length :=
      length_overwrite (by omega)
    simp only [hused, hmoved]
    refine ⟨⟨Nat.zero_le _, ?_⟩, ?_, ?_⟩
    · simp only [hsize]
      omega
    · have htake := take_overwrite (l := b.buffer) b.readable (Nat.zero_le _)
      rw [Nat.zero_add, List.take_zero, List.nil_append] at htake
      simpa only [readable, List.drop_zero] using htake
    · simp only [hsize]
      omega

theorem append_wf {b : BytesBuffer} (hb : b.Wf) (data : Bytes) : (b.append data).Wf := by
  have hwrite (c : BytesBuffer) (hc : c.Wf)
      (hroom : c.writerIndex + data.length ≤ c.buffer.length) :
      Wf { c with
        buffer := overwrite c.buffer c.writerIndex data
        writerIndex := c.writerIndex + data.length } := by
    refine ⟨Nat.le_trans hc.reader_le (Nat.le_add_right _ _), ?_⟩
    simpa only [length_overwrite hroom] using hroom
  unfold append
  split
  · rename_i hneed
    obtain ⟨hwf, -, hroom⟩ := makeSpace_spec hb hneed
    exact hwrite _ hwf hroom
  · rename_i hroom
    simp only [writableBytes] at hroom
    exact hwrite b hb (by omega)

theorem readable_append {b : BytesBuffer} (hb : b.Wf) (data : Bytes) :
    (b.append data).readable = b.readable ++ data := by
  have hwrite (c : BytesBuffer) (hc : c.Wf) :
      (overwrite c.buffer c.writerIndex data |>.take (c.writerIndex + data.length)).drop
        c.readerIndex = c.readable ++ data := by
    rw [take_overwrite data hc.writer_le, List.drop_append_of_le_length, readable]
    rw [List.length_take, Nat.min_eq_left hc.writer_le]
    exact hc.reader_le
  unfold append
  split
  · rename_i hneed
    obtain ⟨hwf, hkeep, -⟩ := makeSpace_spec hb hneed
    rw [← hkeep]
    exact hwrite _ hwf
  · exact hwrite b hb

theorem readerIndex_append {b : BytesBuffer} (hb : b.readerIndex = 0) (data : Bytes) :
    (b.append data).readerIndex = 0 := by
  unfold append makeSpace
  split
  · split
    · exact hb
    · rfl
  · exact hb

theorem readable_empty_append (data : Bytes) : (empty.append data).readable = data := by
  rw [readable_append wf_empty, empty, readable_ofSize, List.nil_append]

theorem take_readableBytes {b : BytesBuffer} (hzero : b.readerIndex = 0) :
    b.buffer.take b.readableBytes.toNat = b.readable := by
  simp [readableBytes, readable, hzero]

end BytesBuffer

end CloudEdgePush.Client
