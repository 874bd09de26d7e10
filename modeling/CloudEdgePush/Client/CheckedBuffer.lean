import CloudEdgePush.Client.BytesBuffer
import CloudEdgePush.Lib.CInt

/-!
# `BytesBuffer` with its assertions

The functions of `bytes_buffer.hpp` in a debug build, with `int` indices and lengths.  A call has
no result when an assertion fails, an `int` overflows, a vector would have a negative size, or
bytes outside of a vector are copied.

As long as the picture of the class holds and the vector has an `int` size (`IntSized`), the calls
are those of the release build: `BytesBuffer`, which computes with natural numbers.
-/

namespace CloudEdgePush.Client

open CloudEdgePush.Lib.Bytes CloudEdgePush.Lib.CInt

structure CheckedBuffer where
  buffer : Bytes
  readerIndex : Int
  writerIndex : Int
deriving DecidableEq, Repr

namespace CheckedBuffer

def assert (condition : Prop) [Decidable condition] : Option Unit :=
  if condition then some () else none

/-- `resize(size)`, for a size that was computed in `int`. -/
def resizeInt (l : Bytes) (size : Int) : Option Bytes :=
  if 0 ≤ size then some (resize l size.toNat 0) else none

def load (l : Bytes) (first last : Int) : Option Bytes :=
  if 0 ≤ first ∧ first ≤ last ∧ last ≤ l.length then
    some ((l.drop first.toNat).take (last - first).toNat)
  else none

def store (l : Bytes) (pos : Int) (data : Bytes) : Option Bytes :=
  if 0 ≤ pos ∧ pos + data.length ≤ l.length then some (overwrite l pos.toNat data) else none

def readableBytes (b : CheckedBuffer) : Option Int := int (b.writerIndex - b.readerIndex)

/-- The difference is one of `size_t`. -/
def writableBytes (b : CheckedBuffer) : Int := toInt (b.buffer.length - b.writerIndex)

def discardableBytes (b : CheckedBuffer) : Int := b.readerIndex

def ofSize (initialSize : Int) : Option CheckedBuffer := do
  let buffer ← resizeInt [] initialSize
  let b : CheckedBuffer := ⟨buffer, 0, 0⟩
  let readable ← b.readableBytes
  assert (readable = 0)
  assert (b.writableBytes = initialSize)
  assert (b.discardableBytes = 0)
  return b

def retrieveAll (b : CheckedBuffer) : CheckedBuffer :=
  { b with readerIndex := 0, writerIndex := 0 }

def retrieve (b : CheckedBuffer) (length : Int) : Option CheckedBuffer := do
  let readable ← b.readableBytes
  assert (length ≤ readable)
  if length < readable then
    let readerIndex ← int (b.readerIndex + length)
    return { b with readerIndex }
  else if length = readable then return b.retrieveAll
  else return b

def retrieveInto (b : CheckedBuffer) (length : Int) : Option (Bytes × CheckedBuffer) := do
  let readable ← b.readableBytes
  if readable ≤ 0 then return ([], b)
  else if length > readable then
    let copied ← load b.buffer b.readerIndex (b.readerIndex + readable)
    return (copied, b.retrieveAll)
  else
    let copied ← load b.buffer b.readerIndex (b.readerIndex + length)
    let b ← b.retrieve length
    return (copied, b)

/-- The pointer is given as its distance from `begin()`. -/
def retrieveUntil (b : CheckedBuffer) (stop : Int) : Option CheckedBuffer := do
  assert (b.readerIndex ≤ stop)
  assert (stop ≤ b.writerIndex)
  b.retrieve (toInt (stop - b.readerIndex))

def retrieveAsString (b : CheckedBuffer) (length : Int) : Option (Bytes × CheckedBuffer) := do
  let readable ← b.readableBytes
  assert (length ≤ readable)
  let result ← load b.buffer b.readerIndex (b.readerIndex + length)
  let b ← b.retrieve length
  return (result, b)

def retrieveAllAsString (b : CheckedBuffer) : Option (Bytes × CheckedBuffer) := do
  let readable ← b.readableBytes
  b.retrieveAsString readable

def makeSpace (b : CheckedBuffer) (more : Int) : Option CheckedBuffer := do
  let room ← int (b.writableBytes + b.discardableBytes)
  if room < more then
    let size ← int (b.writerIndex + more)
    let buffer ← resizeInt b.buffer size
    return { b with buffer }
  else
    -- move the readable bytes to the front
    let used ← b.readableBytes
    let content ← load b.buffer b.readerIndex b.writerIndex
    let buffer ← store b.buffer 0 content
    let b : CheckedBuffer := ⟨buffer, 0, used⟩
    let readable ← b.readableBytes
    assert (used = readable)
    return b

def write (b : CheckedBuffer) (data : Bytes) (length : Int) : Option CheckedBuffer := do
  assert (length ≤ b.writableBytes)
  let bytes ← load data 0 length
  let buffer ← store b.buffer b.writerIndex bytes
  let writerIndex ← int (b.writerIndex + length)
  return { b with buffer, writerIndex }

/-- `append(const char* data, int length)`; `data` is what can be read at the pointer. -/
def append (b : CheckedBuffer) (data : Bytes) (length : Int) : Option CheckedBuffer := do
  let b ← if b.writableBytes < length then b.makeSpace length else some b
  b.write data length

def appendString (b : CheckedBuffer) (str : Bytes) : Option CheckedBuffer :=
  b.append str (toInt str.length)

/-- The content is copied to a new vector, and the indices stay. -/
def shrink (b : CheckedBuffer) (reserve : Int) : Option CheckedBuffer := do
  let readable ← b.readableBytes
  let size ← int (readable + reserve)
  let buf ← resizeInt [] size
  let content ← load b.buffer b.readerIndex (b.readerIndex + readable)
  let buffer ← store buf 0 content
  return { b with buffer }

def readable (b : CheckedBuffer) : Bytes :=
  (b.buffer.take b.writerIndex.toNat).drop b.readerIndex.toNat

structure Wf (b : CheckedBuffer) : Prop where
  reader_nonneg : 0 ≤ b.readerIndex
  reader_le : b.readerIndex ≤ b.writerIndex
  writer_le : b.writerIndex ≤ b.buffer.length

end CheckedBuffer

/-! ## The release build -/

structure BytesBuffer.IntSized (b : BytesBuffer) : Prop extends b.Wf where
  size_lt : b.buffer.length < 2 ^ 31

namespace CheckedBuffer

def ofBuffer (b : BytesBuffer) : CheckedBuffer := ⟨b.buffer, b.readerIndex, b.writerIndex⟩

variable {b : BytesBuffer}

theorem wf_ofBuffer (hb : b.Wf) : (ofBuffer b).Wf where
  reader_nonneg := Int.natCast_nonneg _
  reader_le := Int.ofNat_le.mpr hb.reader_le
  writer_le := Int.ofNat_le.mpr hb.writer_le

@[simp] theorem readable_ofBuffer (b : BytesBuffer) : (ofBuffer b).readable = b.readable := rfl

theorem bind_of_eq_some {α β : Type} {x : Option α} {a : α} (h : x = some a) (f : α → Option β) :
    (x >>= f) = f a := by
  rw [h]
  rfl

theorem assert_of {condition : Prop} [Decidable condition] (h : condition) :
    assert condition = some () := if_pos h

theorem load_nat {l : Bytes} (first length : Nat) (h : first + length ≤ l.length) :
    load l first (first + length) = some ((l.drop first).take length) := by
  have hlength : (first + length - first : Int).toNat = length := by omega
  unfold load
  rw [if_pos (by omega), hlength, Int.toNat_natCast]

theorem resizeInt_nat (l : Bytes) (size : Nat) :
    resizeInt l size = some (resize l size 0) := if_pos (Int.natCast_nonneg _)

theorem store_nat {l data : Bytes} (pos : Nat) (h : pos + data.length ≤ l.length) :
    store l pos data = some (overwrite l pos data) := if_pos (by omega)

theorem readableBytes_ofBuffer (hb : b.IntSized) :
    (ofBuffer b).readableBytes = some b.readableBytes := by
  have := hb.reader_le
  have := hb.writer_le
  have := hb.size_lt
  exact int_of_fits (by simp only [Fits, ofBuffer]; omega)

theorem writableBytes_ofBuffer (hb : b.IntSized) :
    (ofBuffer b).writableBytes = b.writableBytes := by
  have := hb.writer_le
  have := hb.size_lt
  exact toInt_of_fits (by simp only [Fits, ofBuffer]; omega)

theorem room_ofBuffer (hb : b.IntSized) :
    int ((ofBuffer b).writableBytes + (ofBuffer b).discardableBytes) =
      some (b.writableBytes + b.discardableBytes) := by
  have := hb.reader_le
  have := hb.writer_le
  have := hb.size_lt
  rw [writableBytes_ofBuffer hb]
  refine int_of_fits ?_
  simp only [Fits, BytesBuffer.writableBytes, discardableBytes, ofBuffer]
  omega

theorem retrieve_ofBuffer (hb : b.IntSized) {length : Nat} (hlen : length ≤ b.readableBytes) :
    (ofBuffer b).retrieve length = some (ofBuffer (b.retrieve length)) := by
  have hr := hb.reader_le
  have hw := hb.writer_le
  have hsize := hb.size_lt
  unfold retrieve BytesBuffer.retrieve
  rw [bind_of_eq_some (readableBytes_ofBuffer hb), bind_of_eq_some (assert_of hlen)]
  split
  · rename_i hlt
    simp only [BytesBuffer.readableBytes] at hlt
    have hsum : int ((ofBuffer b).readerIndex + length) =
        some ((b.readerIndex + length : Nat) : Int) := int_natCast_add (by omega)
    rw [bind_of_eq_some hsum]
    rfl
  · split
    · rfl
    · rfl

theorem peek_ofBuffer (hb : b.IntSized) (length : Nat) (hlen : length ≤ b.readableBytes) :
    load (ofBuffer b).buffer (ofBuffer b).readerIndex ((ofBuffer b).readerIndex + length) =
      some (b.peek.take length) := by
  have := hb.reader_le
  have := hb.writer_le
  simp only [BytesBuffer.readableBytes] at hlen
  exact load_nat (l := b.buffer) _ _ (by omega)

theorem retrieveInto_ofBuffer (hb : b.IntSized) (length : Nat) :
    (ofBuffer b).retrieveInto length =
      some ((b.retrieveInto length).1, ofBuffer (b.retrieveInto length).2) := by
  have hreadable := BytesBuffer.readableBytes_eq hb.toWf
  unfold retrieveInto BytesBuffer.retrieveInto
  rw [bind_of_eq_some (readableBytes_ofBuffer hb)]
  split
  · rfl
  · split
    · rw [hreadable, bind_of_eq_some (peek_ofBuffer hb b.readable.length (by omega))]
      rfl
    · rename_i hle
      rw [bind_of_eq_some (peek_ofBuffer hb _ (by omega)),
        bind_of_eq_some (retrieve_ofBuffer hb (by omega))]
      rfl

theorem retrieveAsString_ofBuffer (hb : b.IntSized) (length : Nat)
    (hlen : length ≤ b.readableBytes) :
    (ofBuffer b).retrieveAsString length =
      some ((b.retrieveAsString length).1, ofBuffer (b.retrieveAsString length).2) := by
  unfold retrieveAsString
  rw [bind_of_eq_some (readableBytes_ofBuffer hb), bind_of_eq_some (assert_of hlen),
    bind_of_eq_some (peek_ofBuffer hb _ hlen), bind_of_eq_some (retrieve_ofBuffer hb hlen)]
  rfl

theorem retrieveAllAsString_ofBuffer (hb : b.IntSized) :
    (ofBuffer b).retrieveAllAsString =
      some (b.readable, ofBuffer (b.retrieve b.readable.length)) := by
  have hreadable := BytesBuffer.readableBytes_eq hb.toWf
  have hall := retrieveAsString_ofBuffer hb b.readable.length (by omega)
  rw [BytesBuffer.retrieveAsString_eq hb.toWf (Nat.le_refl _), List.take_length] at hall
  rw [retrieveAllAsString, bind_of_eq_some (readableBytes_ofBuffer hb), hreadable]
  exact hall

theorem retrieveUntil_ofBuffer (hb : b.IntSized) {stop : Nat} (hlow : b.readerIndex ≤ stop)
    (hhigh : stop ≤ b.writerIndex) :
    (ofBuffer b).retrieveUntil stop = some (ofBuffer (b.retrieve (stop - b.readerIndex))) := by
  have hw := hb.writer_le
  have hsize := hb.size_lt
  have hdiff : toInt (stop - (ofBuffer b).readerIndex) = (stop - b.readerIndex : Nat) := by
    rw [Int.ofNat_sub hlow]
    exact toInt_of_fits (by simp only [Fits, ofBuffer]; omega)
  have hreader : (ofBuffer b).readerIndex ≤ stop := Int.ofNat_le.mpr hlow
  have hwriter : stop ≤ (ofBuffer b).writerIndex := Int.ofNat_le.mpr hhigh
  rw [retrieveUntil, bind_of_eq_some (assert_of hreader), bind_of_eq_some (assert_of hwriter),
    hdiff]
  exact retrieve_ofBuffer hb (by simp only [BytesBuffer.readableBytes]; omega)

theorem ofSize_nat {initialSize : Nat} (hint : initialSize < 2 ^ 31) :
    ofSize initialSize = some (ofBuffer (BytesBuffer.ofSize initialSize)) := by
  have hb : (BytesBuffer.ofSize initialSize).IntSized :=
    ⟨BytesBuffer.wf_ofSize _, by simpa [BytesBuffer.ofSize] using hint⟩
  have hvector : resizeInt [] initialSize = some (BytesBuffer.ofSize initialSize).buffer := by
    rw [resizeInt_nat, resize_nil]
    rfl
  have hfields : (⟨(BytesBuffer.ofSize initialSize).buffer, 0, 0⟩ : CheckedBuffer) =
      ofBuffer (BytesBuffer.ofSize initialSize) := rfl
  have hreadable : (ofBuffer (BytesBuffer.ofSize initialSize)).readableBytes = some 0 :=
    readableBytes_ofBuffer hb
  have hwritable : (ofBuffer (BytesBuffer.ofSize initialSize)).writableBytes = initialSize := by
    rw [writableBytes_ofBuffer hb]
    simp [BytesBuffer.writableBytes, BytesBuffer.ofSize]
  have hdiscardable : (ofBuffer (BytesBuffer.ofSize initialSize)).discardableBytes = 0 := rfl
  rw [ofSize, bind_of_eq_some hvector, hfields]
  dsimp only
  rw [bind_of_eq_some hreadable, bind_of_eq_some (assert_of rfl),
    bind_of_eq_some (assert_of hwritable), bind_of_eq_some (assert_of hdiscardable)]
  rfl

/-- A vector cannot be constructed with a negative size. -/
theorem size_of_ofSize {initialSize : Int} (hint : Fits initialSize) {b : CheckedBuffer}
    (hb : ofSize initialSize = some b) : ∃ size : Nat, initialSize = size ∧ size < 2 ^ 31 := by
  have hnonneg : 0 ≤ initialSize := by
    by_contra hneg
    have hvector : resizeInt [] initialSize = none := if_neg hneg
    rw [ofSize, hvector] at hb
    cases hb
  obtain ⟨size, rfl⟩ := Int.eq_ofNat_of_zero_le hnonneg
  refine ⟨size, rfl, ?_⟩
  have := hint.2
  omega

/-! ## `append` -/

theorem makeSpace_intSized (hb : b.IntSized) {more : Nat} (hneed : b.writableBytes < more)
    (hsum : b.writableBytes + b.discardableBytes < more → b.writerIndex + more < 2 ^ 31) :
    (b.makeSpace more).IntSized := by
  have hr := hb.reader_le
  have hw := hb.writer_le
  have hsize := hb.size_lt
  refine ⟨(BytesBuffer.makeSpace_spec hb.toWf hneed).1, ?_⟩
  unfold BytesBuffer.makeSpace
  split
  · rename_i hgrow
    simpa using hsum hgrow
  · have hused : (b.peek.take b.readableBytes.toNat).length ≤ b.buffer.length := by
      simp only [BytesBuffer.peek, List.length_take, List.length_drop]
      omega
    have hkeep : (overwrite b.buffer 0 (b.peek.take b.readableBytes.toNat)).length =
        b.buffer.length := length_overwrite (by omega)
    simpa only [hkeep] using hsize

theorem makeSpace_ofBuffer (hb : b.IntSized) {more : Nat}
    (hsum : b.writableBytes + b.discardableBytes < more → b.writerIndex + more < 2 ^ 31) :
    (ofBuffer b).makeSpace more = some (ofBuffer (b.makeSpace more)) := by
  have hr := hb.reader_le
  have hw := hb.writer_le
  have hsize := hb.size_lt
  unfold makeSpace BytesBuffer.makeSpace
  rw [bind_of_eq_some (room_ofBuffer hb)]
  split
  · rename_i hgrow
    have hint : int ((ofBuffer b).writerIndex + more) = some ((b.writerIndex + more : Nat) : Int) :=
      int_natCast_add (hsum hgrow)
    rw [bind_of_eq_some hint, bind_of_eq_some (resizeInt_nat _ _)]
    rfl
  · -- the readable bytes move to the front
    have hreadable := BytesBuffer.readableBytes_eq hb.toWf
    have hend : (ofBuffer b).writerIndex = (ofBuffer b).readerIndex + b.readable.length := by
      simp only [BytesBuffer.readableBytes] at hreadable
      simp only [ofBuffer]
      omega
    have hload : load (ofBuffer b).buffer (ofBuffer b).readerIndex (ofBuffer b).writerIndex =
        some (b.peek.take b.readable.length) := by
      rw [hend]
      exact peek_ofBuffer hb _ (by omega)
    have hstore : store (ofBuffer b).buffer 0 (b.peek.take b.readable.length) =
        some (overwrite b.buffer 0 (b.peek.take b.readable.length)) := by
      refine store_nat (l := b.buffer) 0 ?_
      simp only [BytesBuffer.peek, List.length_take, List.length_drop]
      omega
    have hused : CheckedBuffer.readableBytes
        ⟨overwrite b.buffer 0 (b.peek.take b.readable.length), 0, b.readable.length⟩ =
          some (b.readable.length : Int) := by
      simp only [BytesBuffer.readableBytes] at hreadable
      rw [CheckedBuffer.readableBytes, Int.sub_zero]
      exact int_of_fits (by simp only [Fits]; omega)
    rw [bind_of_eq_some (readableBytes_ofBuffer hb), bind_of_eq_some hload,
      bind_of_eq_some hstore, hreadable]
    dsimp only
    rw [bind_of_eq_some hused, bind_of_eq_some (assert_of rfl)]
    rfl

theorem write_ofBuffer (hb : b.IntSized) {data : Bytes} {length : Nat}
    (hlen : length ≤ data.length) (hroom : b.writerIndex + length ≤ b.buffer.length) :
    (ofBuffer b).write data length = some (ofBuffer { b with
      buffer := overwrite b.buffer b.writerIndex (data.take length)
      writerIndex := b.writerIndex + length }) := by
  have hsize := hb.size_lt
  have htake : (data.take length).length = length := List.length_take_of_le hlen
  have hwritable : (length : Int) ≤ (ofBuffer b).writableBytes := by
    rw [writableBytes_ofBuffer hb, BytesBuffer.writableBytes]
    omega
  have hload : load data 0 length = some (data.take length) := by
    have hfront := load_nat (l := data) 0 length (by omega)
    rwa [Int.natCast_zero, Int.zero_add, List.drop_zero] at hfront
  have hstore : store (ofBuffer b).buffer (ofBuffer b).writerIndex (data.take length) =
      some (overwrite b.buffer b.writerIndex (data.take length)) :=
    store_nat (l := b.buffer) _ (by omega)
  have hint : int ((ofBuffer b).writerIndex + length) =
      some ((b.writerIndex + length : Nat) : Int) := int_natCast_add (by omega)
  rw [write, bind_of_eq_some (assert_of hwritable), bind_of_eq_some hload, bind_of_eq_some hstore,
    bind_of_eq_some hint]
  rfl

theorem append_ofBuffer (hb : b.IntSized) {data : Bytes} {length : Nat}
    (hlen : length ≤ data.length)
    (hsum : b.writableBytes + b.discardableBytes < length → b.writerIndex + length < 2 ^ 31) :
    (ofBuffer b).append data length = some (ofBuffer (b.append (data.take length))) := by
  have htake : (data.take length).length = length := List.length_take_of_le hlen
  unfold append BytesBuffer.append
  rw [writableBytes_ofBuffer hb, htake]
  split
  · rename_i hneed
    obtain ⟨-, -, hroom⟩ := BytesBuffer.makeSpace_spec hb.toWf hneed
    rw [bind_of_eq_some (makeSpace_ofBuffer hb hsum)]
    exact write_ofBuffer (makeSpace_intSized hb hneed hsum) hlen hroom
  · rename_i hroom
    simp only [BytesBuffer.writableBytes] at hroom
    exact write_ofBuffer hb hlen (by omega)

theorem append_intSized (hb : b.IntSized) {data : Bytes}
    (hsum : b.writableBytes + b.discardableBytes < data.length →
      b.writerIndex + data.length < 2 ^ 31) : (b.append data).IntSized := by
  refine ⟨BytesBuffer.append_wf hb.toWf data, ?_⟩
  have hkeep (c : BytesBuffer) (hc : c.IntSized)
      (hroom : c.writerIndex + data.length ≤ c.buffer.length) :
      (overwrite c.buffer c.writerIndex data).length < 2 ^ 31 := by
    rw [length_overwrite hroom]
    exact hc.size_lt
  unfold BytesBuffer.append
  split
  · rename_i hneed
    obtain ⟨-, -, hroom⟩ := BytesBuffer.makeSpace_spec hb.toWf hneed
    exact hkeep _ (makeSpace_intSized hb hneed hsum) hroom
  · rename_i hroom
    simp only [BytesBuffer.writableBytes] at hroom
    exact hkeep b hb (by omega)

theorem append_negative (hb : b.IntSized) {data : Bytes} {length : Int} (hneg : length < 0) :
    (ofBuffer b).append data length = none := by
  have hw := hb.writer_le
  have hwritable : length ≤ (ofBuffer b).writableBytes := by
    rw [writableBytes_ofBuffer hb, BytesBuffer.writableBytes]
    omega
  have hload : load data 0 length = none := if_neg (by omega)
  have hwrite : (ofBuffer b).write data length = none := by
    rw [write, bind_of_eq_some (assert_of hwritable), hload]
    rfl
  unfold append
  rw [if_neg (Int.not_lt.mpr hwritable)]
  exact hwrite

theorem append_overflow (hb : b.IntSized) {data : Bytes} {length : Nat}
    (hgrow : b.writableBytes + b.discardableBytes < length)
    (hsum : 2 ^ 31 ≤ b.writerIndex + length) : (ofBuffer b).append data length = none := by
  have hr := hb.reader_le
  have hw := hb.writer_le
  have hsize := hb.size_lt
  have hneed : b.writableBytes < length := by
    simp only [BytesBuffer.discardableBytes] at hgrow
    omega
  have hspace : (ofBuffer b).makeSpace length = none := by
    have hint : int ((ofBuffer b).writerIndex + length) = none := int_natCast_add_overflow hsum
    unfold makeSpace
    rw [bind_of_eq_some (room_ofBuffer hb), if_pos hgrow, hint]
    rfl
  unfold append
  rw [writableBytes_ofBuffer hb, if_pos hneed, hspace]
  rfl

theorem append_cases (hb : b.IntSized) {data : Bytes} {length : Nat} (hlen : length ≤ data.length)
    {c : CheckedBuffer} (hc : (ofBuffer b).append data length = some c) :
    c = ofBuffer (b.append (data.take length)) ∧ (b.append (data.take length)).IntSized := by
  by_cases hsum : b.writableBytes + b.discardableBytes < length → b.writerIndex + length < 2 ^ 31
  · have hsome := append_ofBuffer hb hlen hsum
    refine ⟨Option.some.inj (hc.symm.trans hsome), append_intSized hb ?_⟩
    rwa [List.length_take_of_le hlen]
  · obtain ⟨hgrow, hlarge⟩ := Classical.not_imp.mp hsum
    rw [append_overflow hb hgrow (Nat.le_of_not_lt hlarge)] at hc
    cases hc

end CheckedBuffer

end CloudEdgePush.Client
