import CloudEdgePush.Client.CheckedBuffer
import CloudEdgePush.Lib.Fifo
import CloudEdgePush.Lib.Transition

/-!
# `BytesBuffer` as a queue of bytes

Sequences of calls on one buffer, from its constructor on.  Appends put bytes at the end of a
queue and retrieves take bytes from its front; growing the vector, moving the content and setting
the indices back do not change what is in the queue.

`shrink` is the call that does not fit: it moves the content and forgets the indices.
-/

namespace CloudEdgePush.Client

open CloudEdgePush.Lib CloudEdgePush.Lib.Bytes CloudEdgePush.Lib.CInt CloudEdgePush.Lib.Transition

inductive Retrieval
  | retrieve (length : Int)
  | retrieveInto (length : Int)
  | retrieveUntil (stop : Int)
  | retrieveAsString (length : Int)
  | retrieveAllAsString
  | retrieveAll
deriving DecidableEq, Repr

inductive BufferCall
  | append (str : Bytes)
  | appendBytes (data : Bytes) (length : Int)
  | retrieval (r : Retrieval)
deriving DecidableEq, Repr

namespace Retrieval

/-- The bytes that leave the queue, and the buffer after the call. -/
def call (b : CheckedBuffer) : Retrieval → Option (Bytes × CheckedBuffer)
  | retrieve length => (b.retrieve length).map (b.readable.take length.toNat, ·)
  | retrieveInto length => b.retrieveInto length
  | retrieveUntil stop =>
      (b.retrieveUntil stop).map (b.readable.take (stop - b.readerIndex).toNat, ·)
  | retrieveAsString length => b.retrieveAsString length
  | retrieveAllAsString => b.retrieveAllAsString
  | retrieveAll => some (b.readable, b.retrieveAll)

/-- A length is not negative, and the arguments satisfy the assertions on them. -/
def Admissible (b : CheckedBuffer) : Retrieval → Prop
  | retrieve length | retrieveAsString length =>
      0 ≤ length ∧ length ≤ b.writerIndex - b.readerIndex
  | retrieveInto length => 0 ≤ length
  | retrieveUntil stop => b.readerIndex ≤ stop ∧ stop ≤ b.writerIndex
  | retrieveAllAsString | retrieveAll => True

instance (b : CheckedBuffer) : (r : Retrieval) → Decidable (r.Admissible b)
  | retrieve _ | retrieveAsString _ | retrieveUntil _ => inferInstanceAs (Decidable (_ ∧ _))
  | retrieveInto length => inferInstanceAs (Decidable (0 ≤ length))
  | retrieveAllAsString | retrieveAll => isTrue trivial

end Retrieval

namespace BufferCall

def call (b : CheckedBuffer) : BufferCall → Option (Bytes × CheckedBuffer)
  | append str => (b.appendString str).map ([], ·)
  | appendBytes data length => (b.append data length).map ([], ·)
  | retrieval r => r.call b

/-- At least `length` bytes can be read at the pointer that is given to `append`. -/
def Admissible (b : CheckedBuffer) : BufferCall → Prop
  | append _ => True
  | appendBytes data length => 0 ≤ length ∧ length ≤ data.length
  | retrieval r => r.Admissible b

instance (b : CheckedBuffer) : (c : BufferCall) → Decidable (c.Admissible b)
  | append _ => isTrue trivial
  | appendBytes _ _ => inferInstanceAs (Decidable (_ ∧ _))
  | retrieval r => inferInstanceAs (Decidable (r.Admissible b))

def data : BufferCall → Bytes
  | append str => str
  | appendBytes data length => data.take length.toNat
  | retrieval _ => []

end BufferCall

def appended (calls : List BufferCall) : Bytes := calls.flatMap BufferCall.data

structure BufferQueue where
  buffer : CheckedBuffer
  /-- The bytes that were taken out or discarded. -/
  taken : Bytes := []
deriving DecidableEq, Repr

namespace BufferQueue

def step (s : BufferQueue) (c : BufferCall) : Option BufferQueue :=
  (c.call s.buffer).map fun (out, buffer) => ⟨buffer, s.taken ++ out⟩

def Admissible (s : BufferQueue) (c : BufferCall) : Prop := c.Admissible s.buffer

instance (s : BufferQueue) (c : BufferCall) : Decidable (s.Admissible c) :=
  inferInstanceAs (Decidable (c.Admissible s.buffer))

/-- The calls on a new buffer. -/
def AdmissibleCalls (initialSize : Int) (calls : List BufferCall) : Prop :=
  ∀ b, CheckedBuffer.ofSize initialSize = some b → AllSteps step Admissible { buffer := b } calls

instance (initialSize : Int) (calls : List BufferCall) :
    Decidable (AdmissibleCalls initialSize calls) :=
  match h : CheckedBuffer.ofSize initialSize with
  | none => isTrue fun _ hb => nomatch h.symm.trans hb
  | some b =>
      decidable_of_iff (AllSteps step Admissible { buffer := b } calls)
        ⟨fun hall _ hb => Option.some.inj (h.symm.trans hb) ▸ hall, fun hall => hall b h⟩

def after (initialSize : Int) (calls : List BufferCall) : Option BufferQueue :=
  (CheckedBuffer.ofSize initialSize).bind fun b => run step { buffer := b } calls

/-- After each of the calls the indices are in order, and what was appended is what has left the
queue and what can be read. -/
def IsFifo (initialSize : Int) (calls : List BufferCall) : Prop :=
  ∀ before, before <+: calls → ∃ s, after initialSize before = some s ∧ s.buffer.Wf ∧
    Fifo.Conserves (appended before) s.taken s.buffer.readable

end BufferQueue

/-! ## One call -/

open CheckedBuffer

structure Moves (b b' : BytesBuffer) (data out : Bytes) : Prop where
  intSized : b'.IntSized
  content : out ++ b'.readable = b.readable ++ data
  writer_le : b'.writerIndex ≤ b.writerIndex + data.length

namespace Moves

variable {b : BytesBuffer}

theorem retrieveAll (hb : b.IntSized) : Moves b b.retrieveAll [] b.readable where
  intSized := ⟨BytesBuffer.retrieveAll_wf b, hb.size_lt⟩
  content := by rw [BytesBuffer.readable_retrieveAll]
  writer_le := Nat.zero_le _

theorem retrieve (hb : b.IntSized) {length : Nat} (hlen : length ≤ b.readable.length) :
    Moves b (b.retrieve length) [] (b.readable.take length) where
  intSized := by
    refine ⟨BytesBuffer.retrieve_wf hb.toWf length, ?_⟩
    have hkeep : (b.retrieve length).buffer = b.buffer := by
      unfold BytesBuffer.retrieve
      split
      · rfl
      · split <;> rfl
    rw [hkeep]
    exact hb.size_lt
  content := by
    rw [BytesBuffer.readable_retrieve hb.toWf hlen, List.take_append_drop, List.append_nil]
  writer_le := by
    unfold BytesBuffer.retrieve
    split
    · exact Nat.le_refl _
    · split
      · exact Nat.zero_le _
      · exact Nat.le_refl _

theorem retrieveInto (hb : b.IntSized) (length : Nat) :
    Moves b (b.retrieveInto length).2 [] (b.retrieveInto length).1 := by
  have hreadable := BytesBuffer.readableBytes_eq hb.toWf
  unfold BytesBuffer.retrieveInto
  split
  · exact ⟨hb, (List.append_nil _).symm, Nat.le_refl _⟩
  · split
    · rw [hreadable, Int.toNat_natCast, BytesBuffer.peek_take hb.toWf (Nat.le_refl _),
        List.take_length]
      exact retrieveAll hb
    · rw [BytesBuffer.peek_take hb.toWf (by omega)]
      exact retrieve hb (by omega)

theorem append (hb : b.IntSized) {data : Bytes} (hint : (b.append data).IntSized) :
    Moves b (b.append data) data [] where
  intSized := hint
  content := BytesBuffer.readable_append hb.toWf data
  writer_le := by
    have hr := hb.reader_le
    unfold BytesBuffer.append
    split
    · -- the content can only have moved to the front
      refine Nat.add_le_add_right ?_ _
      unfold BytesBuffer.makeSpace
      split
      · exact Nat.le_refl _
      · simp only [BytesBuffer.readableBytes]
        omega
    · exact Nat.le_refl _

end Moves

theorem Retrieval.call_ofBuffer {b : BytesBuffer} (hb : b.IntSized) {r : Retrieval}
    (hadmissible : r.Admissible (ofBuffer b)) :
    ∃ out b', r.call (ofBuffer b) = some (out, ofBuffer b') ∧ Moves b b' [] out := by
  have hreadable := BytesBuffer.readableBytes_eq hb.toWf
  cases r with
  | retrieve length =>
      obtain ⟨hlow, hhigh⟩ := hadmissible
      obtain ⟨length, rfl⟩ := Int.eq_ofNat_of_zero_le hlow
      have hlen : length ≤ b.readableBytes := hhigh
      have hcount : length ≤ b.readable.length := by omega
      refine ⟨_, _, ?_, Moves.retrieve hb hcount⟩
      rw [call, retrieve_ofBuffer hb hlen]
      rfl
  | retrieveInto length =>
      obtain ⟨length, rfl⟩ := Int.eq_ofNat_of_zero_le hadmissible
      exact ⟨_, _, retrieveInto_ofBuffer hb length, Moves.retrieveInto hb length⟩
  | retrieveUntil stop =>
      obtain ⟨hlow, hhigh⟩ := hadmissible
      have hnonneg : 0 ≤ stop := Int.le_trans (wf_ofBuffer hb.toWf).reader_nonneg hlow
      obtain ⟨stop, rfl⟩ := Int.eq_ofNat_of_zero_le hnonneg
      have hreader : b.readerIndex ≤ stop := Int.ofNat_le.mp hlow
      have hwriter : stop ≤ b.writerIndex := Int.ofNat_le.mp hhigh
      have hlen : stop - b.readerIndex ≤ b.readable.length := by
        rw [BytesBuffer.readableBytes] at hreadable
        omega
      refine ⟨_, _, ?_, Moves.retrieve hb hlen⟩
      have hlength : (stop - (ofBuffer b).readerIndex).toNat = stop - b.readerIndex := by
        simp only [ofBuffer]
        omega
      rw [call, retrieveUntil_ofBuffer hb hreader hwriter, hlength]
      rfl
  | retrieveAsString length =>
      obtain ⟨hlow, hhigh⟩ := hadmissible
      obtain ⟨length, rfl⟩ := Int.eq_ofNat_of_zero_le hlow
      have hlen : length ≤ b.readableBytes := hhigh
      have hcall := retrieveAsString_ofBuffer hb _ hlen
      rw [BytesBuffer.retrieveAsString_eq hb.toWf (by omega)] at hcall
      exact ⟨_, _, hcall, Moves.retrieve hb (by omega)⟩
  | retrieveAllAsString =>
      have hall := Moves.retrieve hb (Nat.le_refl b.readable.length)
      rw [List.take_length] at hall
      exact ⟨_, _, retrieveAllAsString_ofBuffer hb, hall⟩
  | retrieveAll => exact ⟨_, _, rfl, Moves.retrieveAll hb⟩

theorem BufferCall.appendBytes_ofBuffer {b : BytesBuffer} (hb : b.IntSized) {data : Bytes}
    {length : Nat} (hlen : length ≤ data.length) (hroom : b.writerIndex + length < 2 ^ 31) :
    ∃ b', (ofBuffer b).append data length = some (ofBuffer b') ∧
      Moves b b' (data.take length) [] := by
  have hint : (b.append (data.take length)).IntSized := by
    refine append_intSized hb fun _ => ?_
    rwa [List.length_take_of_le hlen]
  exact ⟨_, append_ofBuffer hb hlen fun _ => hroom, Moves.append hb hint⟩

/-- As long as the indices stay in `int`, no call fails. -/
theorem BufferCall.call_ofBuffer {b : BytesBuffer} (hb : b.IntSized) {c : BufferCall}
    (hadmissible : c.Admissible (ofBuffer b)) (hroom : b.writerIndex + c.data.length < 2 ^ 31) :
    ∃ out b', c.call (ofBuffer b) = some (out, ofBuffer b') ∧ Moves b b' c.data out := by
  cases c with
  | append str =>
      rw [BufferCall.data] at hroom
      have hfits : Fits str.length := fits_natCast (by omega)
      obtain ⟨b', happend, hmoves⟩ := appendBytes_ofBuffer hb (Nat.le_refl str.length) hroom
      rw [List.take_length] at hmoves
      refine ⟨[], b', ?_, hmoves⟩
      rw [call, appendString, toInt_of_fits hfits, happend]
      rfl
  | appendBytes data length =>
      obtain ⟨hlow, hhigh⟩ := hadmissible
      obtain ⟨length, rfl⟩ := Int.eq_ofNat_of_zero_le hlow
      have hlen : length ≤ data.length := Int.ofNat_le.mp hhigh
      rw [BufferCall.data, Int.toNat_natCast, List.length_take_of_le hlen] at hroom
      obtain ⟨b', happend, hmoves⟩ := appendBytes_ofBuffer hb hlen hroom
      refine ⟨[], b', ?_, hmoves⟩
      rw [call, happend]
      rfl
  | retrieval r => exact Retrieval.call_ofBuffer hb hadmissible

theorem BufferCall.call_intSized {b : BytesBuffer} (hb : b.IntSized) {c : BufferCall}
    (hadmissible : c.Admissible (ofBuffer b)) {result : Bytes × CheckedBuffer}
    (hcall : c.call (ofBuffer b) = some result) :
    ∃ b', result.2 = ofBuffer b' ∧ b'.IntSized := by
  cases c with
  | append str =>
      rw [call, Option.map_eq_some_iff] at hcall
      obtain ⟨b', happend, rfl⟩ := hcall
      by_cases hneg : toInt str.length < 0
      · rw [appendString, append_negative hb hneg] at happend
        cases happend
      · obtain ⟨length, hlength⟩ := Int.eq_ofNat_of_zero_le (Int.not_lt.mp hneg)
        have hlen : length ≤ str.length := by
          have hle := toInt_natCast_le str.length
          omega
        rw [appendString, hlength] at happend
        exact ⟨_, append_cases hb hlen happend⟩
  | appendBytes data length =>
      rw [call, Option.map_eq_some_iff] at hcall
      obtain ⟨b', happend, rfl⟩ := hcall
      obtain ⟨hlow, hhigh⟩ := hadmissible
      obtain ⟨length, rfl⟩ := Int.eq_ofNat_of_zero_le hlow
      exact ⟨_, append_cases hb (Int.ofNat_le.mp hhigh) happend⟩
  | retrieval r =>
      obtain ⟨out, b', hsome, hmoves⟩ := Retrieval.call_ofBuffer hb hadmissible
      obtain rfl := Option.some.inj (hsome.symm.trans hcall)
      exact ⟨b', rfl, hmoves.intSized⟩

/-! ## All calls -/

namespace BufferQueue

def Holds (past : List BufferCall) (s : BufferQueue) : Prop :=
  ∃ b, s.buffer = ofBuffer b ∧ b.IntSized ∧
    Fifo.Conserves (appended past) s.taken b.readable ∧ b.writerIndex ≤ (appended past).length

theorem appended_append (calls more : List BufferCall) :
    appended (calls ++ more) = appended calls ++ appended more := List.flatMap_append

theorem appended_concat (calls : List BufferCall) (c : BufferCall) :
    appended (calls ++ [c]) = appended calls ++ c.data := by
  simp [appended]

theorem Holds.step {past : List BufferCall} {s : BufferQueue} (h : Holds past s) {c : BufferCall}
    (hadmissible : s.Admissible c) (htotal : (appended (past ++ [c])).length < 2 ^ 31) :
    ∃ t, s.step c = some t ∧ Holds (past ++ [c]) t := by
  obtain ⟨b, hb, hint, hconserves, hwriter⟩ := h
  rw [appended_concat, List.length_append] at htotal
  rw [Admissible, hb] at hadmissible
  obtain ⟨out, b', hcall, hmoves⟩ := BufferCall.call_ofBuffer hint hadmissible (by omega)
  refine ⟨⟨ofBuffer b', s.taken ++ out⟩, ?_, b', rfl, hmoves.intSized, ?_, ?_⟩
  · rw [BufferQueue.step, hb, hcall]
    rfl
  · calc appended (past ++ [c])
      _ = appended past ++ c.data := appended_concat past c
      _ = s.taken ++ (b.readable ++ c.data) := by rw [hconserves, List.append_assoc]
      _ = s.taken ++ out ++ b'.readable := by rw [← hmoves.content, List.append_assoc]
  · rw [appended_concat, List.length_append]
    exact Nat.le_trans hmoves.writer_le (Nat.add_le_add_right hwriter _)

theorem Holds.run {past calls : List BufferCall} {s : BufferQueue} (h : Holds past s)
    (hadmissible : AllSteps BufferQueue.step Admissible s calls)
    (htotal : (appended (past ++ calls)).length < 2 ^ 31) :
    ∃ t, Transition.run BufferQueue.step s calls = some t ∧ Holds (past ++ calls) t := by
  induction calls generalizing past s with
  | nil =>
      rw [List.append_nil]
      exact ⟨s, rfl, h⟩
  | cons c calls ih =>
      rw [← List.singleton_append, ← List.append_assoc] at htotal ⊢
      have hfirst : (appended (past ++ [c])).length < 2 ^ 31 := by
        rw [appended_append, List.length_append] at htotal
        omega
      obtain ⟨s', hs', hholds⟩ := h.step hadmissible.1 hfirst
      obtain ⟨t, hrun, ht⟩ := ih hholds (hadmissible.2 s' hs') htotal
      exact ⟨t, run_cons_eq_some.mpr ⟨s', hs', hrun⟩, ht⟩

theorem Holds.new {size : Nat} (hint : size < 2 ^ 31) :
    Holds [] { buffer := ofBuffer (BytesBuffer.ofSize size) } := by
  refine ⟨_, rfl, ⟨BytesBuffer.wf_ofSize size, ?_⟩, ?_, Nat.le_refl _⟩
  · rwa [BytesBuffer.ofSize, List.length_replicate]
  · rw [BytesBuffer.readable_ofSize]
    exact Fifo.Conserves.start []

/-- The buffer is a queue: for every size, and all calls that keep to the contract. -/
theorem isFifo {initialSize : Int} (hpos : 0 < initialSize) (hint : Fits initialSize)
    {calls : List BufferCall} (hadmissible : AdmissibleCalls initialSize calls)
    (htotal : (appended calls).length < 2 ^ 31) : IsFifo initialSize calls := by
  obtain ⟨size, rfl⟩ := Int.eq_ofNat_of_zero_le (Int.le_of_lt hpos)
  have hsize : size < 2 ^ 31 := by
    have := hint.2
    omega
  have hnew := ofSize_nat hsize
  rintro before ⟨rest, rfl⟩
  have hbefore : (appended ([] ++ before)).length < 2 ^ 31 := by
    rw [appended_append, List.length_append] at htotal
    exact Nat.lt_of_add_right_lt htotal
  obtain ⟨s, hrun, b, hb, hwf, hconserves, -⟩ := (Holds.new hsize).run
    ((hadmissible _ hnew).of_initial (List.prefix_append before rest)) hbefore
  refine ⟨s, ?_, ?_, ?_⟩
  · rw [after, hnew, Option.bind_some, hrun]
  · rw [hb]
    exact wf_ofBuffer hwf.toWf
  · rw [hb]
    exact hconserves

/-- The third call moves the content to the front, the last but one lets the vector grow. -/
def sampleCalls : List BufferCall :=
  [.append [1, 2, 3], .retrieval (.retrieve 2), .appendBytes [4, 5, 6, 7] 3,
    .retrieval (.retrieveInto 1), .append [8, 9, 10, 11], .retrieval (.retrieveUntil 3)]

theorem isFifo_sampleCalls : IsFifo 4 sampleCalls := by
  apply isFifo
  · decide
  · decide
  · decide +kernel
  · decide

end BufferQueue

/-! ## `shrink` -/

namespace CheckedBuffer

/-- `shrink(reserve)` returns a buffer in order, with the same content and with room. -/
def Shrinks (b : CheckedBuffer) (reserve : Int) : Prop :=
  ∃ b', b.shrink reserve = some b' ∧ b'.Wf ∧ b'.readable = b.readable ∧ reserve ≤ b'.writableBytes

variable {b : BytesBuffer}

theorem shrink_ofBuffer (hb : b.IntSized) {reserve : Nat}
    (hsum : b.readable.length + reserve < 2 ^ 31) :
    (ofBuffer b).shrink reserve =
      some (ofBuffer { b with buffer := b.readable ++ List.replicate reserve 0 }) := by
  have hreadable := BytesBuffer.readableBytes_eq hb.toWf
  have hint : int (b.readableBytes + reserve) =
      some ((b.readable.length + reserve : Nat) : Int) := by
    rw [hreadable]
    exact int_natCast_add hsum
  have hvector : resizeInt [] (b.readable.length + reserve : Nat) =
      some (List.replicate (b.readable.length + reserve) 0) := by
    rw [resizeInt_nat, resize_nil]
  have hload : load (ofBuffer b).buffer (ofBuffer b).readerIndex
      ((ofBuffer b).readerIndex + b.readableBytes) = some b.readable := by
    rw [hreadable, peek_ofBuffer hb _ (by omega), BytesBuffer.peek_take hb.toWf (Nat.le_refl _),
      List.take_length]
  have hstore : store (List.replicate (b.readable.length + reserve) 0) 0 b.readable =
      some (b.readable ++ List.replicate reserve 0) := by
    have hfront : 0 + b.readable.length ≤
        (List.replicate (b.readable.length + reserve) (0 : UInt8)).length := by
      rw [List.length_replicate]
      omega
    rw [← Int.natCast_zero, store_nat 0 hfront, overwrite_replicate]
  rw [shrink, bind_of_eq_some (readableBytes_ofBuffer hb), bind_of_eq_some hint,
    bind_of_eq_some hvector, bind_of_eq_some hload, bind_of_eq_some hstore]
  rfl

theorem shrink_overflow (hb : b.IntSized) {reserve : Nat}
    (hsum : 2 ^ 31 ≤ b.readable.length + reserve) : (ofBuffer b).shrink reserve = none := by
  have hint : int (b.readableBytes + reserve) = none := by
    rw [BytesBuffer.readableBytes_eq hb.toWf]
    exact int_natCast_add_overflow hsum
  rw [shrink, bind_of_eq_some (readableBytes_ofBuffer hb), hint]
  rfl

/-- The content moves to the front and the indices stay, and so they have to be there already. -/
theorem shrinks_ofBuffer_iff (hb : b.IntSized) (reserve : Nat) :
    Shrinks (ofBuffer b) reserve ↔
      b.readerIndex = 0 ∧ b.readable.length + reserve < 2 ^ 31 := by
  have hreadable := BytesBuffer.readableBytes_eq hb.toWf
  have hr := hb.reader_le
  have hw := hb.writer_le
  have hsize := hb.size_lt
  have hlength : (b.readable ++ List.replicate reserve 0).length = b.readable.length + reserve := by
    rw [List.length_append, List.length_replicate]
  rw [BytesBuffer.readableBytes] at hreadable
  constructor
  · rintro ⟨b', hshrink, -, -, hwritable⟩
    have hsum : b.readable.length + reserve < 2 ^ 31 := by
      by_contra hlarge
      rw [shrink_overflow hb (Nat.le_of_not_lt hlarge)] at hshrink
      cases hshrink
    rw [shrink_ofBuffer hb hsum, Option.some.injEq] at hshrink
    subst hshrink
    -- the room after the writer index is too small by the reader index
    have hroom : toInt ((b.readable.length + reserve : Nat) - b.writerIndex) =
        reserve - b.readerIndex := by
      rw [toInt_of_fits (by simp only [Fits]; omega)]
      omega
    simp only [CheckedBuffer.writableBytes, ofBuffer, hlength, hroom] at hwritable
    exact ⟨by omega, hsum⟩
  · rintro ⟨hzero, hsum⟩
    have hwriter : b.writerIndex = b.readable.length := by omega
    have hc : BytesBuffer.IntSized { b with buffer := b.readable ++ List.replicate reserve 0 } := by
      refine ⟨⟨hr, ?_⟩, ?_⟩
      · simp only [hlength]
        omega
      · simpa only [hlength] using hsum
    refine ⟨_, shrink_ofBuffer hb hsum, wf_ofBuffer hc.toWf, ?_, ?_⟩
    · rw [readable_ofBuffer, readable_ofBuffer, BytesBuffer.readable]
      simp only [hzero, hwriter, List.take_left, List.drop_zero]
    · rw [writableBytes_ofBuffer hc, BytesBuffer.writableBytes]
      simp only [hlength]
      omega

end CheckedBuffer

namespace BufferQueue

theorem intSized_step {s t : BufferQueue} {c : BufferCall}
    (hs : ∃ b, s.buffer = ofBuffer b ∧ b.IntSized) (hadmissible : s.Admissible c)
    (hstep : s.step c = some t) : ∃ b, t.buffer = ofBuffer b ∧ b.IntSized := by
  obtain ⟨b, hb, hint⟩ := hs
  rw [Admissible, hb] at hadmissible
  rw [step, hb, Option.map_eq_some_iff] at hstep
  obtain ⟨result, hcall, rfl⟩ := hstep
  exact BufferCall.call_intSized hint hadmissible hcall

theorem intSized_after {initialSize : Int} (hint : Fits initialSize) {calls : List BufferCall}
    (hadmissible : AdmissibleCalls initialSize calls) {s : BufferQueue}
    (hrun : after initialSize calls = some s) : ∃ b, s.buffer = ofBuffer b ∧ b.IntSized := by
  rw [after, Option.bind_eq_some_iff] at hrun
  obtain ⟨c, hc, hrun⟩ := hrun
  obtain ⟨size, rfl, hsize⟩ := size_of_ofSize hint hc
  obtain rfl := Option.some.inj ((ofSize_nat hsize).symm.trans hc)
  obtain ⟨b, hb, hbuffer, -⟩ := Holds.new hsize
  exact run_guarded (fun s e t => intSized_step) ⟨b, hb, hbuffer⟩ (hadmissible _ hc) hrun

/-- The buffer that the calls leave can be shrunk exactly if its content is at the front and the
new size is an `int`. -/
theorem shrinks_iff {initialSize : Int} (hint : Fits initialSize) {calls : List BufferCall}
    (hadmissible : AdmissibleCalls initialSize calls) {s : BufferQueue}
    (hrun : after initialSize calls = some s) {reserve : Int} (hreserve : 0 ≤ reserve) :
    s.buffer.Shrinks reserve ↔ s.buffer.readerIndex = 0 ∧
      s.buffer.writerIndex - s.buffer.readerIndex + reserve < 2 ^ 31 := by
  obtain ⟨b, hbuffer, hb⟩ := intSized_after hint hadmissible hrun
  obtain ⟨reserve, rfl⟩ := Int.eq_ofNat_of_zero_le hreserve
  have hreadable := BytesBuffer.readableBytes_eq hb.toWf
  rw [BytesBuffer.readableBytes] at hreadable
  rw [hbuffer, shrinks_ofBuffer_iff hb]
  simp only [ofBuffer]
  omega

theorem shrinks_appended : ∃ s, after 4 [.append [1, 2]] = some s ∧ s.buffer.Shrinks 4 := by
  have hrun : after 4 [.append [1, 2]] = some ⟨⟨[1, 2, 0, 0], 0, 2⟩, []⟩ := by decide +kernel
  refine ⟨_, hrun, (shrinks_iff ?_ ?_ hrun ?_).mpr ⟨rfl, ?_⟩⟩
  · decide
  · decide +kernel
  · decide
  · decide

/-- One byte was retrieved: the writer index is behind the end of the new vector. -/
theorem shrink_retrieved : ¬ ∀ (initialSize : Int) (calls : List BufferCall) (s : BufferQueue)
    (reserve : Int), Fits initialSize → 0 < initialSize → AdmissibleCalls initialSize calls →
    after initialSize calls = some s → 0 ≤ reserve → s.buffer.Shrinks reserve := by
  intro hall
  have hrun : after 4 [.append [1, 2], .retrieval (.retrieve 1)] =
      some ⟨⟨[1, 2, 0, 0], 1, 2⟩, [1]⟩ := by decide +kernel
  have hresult : CheckedBuffer.shrink ⟨[1, 2, 0, 0], 1, 2⟩ 0 = some ⟨[2], 1, 2⟩ := by
    decide +kernel
  obtain ⟨b', hshrink, hwf, -⟩ := hall _ _ _ 0 (by decide) (by decide) (by decide +kernel) hrun
    (by decide)
  obtain rfl := Option.some.inj (hresult.symm.trans hshrink)
  exact absurd hwf.writer_le (by decide)

end BufferQueue

end CloudEdgePush.Client
