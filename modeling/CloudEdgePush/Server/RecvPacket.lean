import CloudEdgePush.Server.SessionEnd

/-!
# What `recv_packet` makes of a stream

`reception` sorts the streams by their length and by the full length that they announce.  A
packet comes out of a whole frame only, but the length of its body is not compared with that of
the frame (`faithful_iff`); a stream that ends early is an error, except between the fourth and
the eighth byte (`cleanup_iff`).
-/

namespace CloudEdgePush.Server.MessagePacket

open CloudEdgePush.Lib CloudEdgePush.Lib.LittleEndian

/-! ## Words -/

theorem getByte4_of_le {data : List UInt8} {i : Nat} (h : i + 4 ≤ data.length) :
    getByte4 data (i + 1) = some (Lua.signed (wordAt data i)) := by
  have hlen : ((data.drop i).take 4).length = 4 := by
    rw [List.length_take, List.length_drop]
    omega
  obtain ⟨a, b, c, d, hword⟩ : ∃ a b c d, (data.drop i).take 4 = [a, b, c, d] := by
    match hbytes : (data.drop i).take 4, hlen with
    | [a, b, c, d], _ => exact ⟨a, b, c, d, rfl⟩
  have hget (k : Nat) (hk : k < 4) : data[i + k]? = [a, b, c, d][k]? := by
    rw [← hword, List.getElem?_take_of_lt hk, List.getElem?_drop]
  have ha : data[i]? = some a := hget 0 (by decide)
  have hb : data[i + 1]? = some b := hget 1 (by decide)
  have hc : data[i + 2]? = some c := hget 2 (by decide)
  have hd : data[i + 3]? = some d := hget 3 (by decide)
  rw [wordAt, hword, ← Lua.toInt_borBytes_eq]
  simp only [getByte4, Lua.byte_succ, Nat.add_right_comm i 1, ha, hb, hc, hd]
  rfl

/-! ## The fields of a stream -/

def fullLength (inbox : List UInt8) : Nat := wordAt inbox 4

def announced (inbox : List UInt8) : Nat := wordAt inbox 12

def payload (inbox : List UInt8) : List UInt8 := (inbox.drop 16).take (fullLength inbox - 16)

/-- The outcomes of `recv_packet`, each with the streams that lead to it. -/
inductive Reception (inbox : List UInt8) : RecvResult → Prop
  | noHeader (msg : String) (h : inbox.length < 4) : Reception inbox (.err msg)
  | noLength (h : 4 ≤ inbox.length) (hshort : inbox.length < 8) : Reception inbox .raised
  | refused (msg : String) (h : 8 ≤ inbox.length)
      (hlength : fullLength inbox ≤ 16 ∨ 64 * 1024 * 1024 < fullLength inbox) :
      Reception inbox (.err msg)
  | cut (msg : String) (h : 8 ≤ inbox.length) (hshort : inbox.length < fullLength inbox) :
      Reception inbox (.err msg)
  | frame (syncBytes : Int) (hmin : 16 < fullLength inbox)
      (hmax : fullLength inbox ≤ 64 * 1024 * 1024) (hwhole : fullLength inbox ≤ inbox.length) :
      Reception inbox
        (unpackRest syncBytes (fullLength inbox) ((inbox.drop 8).take (fullLength inbox - 8)))

theorem receive_of_le {inbox : List UInt8} {n : Nat} (h : n ≤ inbox.length) (err : String) :
    (Sock.mk inbox err).receive n = (some (inbox.take n), ⟨inbox.drop n, err⟩) := if_pos h

theorem receive_of_lt {inbox : List UInt8} {n : Nat} (h : inbox.length < n) (err : String) :
    (Sock.mk inbox err).receive n = (none, ⟨[], err⟩) := if_neg (Nat.not_le.mpr h)

theorem reception_recvRest (syncBytes : Int) {inbox : List UInt8} (h : 4 ≤ inbox.length)
    (err : String) : Reception inbox (recvRest syncBytes ⟨inbox.drop 4, err⟩).1 := by
  unfold recvRest
  by_cases hshort : inbox.length < 8
  · rw [receive_of_lt (by rw [List.length_drop]; omega)]
    exact .noLength h hshort
  · rw [receive_of_le (by rw [List.length_drop]; omega)]
    have hfull : getByte4 ((inbox.drop 4).take 4) 1 = some (Lua.signed (fullLength inbox)) := by
      rw [getByte4_of_le (i := 0) (by rw [List.length_take, List.length_drop]; omega),
        wordAt_take (by decide), wordAt_drop, fullLength]
    have hlt : fullLength inbox < 2 ^ 32 := by
      calc fullLength inbox < 256 ^ ((inbox.drop 4).take 4).length := ofLE_lt _
        _ ≤ 256 ^ 4 := Nat.pow_le_pow_right (by decide) (List.length_take_le _ _)
    dsimp only
    rw [hfull]
    dsimp only
    by_cases hmin : Lua.signed (fullLength inbox) ≤ TOTAL_HEAD_LEN
    · rw [if_pos hmin]
      refine .refused _ (by omega) ?_
      simp only [Lua.signed, TOTAL_HEAD_LEN] at hmin
      split at hmin
      · omega
      · omega
    · rw [if_neg hmin]
      have hsigned : Lua.signed (fullLength inbox) = fullLength inbox := by
        simp only [Lua.signed, TOTAL_HEAD_LEN] at hmin ⊢
        split
        · rfl
        · rw [if_neg (by assumption)] at hmin
          omega
      rw [hsigned] at hmin ⊢
      simp only [TOTAL_HEAD_LEN] at hmin
      by_cases hmax : (fullLength inbox : Int) > MAX_MESSAGE_SIZE
      · rw [if_pos hmax]
        simp only [MAX_MESSAGE_SIZE] at hmax
        exact .refused _ (by omega) (.inr (by omega))
      · rw [if_neg hmax]
        simp only [MAX_MESSAGE_SIZE] at hmax
        have hrest : ((fullLength inbox : Int) - 8).toNat = fullLength inbox - 8 := by omega
        rw [hrest, List.drop_drop]
        by_cases hcut : inbox.length < fullLength inbox
        · rw [receive_of_lt (by rw [List.length_drop]; omega)]
          exact .cut _ (by omega) hcut
        · rw [receive_of_le (by rw [List.length_drop]; omega)]
          exact .frame syncBytes (by omega) (by omega) (by omega)

theorem reception (inbox : List UInt8) (err : String) :
    Reception inbox (recvPacket ⟨inbox, err⟩).1 := by
  unfold recvPacket
  by_cases h : inbox.length < 4
  · rw [receive_of_lt h]
    exact .noHeader _ h
  · rw [receive_of_le (Nat.not_lt.mp h)]
    have hsync : getByte4 (inbox.take 4) 1 = some (Lua.signed (wordAt inbox 0)) := by
      rw [getByte4_of_le (i := 0) (by rw [List.length_take]; omega), wordAt_take (by decide)]
    dsimp only
    rw [hsync]
    exact reception_recvRest _ (Nat.not_lt.mp h) err

/-! ## Body and binary data -/

def unpackedBody (inbox : List UInt8) : List UInt8 :=
  Lua.sub ((inbox.drop 8).take (fullLength inbox - 8)) 9 (9 + Lua.signed (announced inbox) - 1)

def unpackedBinary (inbox : List UInt8) : Option (List UInt8) :=
  if (fullLength inbox : Int) - Lua.signed (announced inbox) - TOTAL_HEAD_LEN > 0 then
    some (Lua.sub ((inbox.drop 8).take (fullLength inbox - 8)) (9 + Lua.signed (announced inbox))
      (-1))
  else none

theorem unpackRest_eq (syncBytes : Int) {inbox : List UInt8} (hmin : 16 < fullLength inbox)
    (hwhole : fullLength inbox ≤ inbox.length) :
    unpackRest syncBytes (fullLength inbox) ((inbox.drop 8).take (fullLength inbox - 8)) =
      .packet syncBytes (Lua.signed (wordAt inbox 8)) (unpackedBody inbox)
        (unpackedBinary inbox) := by
  have hlen : ((inbox.drop 8).take (fullLength inbox - 8)).length = fullLength inbox - 8 := by
    rw [List.length_take, List.length_drop]
    omega
  have htyp : getByte4 ((inbox.drop 8).take (fullLength inbox - 8)) 1 =
      some (Lua.signed (wordAt inbox 8)) := by
    rw [getByte4_of_le (i := 0) (by omega), wordAt_take (by omega), wordAt_drop]
  have hbody : getByte4 ((inbox.drop 8).take (fullLength inbox - 8)) 5 =
      some (Lua.signed (announced inbox)) := by
    rw [getByte4_of_le (i := 4) (by omega), wordAt_take (by omega), wordAt_drop, announced]
  rw [unpackedBody, unpackedBinary]
  simp only [unpackRest, htyp, hbody]

/-- The body has the announced length, and with the binary data it is what follows the header;
the frame has room for it. -/
structure Faithful (inbox body : List UInt8) (binarydata : Option (List UInt8)) : Prop where
  fits : announced inbox + 16 ≤ fullLength inbox
  length : body.length = announced inbox
  payload : body ++ binarydata.getD [] = payload inbox

theorem faithful_of_fits {inbox : List UInt8} (hmax : fullLength inbox ≤ 64 * 1024 * 1024)
    (hwhole : fullLength inbox ≤ inbox.length) (hfits : announced inbox + 16 ≤ fullLength inbox) :
    Faithful inbox (unpackedBody inbox) (unpackedBinary inbox) := by
  have hsigned : Lua.signed (announced inbox) = announced inbox := if_pos (by omega)
  have hrest : ((inbox.drop 8).take (fullLength inbox - 8)).drop 8 = payload inbox := by
    rw [List.drop_take, List.drop_drop, payload, Nat.sub_sub]
  have hlen : (payload inbox).length = fullLength inbox - 16 := by
    rw [payload, List.length_take, List.length_drop]
    omega
  have hbody : Lua.sub ((inbox.drop 8).take (fullLength inbox - 8)) 9
      (9 + (announced inbox : Int) - 1) = (payload inbox).take (announced inbox) := by
    have hend : (9 : Int) + announced inbox - 1 = ((8 + announced inbox : Nat) : Int) := by omega
    rw [hend, show (9 : Int) = ((9 : Nat) : Int) from rfl, Lua.sub_of_pos _ (by decide),
      List.drop_take, Nat.add_sub_cancel_left, hrest]
  have hbinary : Lua.sub ((inbox.drop 8).take (fullLength inbox - 8))
      (9 + (announced inbox : Int)) (-1) = (payload inbox).drop (announced inbox) := by
    have hstart : (9 : Int) + announced inbox = ((9 + announced inbox : Nat) : Int) := by omega
    rw [hstart, Lua.sub_to_end _ (by omega), ← hrest, List.drop_drop]
    congr 1
    omega
  rw [unpackedBody, unpackedBinary, hsigned, hbody, hbinary]
  refine ⟨hfits, ?_, ?_⟩
  · rw [List.length_take, hlen]
    omega
  · by_cases hmore : (fullLength inbox : Int) - announced inbox - TOTAL_HEAD_LEN > 0
    · rw [if_pos hmore, Option.getD_some, List.take_append_drop]
    · simp only [TOTAL_HEAD_LEN] at hmore
      rw [if_neg (by simpa only [TOTAL_HEAD_LEN] using hmore), Option.getD_none, List.append_nil,
        List.take_of_length_le (by omega)]

/-- A packet that `recv_packet` returns is split as its frame says exactly if the frame has room
for the body. -/
theorem faithful_iff {sock : Sock} {syncBytes typ : Int} {body : List UInt8}
    {binarydata : Option (List UInt8)}
    (hpacket : (recvPacket sock).1 = .packet syncBytes typ body binarydata) :
    Faithful sock.inbox body binarydata ↔
      announced sock.inbox + 16 ≤ fullLength sock.inbox := by
  obtain ⟨inbox, err⟩ := sock
  refine ⟨Faithful.fits, fun hfits => ?_⟩
  have hreception := reception inbox err
  rw [hpacket] at hreception
  generalize hresult : RecvResult.packet syncBytes typ body binarydata = result at hreception
  cases hreception with
  | noHeader msg h => cases hresult
  | noLength h hshort => cases hresult
  | refused msg h hlength => cases hresult
  | cut msg h hshort => cases hresult
  | frame sync hmin hmax hwhole =>
      rw [unpackRest_eq sync hmin hwhole] at hresult
      obtain ⟨-, -, rfl, rfl⟩ := RecvResult.packet.inj hresult
      exact faithful_of_fits hmax hwhole hfits

/-- A frame of 20 bytes: sync bytes, full length, a login request, the length of its body and
four bytes `abcd`. -/
def frameOf (bodylen : List UInt8) : List UInt8 :=
  [1, 1, 1, 1] ++ [20, 0, 0, 0] ++ [0xd1, 7, 0, 0] ++ bodylen ++ [0x61, 0x62, 0x63, 0x64]

theorem faithful_frameOf_three :
    (recvPacket ⟨frameOf [3, 0, 0, 0], "closed"⟩).1 =
        .packet 0x01010101 2001 [0x61, 0x62, 0x63] (some [0x64]) ∧
      Faithful (frameOf [3, 0, 0, 0]) [0x61, 0x62, 0x63] (some [0x64]) := by
  have hpacket : (recvPacket ⟨frameOf [3, 0, 0, 0], "closed"⟩).1 =
      .packet 0x01010101 2001 [0x61, 0x62, 0x63] (some [0x64]) := by
    decide +kernel
  exact ⟨hpacket, (faithful_iff hpacket).mpr (by decide +kernel)⟩

/-- A body of ten bytes in a frame with room for four is returned, cut to four bytes; with a
length of `2^32 - 1` the binary data begins inside the header. -/
theorem returned_unfaithful :
    (recvPacket ⟨frameOf [10, 0, 0, 0], "closed"⟩).1 =
        .packet 0x01010101 2001 [0x61, 0x62, 0x63, 0x64] none ∧
      (recvPacket ⟨frameOf [255, 255, 255, 255], "closed"⟩).1 =
        .packet 0x01010101 2001 [] (some [255, 0x61, 0x62, 0x63, 0x64]) ∧
      ¬ ∀ sock syncBytes typ body binarydata,
        (recvPacket sock).1 = .packet syncBytes typ body binarydata →
          Faithful sock.inbox body binarydata := by
  have hcut : (recvPacket ⟨frameOf [10, 0, 0, 0], "closed"⟩).1 =
      .packet 0x01010101 2001 [0x61, 0x62, 0x63, 0x64] none := by
    decide +kernel
  refine ⟨hcut, by decide +kernel, ?_⟩
  intro h
  have hfits := (h _ _ _ _ _ hcut).fits
  exact absurd hfits (by decide +kernel)

/-! ## Streams that end early -/

def Truncated (received : List UInt8) : Prop :=
  received.length < 8 ∨ received.length < fullLength received

theorem received_err_iff {received : List UInt8} (htruncated : Truncated received) (err : String) :
    (∃ msg, (recvPacket ⟨received, err⟩).1 = .err msg) ↔
      ¬ (4 ≤ received.length ∧ received.length < 8) := by
  have hreception := reception received err
  generalize (recvPacket ⟨received, err⟩).1 = result at hreception ⊢
  cases hreception with
  | noHeader msg h => exact iff_of_true ⟨msg, rfl⟩ (by omega)
  | noLength h hshort => exact iff_of_false nofun (not_not_intro ⟨h, hshort⟩)
  | refused msg h hlength => exact iff_of_true ⟨msg, rfl⟩ (by omega)
  | cut msg h hshort => exact iff_of_true ⟨msg, rfl⟩ (by omega)
  | frame sync hmin hmax hwhole =>
      rcases htruncated with hshort | hshort
      · omega
      · omega

end CloudEdgePush.Server.MessagePacket

namespace CloudEdgePush.Server.Conn

open CloudEdgePush.Server.MessagePacket

def Exited (c : Conn) : Prop := c.main = .ended ∧ c.session.exit = true ∧ c.sendQueue = []

/-- `session_broken_clean` has removed what the server holds for the session, and
`_session_exit` follows: at once, or when the notify thread has ended. -/
structure CleanedUp (cjson : Cjson) (c : Conn) : Prop where
  clean : c.Clean
  notifyQueue : c.notifyQueue = []
  exit : c.Exited ∨ c.main = .waiting ∧ ∀ c', step cjson c .joined = some c' → c'.Exited

variable (cjson : Cjson)

theorem cleanedUp_err (c : Conn) (msg : String) (res : Resources) :
    (c.mainProc cjson (.err msg) res).CleanedUp cjson := by
  have hclean := clean_sessionBrokenClean c
  have hqueue : c.sessionBrokenClean.notifyQueue = [] := Function.update_self _ _ _
  unfold mainProc
  dsimp only
  split
  · refine ⟨hclean, hqueue, .inr ⟨rfl, ?_⟩⟩
    intro c' hjoined
    generalize hevent : Event.joined = e at hjoined
    cases turn_of_step cjson hjoined with
    | recv received res hreading => cases hevent
    | joined hwaiting hended => exact ⟨rfl, rfl, Function.update_self _ _ _⟩
    | timer timerOk htimers => cases hevent
    | notify thread hthread => cases hevent
    | send ok hsender => cases hevent
  · exact ⟨hclean, hqueue, .inl ⟨rfl, rfl, Function.update_self _ _ _⟩⟩

/-- `recv_packet` reports an error on what was received, and `_main_proc` cleans up. -/
def EndsInCleanup (received : List UInt8) (err : String) : Prop :=
  (∃ msg, (recvPacket ⟨received, err⟩).1 = .err msg) ∧
    ∀ c res, c.main = .reading →
      ∃ c', step cjson c (.recv (recvPacket ⟨received, err⟩).1 res) = some c' ∧
        c'.CleanedUp cjson

/-- Wherever the stream ends inside a frame, the session is cleaned up, unless it ends inside
the length field. -/
theorem cleanup_iff {received : List UInt8} (htruncated : Truncated received) (err : String) :
    EndsInCleanup cjson received err ↔ ¬ (4 ≤ received.length ∧ received.length < 8) := by
  rw [← received_err_iff htruncated err, EndsInCleanup, and_iff_left_iff_imp]
  rintro ⟨msg, hmsg⟩ c res hreading
  rw [hmsg]
  exact ⟨_, if_pos hreading, cleanedUp_err cjson c msg res⟩

theorem cleanup_of_three : EndsInCleanup sampleCjson [1, 1, 1] "closed" :=
  (cleanup_iff sampleCjson (.inl (by decide)) "closed").mpr (by decide)

/-- The peer closes the connection behind the sync bytes: `_get_byte4` raises on a `nil`. -/
theorem cleanup_missed : ¬ ∀ (cjson : Cjson) (received : List UInt8) (err : String),
    Truncated received → EndsInCleanup cjson received err := by
  intro h
  obtain ⟨⟨msg, hmsg⟩, -⟩ := h sampleCjson [1, 1, 1, 1] "closed" (.inl (by decide))
  have hraised : (recvPacket ⟨[1, 1, 1, 1], "closed"⟩).1 = .raised := by decide +kernel
  rw [hraised] at hmsg
  cases hmsg

end CloudEdgePush.Server.Conn
