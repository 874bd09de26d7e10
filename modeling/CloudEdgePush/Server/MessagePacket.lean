import CloudEdgePush.Lib.Lua

/-!
# `message_packet.lua`

Packing and unpacking of the server's TCP messages.  A `.raised` result is a Lua error; the
numbers that `bor` returns are signed, and so are the fields of a packet.
-/

namespace CloudEdgePush.Server

open CloudEdgePush.Lib CloudEdgePush.Lib.LittleEndian

/-- A connected socket: the bytes the peer still sends, and what `receive` reports when they
do not suffice. -/
structure Sock where
  inbox : List UInt8
  err : String
deriving DecidableEq, Repr

/-- `sock:receive(n)`: exactly `n` bytes, or `nil` after the rest was received in part. -/
def Sock.receive (sock : Sock) (n : Nat) : Option (List UInt8) × Sock :=
  if n ≤ sock.inbox.length then (some (sock.inbox.take n), { sock with inbox := sock.inbox.drop n })
  else (none, { sock with inbox := [] })

inductive RecvResult
  | packet (syncBytes typ : Int) (body : List UInt8) (binarydata : Option (List UInt8))
  | err (msg : String)
  | raised
deriving DecidableEq, Repr

namespace MessagePacket

/-- `_get_byte4`; the bit operations raise on a `nil`. -/
def getByte4 (data : List UInt8) (i : Nat) : Option Int := do
  let a ← Lua.byte data i
  let b ← Lua.byte data (i + 1)
  let c ← Lua.byte data (i + 2)
  let d ← Lua.byte data (i + 3)
  return (Lua.borBytes a b c d).toInt

def setByte4 (n : Int) : List UInt8 :=
  [Lua.charOfShift n 0, Lua.charOfShift n 8, Lua.charOfShift n 16, Lua.charOfShift n 24]

def MAX_MESSAGE_SIZE : Int := 1024 * 1024 * 64
def TOTAL_HEAD_LEN : Int := 16

def packetMessage (syncBytes typ : Int) (body : List UInt8) : List UInt8 :=
  let bodylen : Int := body.length
  let message := setByte4 typ ++ setByte4 bodylen ++ body
  let fullLen := bodylen + TOTAL_HEAD_LEN
  setByte4 syncBytes ++ setByte4 fullLen ++ message

/-- The end of `recv_packet`, on the `full_len - 8` bytes behind the length field. -/
def unpackRest (syncBytes fullLen : Int) (data : List UInt8) : RecvResult :=
  match getByte4 data 1, getByte4 data 5 with
  | some typ, some bodylen =>
      let bodyEnd := 9 + bodylen
      let body := Lua.sub data 9 (bodyEnd - 1)
      let binarydata :=
        if fullLen - bodylen - TOTAL_HEAD_LEN > 0 then some (Lua.sub data bodyEnd (-1)) else none
      .packet syncBytes typ body binarydata
  | _, _ => .raised

/-- `recv_packet` from the length field on. -/
def recvRest (syncBytes : Int) (sock : Sock) : RecvResult × Sock :=
  match sock.receive 4 with
  | (none, sock) => (.raised, sock)
  | (some data, sock) =>
      match getByte4 data 1 with
      | none => (.raised, sock)
      | some fullLen =>
          if fullLen ≤ TOTAL_HEAD_LEN then (.err "invalid head len", sock)
          else if fullLen > MAX_MESSAGE_SIZE then
            (.err ("message size too big, len: " ++ toString fullLen), sock)
          else
            match sock.receive (fullLen - 8).toNat with
            | (none, sock) =>
                (.err ("failed to receive the rest message conent, err: " ++ sock.err), sock)
            | (some data, sock) => (unpackRest syncBytes fullLen data, sock)

def recvPacket (sock : Sock) : RecvResult × Sock :=
  match sock.receive 4 with
  | (none, sock) => (.err ("failed to receive packet header: " ++ sock.err), sock)
  | (some data, sock) =>
      match getByte4 data 1 with
      | none => (.raised, sock)
      | some syncBytes => recvRest syncBytes sock

/-! ## Fields -/

@[simp] theorem receive_append {n : Nat} {data : List UInt8} (hdata : data.length = n)
    (rest : List UInt8) (err : String) :
    (Sock.mk (data ++ rest) err).receive n = (some data, ⟨rest, err⟩) := by
  subst hdata
  simp [Sock.receive]

theorem getByte4_append (pre : List UInt8) {word : List UInt8} (hword : word.length = 4)
    (hlt : ofLE word < 2 ^ 31) (rest : List UInt8) :
    getByte4 (pre ++ word ++ rest) (pre.length + 1) = some (ofLE word : Int) := by
  obtain ⟨a, b, c, d, rfl⟩ : ∃ a b c d, word = [a, b, c, d] := by
    match word, hword with
    | [a, b, c, d], _ => exact ⟨a, b, c, d, rfl⟩
  simp only [getByte4, Lua.byte_succ, Nat.add_right_comm pre.length 1, List.append_assoc,
    List.getElem?_append_right (Nat.le_add_right _ _), List.getElem?_append_right (Nat.le_refl _),
    Nat.add_sub_cancel_left, Nat.sub_self]
  simp [Lua.toInt_borBytes hlt]

theorem setByte4_natCast {n : Nat} (hn : n < 2 ^ 32) : setByte4 n = toLE 4 n :=
  Lua.charOfShift_four hn

theorem packetMessage_eq (syncBytes typ : Nat) (body : List UInt8) (hsync : syncBytes < 2 ^ 32)
    (htyp : typ < 2 ^ 32) (hbody : body.length + 16 < 2 ^ 32) :
    packetMessage syncBytes typ body =
      toLE 4 syncBytes ++ toLE 4 (body.length + 16) ++ toLE 4 typ ++ toLE 4 body.length ++ body := by
  have hfull : (body.length : Int) + TOTAL_HEAD_LEN = ((body.length + 16 : Nat) : Int) := by
    simp [TOTAL_HEAD_LEN]
  simp only [packetMessage, hfull, setByte4_natCast hsync, setByte4_natCast htyp,
    setByte4_natCast hbody, setByte4_natCast (show body.length < 2 ^ 32 by omega),
    List.append_assoc]

/-! ## One frame -/

theorem ofLE_toLE_four {n : Nat} (hn : n < 2 ^ 31) : ofLE (toLE 4 n) = n :=
  ofLE_toLE_of_lt (by omega)

theorem unpackRest_frame (syncBytes : Int) {typ body binary : List UInt8} (htyp : typ.length = 4)
    (htypLt : ofLE typ < 2 ^ 31) (hbody : body.length < 2 ^ 31) :
    unpackRest syncBytes ((body.length + binary.length + 16 : Nat) : Int)
        (typ ++ toLE 4 body.length ++ (body ++ binary)) =
      .packet syncBytes (ofLE typ) body (if binary = [] then none else some binary) := by
  have htype : getByte4 (typ ++ toLE 4 body.length ++ (body ++ binary)) 1 =
      some (ofLE typ : Int) := by
    rw [List.append_assoc]
    exact getByte4_append [] htyp htypLt _
  have hlen : getByte4 (typ ++ toLE 4 body.length ++ (body ++ binary)) 5 =
      some (body.length : Int) := by
    have hword := getByte4_append typ (length_toLE 4 body.length)
      (by rwa [ofLE_toLE_four hbody]) (body ++ binary)
    rwa [htyp, ofLE_toLE_four hbody] at hword
  have hhead : (typ ++ toLE 4 body.length).length = 8 := by simp [htyp]
  have hsub : Lua.sub (typ ++ toLE 4 body.length ++ (body ++ binary)) 9 (9 + body.length - 1) =
      body := by
    have hend : (9 : Int) + body.length - 1 = ((8 + body.length : Nat) : Int) := by omega
    rw [hend, show (9 : Int) = ((9 : Nat) : Int) from rfl, Lua.sub_of_pos _ (by decide), ← hhead,
      List.take_length_add_append, List.take_left]
    exact List.drop_left' hhead
  have hrest : Lua.sub (typ ++ toLE 4 body.length ++ (body ++ binary)) (9 + body.length) (-1) =
      binary := by
    have hstart : (9 : Int) + body.length = ((9 + body.length : Nat) : Int) := by omega
    rw [hstart, Lua.sub_to_end _ (by omega), ← List.append_assoc]
    apply List.drop_left'
    rw [List.length_append, hhead]
    omega
  have hpositive : ((body.length + binary.length + 16 : Nat) : Int) - body.length -
      TOTAL_HEAD_LEN > 0 ↔ binary ≠ [] := by
    rw [← List.length_pos_iff]
    simp only [TOTAL_HEAD_LEN]
    omega
  simp only [unpackRest, htype, hlen, hsub, hrest, hpositive]
  by_cases hbinary : binary = []
  · simp [hbinary]
  · simp [hbinary]

/-- `recv_packet` on a frame in memory: four words, a body and binary data. -/
theorem recvPacket_frame (sync typ body binary : List UInt8) (hsync : sync.length = 4)
    (hsyncLt : ofLE sync < 2 ^ 31) (htyp : typ.length = 4) (htypLt : ofLE typ < 2 ^ 31)
    (hpos : 0 < body.length + binary.length)
    (hle : body.length + binary.length ≤ 64 * 1024 * 1024 - 16) (rest : List UInt8)
    (err : String) :
    recvPacket ⟨sync ++ toLE 4 (body.length + binary.length + 16) ++ typ ++ toLE 4 body.length ++
        (body ++ binary) ++ rest, err⟩ =
      (.packet (ofLE sync) (ofLE typ) body (if binary = [] then none else some binary),
        ⟨rest, err⟩) := by
  have hfullLt : body.length + binary.length + 16 < 2 ^ 31 := by omega
  have hword {word : List UInt8} (hlen : word.length = 4) (hlt : ofLE word < 2 ^ 31) :
      getByte4 word 1 = some (ofLE word : Int) := by
    simpa using getByte4_append [] hlen hlt []
  have hfull : getByte4 (toLE 4 (body.length + binary.length + 16)) 1 =
      some ((body.length + binary.length + 16 : Nat) : Int) := by
    rw [hword (length_toLE 4 _) (by rwa [ofLE_toLE_four hfullLt]), ofLE_toLE_four hfullLt]
  have hmin : ¬ ((body.length + binary.length + 16 : Nat) : Int) ≤ TOTAL_HEAD_LEN := by
    simp only [TOTAL_HEAD_LEN]
    omega
  have hmax : ¬ ((body.length + binary.length + 16 : Nat) : Int) > MAX_MESSAGE_SIZE := by
    simp only [MAX_MESSAGE_SIZE]
    omega
  have hrest : (typ ++ toLE 4 body.length ++ (body ++ binary)).length =
      (((body.length + binary.length + 16 : Nat) : Int) - 8).toNat := by
    simp only [List.length_append, length_toLE, htyp]
    omega
  have hreceive : (Sock.mk (typ ++ toLE 4 body.length ++ (body ++ binary) ++ rest) err).receive
      (((body.length + binary.length + 16 : Nat) : Int) - 8).toNat =
        (some (typ ++ toLE 4 body.length ++ (body ++ binary)), ⟨rest, err⟩) :=
    receive_append hrest rest err
  have hassoc : sync ++ toLE 4 (body.length + binary.length + 16) ++ typ ++ toLE 4 body.length ++
      (body ++ binary) ++ rest =
        sync ++ (toLE 4 (body.length + binary.length + 16) ++
          (typ ++ toLE 4 body.length ++ (body ++ binary) ++ rest)) := by
    simp only [List.append_assoc]
  rw [hassoc]
  simp only [recvPacket, receive_append hsync, hword hsync hsyncLt, recvRest,
    receive_append (length_toLE 4 _), hfull, if_neg hmin, if_neg hmax, hreceive,
    unpackRest_frame _ htyp htypLt (show body.length < 2 ^ 31 by omega)]

theorem recvPacket_empty (sync typ : List UInt8) (hsync : sync.length = 4)
    (hsyncLt : ofLE sync < 2 ^ 31) (rest : List UInt8) (err : String) :
    (recvPacket ⟨sync ++ toLE 4 16 ++ typ ++ rest, err⟩).1 = .err "invalid head len" := by
  have hword : getByte4 sync 1 = some (ofLE sync : Int) := by
    simpa using getByte4_append [] hsync hsyncLt []
  have hfull : getByte4 (toLE 4 16) 1 = some 16 := by decide
  have hassoc : sync ++ toLE 4 16 ++ typ ++ rest = sync ++ (toLE 4 16 ++ (typ ++ rest)) := by
    simp only [List.append_assoc]
  rw [hassoc]
  simp only [recvPacket, receive_append hsync, hword, recvRest, receive_append (length_toLE 4 _),
    hfull, TOTAL_HEAD_LEN, Int.le_refl, if_true]

end MessagePacket

end CloudEdgePush.Server
