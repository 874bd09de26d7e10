import CloudEdgePush.Client.SessionReading
import CloudEdgePush.Server.Outbox
import CloudEdgePush.Server.RecvPacket
import CloudEdgePush.Wire.ClientToServer
import CloudEdgePush.Wire.ServerToClient

/-!
# A connection and both of its ends

The client on its event loop and the server's session, with the bytes that one has handed to its
socket and the other has not received.  The network delivers them in any pieces.  Every event of
either end may come between any two of the other.

* `Uploads`  — what the server has received are the first of the messages that were written;
* `Delivers` — what the client has published are the first of the frames that were sent.
-/

namespace CloudEdgePush.Wire

open CloudEdgePush.Lib CloudEdgePush.Lib.LittleEndian CloudEdgePush.Lib.Transition
open CloudEdgePush.Client CloudEdgePush.Client.TcpClientImpl CloudEdgePush.Client.IoLoop
open CloudEdgePush.Server CloudEdgePush.Server.MessagePacket CloudEdgePush.Server.MessageDef

structure Dialogue (σ : Type) where
  client : IoLoop σ
  server : Pipeline
  /-- Taken by the server's socket and not arrived at the client. -/
  down : List UInt8
  /-- Handed to the client's socket and not received by the server. -/
  up : List UInt8
  /-- The packets that `recv_packet` returned. -/
  requests : List RecvResult

namespace Dialogue

variable {σ : Type}

inductive Event
  | client (e : IoLoop.Event)
  | publish (msg : List UInt8)
  /-- `recv_packet` finds the first `n` bytes that are on the way; `err` is the error of a receive
  that needs more. -/
  | recv (n : Nat) (err : String) (res : Resources)
  | joined
  | timer (timerOk : Bool)
  | notify (thread : Nat)
  /-- The sender's turn; a socket that fails has taken the first `taken` bytes. -/
  | send (ok : Bool) (taken : Nat)

def written (s s' : IoLoop σ) : List UInt8 :=
  ((s'.link.started.drop s.link.started.length).map Prod.snd).flatten

def packetOf : RecvResult → Option RecvResult
  | .packet syncBytes typ body binarydata => some (.packet syncBytes typ body binarydata)
  | _ => none

section

variable (bus : Bus σ) (cjson : Cjson)

def serverTurn (d : Dialogue σ) (e : Pipeline.Event) : Option (Dialogue σ) :=
  (Pipeline.step cjson d.server e).map fun server => { d with server := server }

def step (d : Dialogue σ) : Event → Option (Dialogue σ)
  | .client e =>
      if arrivedBy e <+: d.down then
        (IoLoop.step bus d.client e).map fun client =>
          { d with
            client := client
            down := d.down.drop (arrivedBy e).length
            up := d.up ++ written d.client client }
      else none
  | .publish msg => d.serverTurn cjson (.publish msg)
  | .recv n err res =>
      let received := recvPacket ⟨d.up.take n, err⟩
      (Pipeline.step cjson d.server (.turn (.recv received.1 res))).map fun server =>
        { d with
          server := server
          up := received.2.inbox ++ d.up.drop n
          requests := d.requests ++ (packetOf received.1).toList }
  | .joined => d.serverTurn cjson (.turn .joined)
  | .timer timerOk => d.serverTurn cjson (.turn (.timer timerOk))
  | .notify thread => d.serverTurn cjson (.turn (.notify thread))
  | .send ok taken =>
      (Pipeline.step cjson d.server (.turn (.send ok))).map fun server =>
        let data := (Pipeline.handedOver d.server.conn (.send ok)).getD []
        { d with
          server := server
          down := d.down ++ if ok then data else data.take taken }

end

def start (client : IoLoop σ) (sessionid : String) (shared : Shared) : Dialogue σ :=
  ⟨client, Pipeline.start (Conn.connect sessionid shared), [], [], []⟩

/-! ## From the client to the server -/

structure Sendable (msg : TcpMessage) : Prop where
  type_lt : msg.msgType.toNat < 2 ^ 31
  body_pos : 0 < msg.body.length
  body_le : msg.body.length ≤ 64 * 1024 * 1024 - 16

instance (msg : TcpMessage) : Decidable (Sendable msg) :=
  decidable_of_iff (msg.msgType.toNat < 2 ^ 31 ∧ 0 < msg.body.length ∧
      msg.body.length ≤ 64 * 1024 * 1024 - 16)
    ⟨fun h => ⟨h.1, h.2.1, h.2.2⟩, fun h => ⟨h.type_lt, h.body_pos, h.body_le⟩⟩

def receivedOf (msg : TcpMessage) : RecvResult :=
  .packet 0x01010101 msg.msgType.toNat msg.body none

theorem recvPacket_whole {msg : TcpMessage} (hmsg : Sendable msg) (rest : List UInt8) (err : String) :
    recvPacket ⟨frame msg ++ rest, err⟩ = (receivedOf msg, ⟨rest, err⟩) :=
  frame_readsBack err ⟨msg, hmsg.type_lt, hmsg.body_pos, hmsg.body_le⟩ rest

theorem fullLength_frame {msg : TcpMessage} (hmsg : Sendable msg) :
    fullLength (frame msg) = (frame msg).length := by
  have hle := hmsg.body_le
  rw [frame_eq (by omega), fullLength, wordAt]
  have hword : ((kProtoclHead ++ toLE 4 (msg.body.length + 16) ++ wordBytes msg.msgType ++
      toLE 4 msg.body.length ++ msg.body).drop 4).take 4 = toLE 4 (msg.body.length + 16) := by
    simp [kProtoclHead, List.append_assoc]
  rw [hword, ofLE_toLE_of_lt (by omega)]
  simp [kProtoclHead]
  omega

theorem packetOf_short {stream : List UInt8} {n : Nat} {msg : TcpMessage} (hmsg : Sendable msg)
    (hstream : stream = (frame msg).take n) (hshort : stream.length < (frame msg).length)
    (err : String) : packetOf (recvPacket ⟨stream, err⟩).1 = none := by
  have hreception := reception stream err
  generalize (recvPacket ⟨stream, err⟩).1 = result at hreception
  cases hreception with
  | noHeader msg h => rfl
  | noLength h hshort => rfl
  | refused msg h hlength => rfl
  | cut msg h hshort => rfl
  | frame syncBytes hmin hmax hwhole =>
      have hlength : fullLength stream = fullLength (frame msg) := by
        have hn : stream.length ≤ n := by
          rw [hstream]
          exact List.length_take_le _ _
        have height : 8 ≤ n := by omega
        rw [hstream, fullLength, fullLength, wordAt_take height]
      rw [hlength, fullLength_frame hmsg] at hwhole
      omega

/-- The server has received the first `n` of the frames started on the connection. -/
structure Uploads (k : Nat) (d : Dialogue σ) (n : Nat) : Prop where
  requests : d.requests = ((d.client.acceptedOn k).take n).map receivedOf
  received : n ≤ (d.client.startedOn k).length
  up : d.server.conn.main = .reading → d.up = ((d.client.startedOn k).drop n).flatten

namespace Uploads

variable {bus : Bus σ} {k n : Nat} {d d' : Dialogue σ}

theorem more (h : Uploads k d n) {accepted : List TcpMessage} {started : List Bytes}
    (haccepted : d'.client.acceptedOn k = d.client.acceptedOn k ++ accepted)
    (hstarted : d'.client.startedOn k = d.client.startedOn k ++ started)
    (hle : (d.client.startedOn k).length ≤ (d.client.acceptedOn k).length)
    (hrequests : d'.requests = d.requests) (hmain : d'.server.conn.main = d.server.conn.main)
    (hup : d'.up = d.up ++ started.flatten) : Uploads k d' n := by
  have hn := h.received
  refine ⟨?_, ?_, fun hreading => ?_⟩
  · rw [hrequests, h.requests, haccepted, List.take_append_of_le_length (by omega)]
  · rw [hstarted, List.length_append]
    omega
  · rw [hup, h.up (hmain.symm.trans hreading), hstarted, List.drop_append_of_le_length hn,
      List.flatten_append]

/-- No packet came out of what has arrived: the reader does not come back. -/
theorem noPacket {cjson : Cjson} {arrivedBytes : Nat} {err : String} {res : Resources}
    (h : Uploads k d n) (hnone : packetOf (recvPacket ⟨d.up.take arrivedBytes, err⟩).1 = none)
    (hstep : step bus cjson d (.recv arrivedBytes err res) = some d') : Uploads k d' n := by
  obtain ⟨server, hserver, rfl⟩ := Option.map_eq_some_iff.mp hstep
  obtain ⟨c', hturn, rfl⟩ := Option.map_eq_some_iff.mp hserver
  refine ⟨?_, h.received, fun hreading => ?_⟩
  · dsimp only
    rw [hnone, Option.toList_none, List.append_nil, h.requests]
  · cases Conn.turn_of_step cjson hturn with
    | recv received res hbefore =>
        obtain ⟨-, syncBytes, typ, body, binarydata, hpacket⟩ := Conn.main_mainProc cjson hreading
        rw [hpacket] at hnone
        cases hnone

/-- `recv_packet` returns: it has received one frame more, or the reader does not come back. -/
theorem recv {cjson : Cjson} {arrivedBytes : Nat} {err : String} {res : Resources} (h : Uploads k d n)
    (hstarts : d.client.startedOn k <+: (d.client.acceptedOn k).map writeBuffer)
    (hmsgs : ∀ msg ∈ d.client.acceptedOn k, fillHead msg = msg ∧ Sendable msg)
    (hreading : d.server.conn.main = .reading)
    (hstep : step bus cjson d (.recv arrivedBytes err res) = some d') :
    ∃ n', Uploads k d' n' := by
  have hup := h.up hreading
  have hstarted := List.prefix_iff_eq_take.mp hstarts
  have hle : (d.client.startedOn k).length ≤ (d.client.acceptedOn k).length := by
    simpa using hstarts.length_le
  rcases Nat.lt_or_ge n (d.client.startedOn k).length with hlt | hge
  · have hn : n < (d.client.acceptedOn k).length := by omega
    let msg := (d.client.acceptedOn k)[n]
    obtain ⟨hfilled, hmsg⟩ := hmsgs msg (List.getElem_mem hn)
    have hfront : (d.client.startedOn k)[n] = frame msg := by
      have hget := hstarts.getElem hlt
      rw [hget, List.getElem_map, frame, hfilled]
    let rest := ((d.client.startedOn k).drop (n + 1)).flatten
    have hup : d.up = frame msg ++ rest := by
      rw [hup, List.drop_eq_getElem_cons hlt, List.flatten_cons, hfront]
    by_cases hwhole : (frame msg).length ≤ arrivedBytes
    · have htake : d.up.take arrivedBytes =
          frame msg ++ rest.take (arrivedBytes - (frame msg).length) := by
        rw [hup, List.take_append, List.take_of_length_le hwhole]
      have hrecv := recvPacket_whole hmsg (rest.take (arrivedBytes - (frame msg).length)) err
      obtain ⟨server, hserver, rfl⟩ := Option.map_eq_some_iff.mp hstep
      obtain ⟨c', hturn, rfl⟩ := Option.map_eq_some_iff.mp hserver
      refine ⟨n + 1, ?_, hlt, fun _ => ?_⟩
      · dsimp only
        rw [htake, hrecv, h.requests, List.take_add_one, List.getElem?_eq_getElem hn, List.map_append]
        rfl
      · dsimp only
        rw [htake, hrecv, hup, List.drop_append, List.drop_of_length_le hwhole, List.nil_append,
          List.take_append_drop]
    · have htake : d.up.take arrivedBytes = (frame msg).take arrivedBytes := by
        rw [hup, List.take_append_of_le_length (by omega)]
      refine ⟨n, h.noPacket (packetOf_short hmsg htake ?_ err) hstep⟩
      rw [htake, List.length_take]
      omega
  · have hempty : d.up = [] := by rw [hup, List.drop_of_length_le hge, List.flatten_nil]
    exact ⟨n, h.noPacket (by rw [hempty, List.take_nil]; rfl) hstep⟩

end Uploads

/-! ## From the server to the client -/

/-- The frames `read` are published, the frames `rest` are on the way; `missing` is what the
server's socket did not take of the last one. -/
structure Delivers (before : List (UInt32 × Bytes)) (d : Dialogue σ) (read rest : List RawFrame)
    (missing : Bytes) : Prop where
  sent : d.server.sent = (read ++ rest).map RawFrame.bytes
  nonempty : ∀ f ∈ read ++ rest, f.body ≠ []
  phase : Reads d.client.state.client d.client.reading
    (d.client.state.client.io.inbox ++ (d.down ++ missing)) rest
  published : d.client.state.client.publishedBodies = before ++ read.map RawFrame.content
  whole : d.server.conn.sender = true → missing = []

theorem publishedOf_of_nonempty (last : Bytes) {fs : List RawFrame} (h : ∀ f ∈ fs, f.body ≠ []) :
    publishedOf last fs = fs.map RawFrame.content := by
  have hbodies : ∀ body ∈ fs.map RawFrame.body, body ≠ [] := by
    intro body hbody
    obtain ⟨f, hf, rfl⟩ := List.mem_map.mp hbody
    exact h f hf
  rw [publishedOf_eq_iff, List.pairwise_cons]
  refine ⟨fun body hbody hnil => absurd hnil (hbodies body hbody), ?_⟩
  exact List.pairwise_of_forall_mem_list fun _ _ body hbody hnil => absurd hnil (hbodies body hbody)

namespace Delivers

variable {bus : Bus σ} {cjson : Cjson} {before : List (UInt32 × Bytes)} {d d' : Dialogue σ}
  {read rest : List RawFrame} {missing : Bytes}

theorem client (h : Delivers before d read rest missing) {e : IoLoop.Event} {down : Bytes}
    {client : IoLoop σ} (hdown : d.down = arrivedBy e ++ down)
    (hconnecting : d.client.connecting = 0) (hlasts : Lasts client)
    (hstep : IoLoop.step bus d.client e = some client) (up : List UInt8) :
    ∃ read' rest', Delivers before { d with client := client, down := down, up := up } read' rest'
      missing := by
  have hphase := h.phase
  rw [hdown, List.append_assoc] at hphase
  obtain ⟨now, rest', hreads⟩ := readsOn_of_step hphase hconnecting hlasts hstep
  have hsplit : read ++ rest = read ++ now ++ rest' := by rw [hreads.split, List.append_assoc]
  refine ⟨read ++ now, rest', ?_, ?_, hreads.phase, ?_, h.whole⟩
  · rw [← hsplit]
    exact h.sent
  · rw [← hsplit]
    exact h.nonempty
  · have hnow : ∀ f ∈ now, f.body ≠ [] := fun f hf => h.nonempty f (by simp [hreads.split, hf])
    rw [hreads.published, publishedOf_of_nonempty _ hnow, h.published, List.map_append,
      List.append_assoc]

theorem server (h : Delivers before d read rest missing) (hclient : d'.client = d.client)
    (hdown : d'.down = d.down) (hsent : d'.server.sent = d.server.sent)
    (hsender : d'.server.conn.sender = true → d.server.conn.sender = true) :
    Delivers before d' read rest missing where
  sent := hsent.trans h.sent
  nonempty := h.nonempty
  phase := by
    rw [hclient, hdown]
    exact h.phase
  published := by
    rw [hclient]
    exact h.published
  whole hlive := h.whole (hsender hlive)

/-- A frame is handed to the socket, which takes it or its first bytes. -/
theorem send (h : Delivers before d read rest missing) {f : RawFrame} (hbody : f.body ≠ [])
    (ok : Bool) (taken : Nat) {server : Pipeline} (hsender : d.server.conn.sender = true)
    (hsent : server.sent = d.server.sent ++ [f.bytes])
    (hfailed : ok = false → server.conn.sender = false) :
    ∃ missing', Delivers before
      { d with server := server, down := d.down ++ if ok then f.bytes else f.bytes.take taken }
      read (rest ++ [f]) missing' := by
  have hmissing := h.whole hsender
  have hphase := h.phase.extend [f]
  rw [hmissing, List.append_nil, List.flatMap_singleton, List.append_assoc] at hphase
  have hall : read ++ (rest ++ [f]) = read ++ rest ++ [f] := (List.append_assoc _ _ _).symm
  have hsent' : server.sent = (read ++ (rest ++ [f])).map RawFrame.bytes := by
    rw [hsent, h.sent, hall, ← List.map_singleton, ← List.map_append]
  have hnonempty : ∀ g ∈ read ++ (rest ++ [f]), g.body ≠ [] := by
    rw [hall]
    intro g hg
    rcases List.mem_append.mp hg with hold | hnew
    · exact h.nonempty g hold
    · obtain rfl := List.mem_singleton.mp hnew
      exact hbody
  cases ok with
  | true =>
      refine ⟨[], hsent', hnonempty, ?_, h.published, fun _ => rfl⟩
      rw [List.append_nil]
      exact hphase
  | false =>
      refine ⟨f.bytes.drop taken, hsent', hnonempty, ?_, h.published, fun hlive => ?_⟩
      · dsimp only
        rw [if_neg (by decide), List.append_assoc, List.take_append_drop]
        exact hphase
      · rw [hfailed rfl] at hlive
        cases hlive

end Delivers

end Dialogue

end CloudEdgePush.Wire
