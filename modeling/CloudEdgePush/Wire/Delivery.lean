import CloudEdgePush.Wire.Dialogue

/-!
# What gets through while a session lasts

One invariant of both ends (`Talks`) is kept by every event of either: the server's outbox, what
it has received and what the client has published.  So nothing is lost, doubled, changed or
overtaken in either direction as long as the client's session lasts, and what the client gets as a
reply answers a request of its own.
-/

namespace CloudEdgePush.Wire

open CloudEdgePush.Lib CloudEdgePush.Lib.Bytes CloudEdgePush.Lib.Fifo CloudEdgePush.Lib.LittleEndian
open CloudEdgePush.Lib.Transition
open CloudEdgePush.Client CloudEdgePush.Client.TcpClientImpl CloudEdgePush.Client.IoLoop
open CloudEdgePush.Server CloudEdgePush.Server.MessagePacket CloudEdgePush.Server.MessageDef

/-! ## Items and frames -/

structure Fits (body : List UInt8) : Prop where
  nonempty : body ≠ []
  length_le : body.length ≤ 64 * 1024 * 1024 - 16

instance (body : List UInt8) : Decidable (Fits body) :=
  decidable_of_iff (body ≠ [] ∧ body.length ≤ 64 * 1024 * 1024 - 16)
    ⟨fun h => ⟨h.1, h.2⟩, fun h => ⟨h.nonempty, h.length_le⟩⟩

def contentOf (item : Item) : UInt32 × List UInt8 := (UInt32.ofNat item.typ.toNat, item.body)

structure Receivable (item : Item) : Prop where
  syncBytes : item.syncBytes = 0x01010101
  typ_nonneg : 0 ≤ item.typ
  typ_lt : item.typ < 2 ^ 31
  fits : Fits item.body

theorem Receivable.exists_rawFrame {item : Item} (h : Receivable item) :
    ∃ f : RawFrame, f.bytes = item.frame ∧ f.body ≠ [] ∧ f.content = contentOf item := by
  have hnonneg := h.typ_nonneg
  have hlt := h.typ_lt
  let m : Notice := ⟨item.typ.toNat, item.body, by omega, h.fits.length_le⟩
  refine ⟨m.rawFrame, ?_, h.fits.nonempty, Prod.ext m.msgType_header rfl⟩
  rw [← m.packet_eq, Notice.packet, Item.frame_eq, h.syncBytes]
  congr
  exact Int.toNat_of_nonneg hnonneg

theorem content_of_bytes {f f' : RawFrame} (h : f.bytes = f'.bytes) : f.content = f'.content := by
  have hsplit := List.append_inj h (by rw [f.header_length, f'.header_length])
  rw [RawFrame.content, RawFrame.content, hsplit.1, hsplit.2]

theorem contents_of_frames {fs : List RawFrame} {items : List Item}
    (hitems : ∀ item ∈ items, Receivable item)
    (h : fs.map RawFrame.bytes = items.map Item.frame) :
    fs.map RawFrame.content = items.map contentOf := by
  induction fs generalizing items with
  | nil =>
      obtain rfl := List.map_eq_nil_iff.mp h.symm
      rfl
  | cons f fs ih =>
      cases items with
      | nil => cases h
      | cons item items =>
          obtain ⟨hitem, hrest⟩ := List.forall_mem_cons.mp hitems
          obtain ⟨hhead, htail⟩ := List.cons.inj h
          obtain ⟨f', hbytes, -, hcontent⟩ := hitem.exists_rawFrame
          rw [List.map_cons, List.map_cons, ih hrest htail,
            content_of_bytes (hhead.trans hbytes.symm), hcontent]

namespace Dialogue

variable {σ : Type} {bus : Bus σ} {cjson : Cjson} {k : Nat} {before : List (UInt32 × Bytes)}
  {d d' : Dialogue σ}

/-- The client's session lasts, and all that either end was given can be received by the other. -/
structure Usable (k : Nat) (d : Dialogue σ) : Prop where
  lasts : Lasts d.client
  accepted : ∀ msg ∈ d.client.acceptedOn k, Sendable msg
  published : ∀ msg ∈ d.server.published, Fits msg
  replies : ∀ reply ∈ d.server.replies, Fits reply.2.2

instance (k : Nat) (d : Dialogue σ) : Decidable (Usable k d) :=
  decidable_of_iff (Lasts d.client ∧ (∀ msg ∈ d.client.acceptedOn k, Sendable msg) ∧
      (∀ msg ∈ d.server.published, Fits msg) ∧ ∀ reply ∈ d.server.replies, Fits reply.2.2)
    ⟨fun h => ⟨h.1, h.2.1, h.2.2.1, h.2.2.2⟩, fun h => ⟨h.1, h.2, h.3, h.4⟩⟩

def answerTo : RecvResult → Option Int
  | .packet _ typ _ _ => Conn.answerOf typ
  | _ => none

def replyTypes (p : Pipeline) : List Int := p.replies.map fun reply => reply.2.1

structure Talks (k : Nat) (before : List (UInt32 × Bytes)) (d : Dialogue σ) : Prop where
  tidy : Tidy d.client
  connection : d.client.link.connection = k
  outbox : ∃ entered, Pipeline.Outbox (· = 0x01010101) d.server entered
  answers : (replyTypes d.server).Sublist (d.requests.filterMap answerTo)
  uploads : ∃ n, Uploads k d n
  delivers : ∃ read rest missing, Delivers before d read rest missing

theorem answerTo_bounds {r : RecvResult} {typ : Int} (h : answerTo r = some typ) :
    0 ≤ typ ∧ typ < 2 ^ 31 := by
  cases r with
  | packet syncBytes typ' body binarydata =>
      unfold answerTo Conn.answerOf at h
      dsimp only at h
      split at h
      · obtain rfl := Option.some.inj h
        decide
      · split at h
        · obtain rfl := Option.some.inj h
          decide
        · cases h
  | _ => cases h

theorem mem_replyTypes {p : Pipeline} {syncBytes typ : Int} {body : List UInt8}
    (h : (syncBytes, typ, body) ∈ p.replies) : typ ∈ replyTypes p :=
  List.mem_map.mpr ⟨_, h, rfl⟩

theorem Talks.receivable (h : Talks k before d) (husable : Usable k d) {entered : List Item}
    (hout : Pipeline.Outbox (· = 0x01010101) d.server entered) :
    ∀ item ∈ entered, Receivable item := by
  intro item hitem
  have hsync := hout.inSync item hitem
  cases item with
  | notification syncBytes message =>
      refine ⟨hsync, show 0 ≤ MessageDef.kUpdateFileNtf by decide,
        show MessageDef.kUpdateFileNtf < 2 ^ 31 by decide, husable.published message ?_⟩
      apply hout.notifications.subset
      exact List.mem_append_left _ (List.mem_filterMap.mpr ⟨_, hitem, rfl⟩)
  | reply syncBytes typ body =>
      have hreply : (syncBytes, typ, body) ∈ d.server.replies := by
        rw [hout.replies]
        exact List.mem_filterMap.mpr ⟨_, hitem, rfl⟩
      obtain ⟨request, -, hanswer⟩ :=
        List.mem_filterMap.mp (h.answers.subset (mem_replyTypes hreply))
      obtain ⟨hnonneg, hlt⟩ := answerTo_bounds hanswer
      exact ⟨hsync, hnonneg, hlt, husable.replies _ hreply⟩

/-! ## The events -/

theorem tagged_map (k : Nat) {α : Type} (xs : List α) : tagged k (xs.map (Prod.mk k)) = xs := by
  induction xs with
  | nil => rfl
  | cons x xs ih =>
      rw [List.map_cons, ← List.singleton_append, tagged_append, tagged_singleton, ih,
        List.singleton_append]

theorem length_started_le (h : Talks k before d) :
    (d.client.startedOn k).length ≤ (d.client.acceptedOn k).length := by
  simpa using (h.tidy.log.prefixes k).length_le

theorem Talks.client (h : Talks k before d) (husable : Usable k d) (husable' : Usable k d')
    {e : IoLoop.Event} (hstep : step bus cjson d (.client e) = some d') : Talks k before d' := by
  obtain ⟨⟨down, hdown⟩, hstep⟩ := Option.ite_none_right_eq_some.mp hstep
  obtain ⟨client, hclient, rfl⟩ := Option.map_eq_some_iff.mp hstep
  have hlasts : Lasts client := husable'.lasts
  have hconnecting := h.tidy.connecting husable.lasts
  obtain ⟨msgs, frames, hconnection, haccepted, hstarted⟩ :=
    writesOn_of_step hconnecting hlasts hclient
  rw [h.connection] at hconnection haccepted hstarted
  obtain ⟨n, huploads⟩ := h.uploads
  obtain ⟨read, rest, missing, hdelivers⟩ := h.delivers
  have hacceptedOn : client.acceptedOn k = d.client.acceptedOn k ++ msgs := by
    rw [acceptedOn, haccepted, tagged_append, tagged_map, acceptedOn]
  have hstartedOn : client.startedOn k = d.client.startedOn k ++ frames := by
    rw [startedOn, hstarted, tagged_append, tagged_map, startedOn]
  have hwritten : written d.client client = frames.flatten := by
    rw [written, hstarted, List.drop_left, List.map_map]
    congr
    exact List.map_id _
  refine ⟨h.tidy.lasts husable.lasts hlasts hclient, hconnection, h.outbox, h.answers,
    ⟨n, ?_⟩, ?_⟩
  · refine huploads.more hacceptedOn hstartedOn (length_started_le h) rfl rfl ?_
    rw [hwritten]
  · have hrest : d.down.drop (arrivedBy e).length = down := by rw [← hdown, List.drop_left]
    rw [hrest]
    obtain ⟨read', rest', hdelivers'⟩ := hdelivers.client hdown.symm hconnecting hlasts hclient _
    exact ⟨read', rest', missing, hdelivers'⟩

theorem Talks.turn (h : Talks k before d) {e : Pipeline.Event}
    (hstep : d.serverTurn cjson e = some d')
    (hsync : Pipeline.InSync (· = 0x01010101) e)
    (hreplies : d'.server.replies = d.server.replies) (hsent : d'.server.sent = d.server.sent)
    (hmain : d'.server.conn.main = .reading → d.server.conn.main = .reading)
    (hsender : d'.server.conn.sender = true → d.server.conn.sender = true) : Talks k before d' := by
  obtain ⟨server, hserver, rfl⟩ := Option.map_eq_some_iff.mp hstep
  obtain ⟨entered, hout⟩ := h.outbox
  obtain ⟨n, huploads⟩ := h.uploads
  obtain ⟨read, rest, missing, hdelivers⟩ := h.delivers
  refine ⟨h.tidy, h.connection, hout.step hsync hserver, ?_, ⟨n, ?_⟩, read, rest, missing, ?_⟩
  · rw [replyTypes, hreplies]
    exact h.answers
  · exact ⟨huploads.requests, huploads.received, fun hreading => huploads.up (hmain hreading)⟩
  · exact hdelivers.server rfl rfl hsent hsender

theorem of_mem_acceptedOn (h : Tidy d.client) (husable : Usable k d) {msg : TcpMessage}
    (hmsg : msg ∈ d.client.acceptedOn k) : fillHead msg = msg ∧ Sendable msg := by
  refine ⟨?_, husable.accepted msg hmsg⟩
  obtain ⟨entry, hentry, htag⟩ := List.mem_filterMap.mp hmsg
  obtain ⟨-, hsecond⟩ := Option.ite_none_right_eq_some.mp htag
  obtain rfl := Option.some.inj hsecond
  exact h.accepted entry hentry

theorem answers_recv (cjson : Cjson) (c : Conn) (received : RecvResult) (res : Resources) :
    ((Pipeline.replyOf cjson c (.recv received res)).toList.map fun reply => reply.2.1).Sublist
      ((packetOf received).toList.filterMap answerTo) := by
  cases received with
  | packet syncBytes typ body binarydata =>
      cases hreply : Pipeline.replyOf cjson c (.recv (.packet syncBytes typ body binarydata) res) with
      | none => exact List.nil_sublist _
      | some reply =>
          obtain ⟨syncBytes', typ', body'⟩ := reply
          have hanswer : answerTo (.packet syncBytes typ body binarydata) = some typ' :=
            (Pipeline.replyOf_eq_some hreply).2
          show List.Sublist [typ'] ([_].filterMap answerTo)
          rw [List.filterMap_cons, hanswer]
          exact .refl _
  | err error => exact List.nil_sublist _
  | raised => exact List.nil_sublist _

theorem Talks.recv (h : Talks k before d) (husable : Usable k d) {n : Nat} {err : String}
    {res : Resources} (hstep : step bus cjson d (.recv n err res) = some d') :
    Talks k before d' := by
  obtain ⟨entered, hout⟩ := h.outbox
  obtain ⟨count, huploads⟩ := h.uploads
  obtain ⟨read, rest, missing, hdelivers⟩ := h.delivers
  have hstep₀ := hstep
  obtain ⟨server, hserver, rfl⟩ := Option.map_eq_some_iff.mp hstep
  obtain ⟨c', hturn, rfl⟩ := Option.map_eq_some_iff.mp hserver
  have hreading : d.server.conn.main = .reading := by
    cases Conn.turn_of_step cjson hturn with
    | recv received res hreading => exact hreading
  have huploads' := huploads.recv (h.tidy.log.prefixes k)
    (fun msg hmsg => of_mem_acceptedOn h.tidy husable hmsg) hreading hstep₀
  have hreceived := answers_recv cjson d.server.conn (recvPacket ⟨d.up.take n, err⟩).1 res
  generalize recvPacket ⟨d.up.take n, err⟩ = received at *
  have hsync : Pipeline.InSync (· = 0x01010101) (.turn (.recv received.1 res)) := by
    obtain ⟨count', hrequests, -, -⟩ := huploads'
    cases hpacket : received.1 with
    | packet syncBytes typ body binarydata =>
        have hmem : RecvResult.packet syncBytes typ body binarydata ∈
            ((d.client.acceptedOn k).take count').map receivedOf := by
          rw [← hrequests, hpacket]
          exact List.mem_append_right _ (List.mem_singleton.mpr rfl)
        obtain ⟨msg, -, heq⟩ := List.mem_map.mp hmem
        exact (RecvResult.packet.inj heq).1.symm
    | _ => trivial
  refine ⟨h.tidy, h.connection, hout.step hsync hserver, ?_, huploads', read, rest, missing, ?_⟩
  · dsimp only [replyTypes]
    rw [List.map_append, List.filterMap_append]
    exact h.answers.append hreceived
  · refine hdelivers.server rfl rfl ?_ (Conn.sender_of_step cjson hturn)
    exact List.append_nil _

theorem sender_sendMessage {c : Conn} {data : List UInt8}
    (h : Pipeline.handedOver c (.send false) = some data) : (c.sendMessage false).sender = false := by
  obtain ⟨hexit, hhead⟩ := Option.ite_none_left_eq_some.mp h
  unfold Conn.sendMessage
  rw [if_neg hexit]
  split
  · rename_i hqueue
    rw [Conn.sendQueue, hqueue] at hhead
    cases hhead
  · rfl

structure Sends (p p' : Pipeline) (ok : Bool) : Prop where
  sender : p.conn.sender = true
  conn : p'.conn = p.conn.sendMessage ok
  replies : p'.replies = p.replies
  sent : p'.sent = p.sent ++ (Pipeline.handedOver p.conn (.send ok)).toList

theorem sends_of_step {p p' : Pipeline} {ok : Bool}
    (hstep : Pipeline.step cjson p (.turn (.send ok)) = some p') : Sends p p' ok := by
  obtain ⟨c', hturn, rfl⟩ := Option.map_eq_some_iff.mp hstep
  have hnone : Pipeline.replyOf cjson p.conn (.send ok) = none := rfl
  cases Conn.turn_of_step cjson hturn with
  | send ok hsender =>
      refine ⟨hsender, rfl, ?_, rfl⟩
      dsimp only
      rw [hnone, Option.toList_none, List.append_nil]

theorem Talks.send (h : Talks k before d) (husable : Usable k d) {ok : Bool} {taken : Nat}
    (hstep : step bus cjson d (.send ok taken) = some d') : Talks k before d' := by
  obtain ⟨server, hserver, rfl⟩ := Option.map_eq_some_iff.mp hstep
  have hsends := sends_of_step hserver
  obtain ⟨entered, hout⟩ := h.outbox
  obtain ⟨n, huploads⟩ := h.uploads
  obtain ⟨read, rest, missing, hdelivers⟩ := h.delivers
  have hsync : Pipeline.InSync (· = 0x01010101) (.turn (.send ok)) := trivial
  refine ⟨h.tidy, h.connection, hout.step hsync hserver, ?_, ⟨n, ?_⟩, ?_⟩
  · rw [replyTypes, hsends.replies]
    exact h.answers
  · refine ⟨huploads.requests, huploads.received, fun hreading => huploads.up ?_⟩
    rw [hsends.conn] at hreading
    exact (Conn.logged_sendMessage d.server.conn ok).main.symm.trans hreading
  · have hsent := hsends.sent
    cases hdata : Pipeline.handedOver d.server.conn (.send ok) with
    | none =>
        rw [hdata, Option.toList_none, List.append_nil] at hsent
        exact ⟨read, rest, missing, hdelivers.server rfl (by simp) hsent fun _ => hsends.sender⟩
    | some data =>
        obtain ⟨hexit, hhead⟩ := Option.ite_none_left_eq_some.mp hdata
        obtain ⟨later, hqueue⟩ := List.head?_eq_some_iff.mp hhead
        have hentered := hout.queued (by simpa using hexit)
        rw [hqueue] at hentered
        have hmem : data ∈ entered.map Item.frame := by
          rw [hentered]
          exact List.mem_append_right _ List.mem_cons_self
        obtain ⟨item, hitem, rfl⟩ := List.mem_map.mp hmem
        obtain ⟨f, hbytes, hbody, -⟩ := (h.receivable husable hout item hitem).exists_rawFrame
        rw [hdata, ← hbytes] at hsent
        obtain ⟨missing', hdelivers'⟩ := hdelivers.send hbody ok taken hsends.sender hsent
          fun hfailed => by
            rw [hfailed] at hdata hsends
            rw [hsends.conn]
            exact sender_sendMessage hdata
        rw [← hbytes]
        exact ⟨read, rest ++ [f], missing', hdelivers'⟩

theorem Talks.step (h : Talks k before d) (husable : Usable k d) (husable' : Usable k d') {e : Event}
    (hstep : Dialogue.step bus cjson d e = some d') : Talks k before d' := by
  have hquiet {e : Conn.Event} (hstep : d.serverTurn cjson (.turn e) = some d')
      (hsync : Pipeline.InSync (· = 0x01010101) (.turn e))
      (hreply : Pipeline.replyOf cjson d.server.conn e = none)
      (hnothing : Pipeline.handedOver d.server.conn e = none) : Talks k before d' := by
    have hstep₀ := hstep
    obtain ⟨server, hserver, rfl⟩ := Option.map_eq_some_iff.mp hstep
    obtain ⟨c', hturn, rfl⟩ := Option.map_eq_some_iff.mp hserver
    refine h.turn hstep₀ hsync ?_ ?_ (Conn.main_of_step cjson hturn) (Conn.sender_of_step cjson hturn)
    · simp [hreply]
    · simp [hnothing]
  cases e with
  | client e => exact h.client husable husable' hstep
  | publish msg =>
      have hturn : d.serverTurn cjson (.publish msg) = some d' := hstep
      obtain rfl := Option.some.inj hstep
      exact h.turn hturn trivial rfl rfl id id
  | recv n err res => exact h.recv husable hstep
  | joined => exact hquiet hstep trivial rfl rfl
  | timer timerOk => exact hquiet hstep trivial rfl rfl
  | notify thread => exact hquiet hstep trivial rfl rfl
  | send ok taken => exact h.send husable hstep

/-! ## What the invariant says -/

/-- What the client has published since its session began are the first of the items the server
sent. -/
theorem Talks.published (h : Talks k before d) (husable : Usable k d) :
    ∃ (sent : List Item) (n : Nat), d.server.sent = sent.map Item.frame ∧
      d.client.state.client.publishedBodies = before ++ (sent.take n).map contentOf ∧
      (sent.filterMap Item.message?).Sublist d.server.published ∧
      sent.filterMap Item.reply? <+: d.server.replies := by
  obtain ⟨entered, hout⟩ := h.outbox
  obtain ⟨read, rest, missing, hdelivers⟩ := h.delivers
  obtain ⟨sent, hsent, hframes⟩ := List.prefix_map_iff.mp hout.sent
  have hitems : ∀ item ∈ sent, Receivable item := fun item hitem =>
    h.receivable husable hout item (hsent.subset hitem)
  have hread : read.map RawFrame.content = (sent.take read.length).map contentOf := by
    refine contents_of_frames (fun item hitem => hitems item (List.mem_of_mem_take hitem)) ?_
    rw [List.map_take, ← hframes, hdelivers.sent, List.map_append]
    exact (List.take_left' (List.length_map _)).symm
  refine ⟨sent, read.length, hframes, ?_, ?_, ?_⟩
  · rw [← hread]
    exact hdelivers.published
  · have hmessages := (hsent.filterMap Item.message?).sublist
    exact hmessages.trans ((List.sublist_append_left _ _).trans hout.notifications)
  · rw [hout.replies]
    exact hsent.filterMap Item.reply?

def replyTo (typ : UInt32) : Option UInt32 :=
  if typ = Client.kLoginReq then some Client.kLoginRsp
  else if typ = Client.kHeartReq then some Client.kHeartRsp
  else none

theorem answerTo_receivedOf (msg : TcpMessage) :
    (answerTo (receivedOf msg)).map (fun typ => UInt32.ofNat typ.toNat) = replyTo msg.msgType := by
  have htyp (typ : UInt32) : (msg.msgType.toNat : Int) = (typ.toNat : Int) ↔ msg.msgType = typ := by
    rw [Int.natCast_inj, UInt32.toNat_inj]
  unfold answerTo receivedOf Conn.answerOf replyTo
  dsimp only
  rw [show MessageDef.kLoginReq = ((Client.kLoginReq.toNat : Nat) : Int) from rfl,
    show MessageDef.kHeartReq = ((Client.kHeartReq.toNat : Nat) : Int) from rfl]
  simp only [htyp]
  split
  · rfl
  · split
    · rfl
    · rfl

theorem types_of_replies (items : List Item) :
    ((items.map contentOf).map Prod.fst).filter (· ≠ Client.kUpdateFileNtf) |>.Sublist
      ((items.filterMap Item.reply?).map fun reply => UInt32.ofNat reply.2.1.toNat) := by
  induction items with
  | nil => exact .refl _
  | cons item items ih =>
      cases item with
      | notification syncBytes message => exact ih
      | reply syncBytes typ body =>
          rw [List.map_cons, List.map_cons, List.filter_cons]
          split
          · exact ih.cons_cons _
          · exact ih.cons _

/-- Each reply that the client has published answers a message that was accepted for writing. -/
theorem Talks.answered (h : Talks k before d) (husable : Usable k d) :
    ∃ published, d.client.state.client.publishedBodies = before ++ published ∧
      ((published.map Prod.fst).filter (· ≠ Client.kUpdateFileNtf)).Sublist
        ((d.client.acceptedOn k).filterMap fun msg => replyTo msg.msgType) := by
  obtain ⟨sent, n, -, hpublished, -, hreplies⟩ := h.published husable
  obtain ⟨count, hrequests, -, -⟩ := h.uploads
  let wire (typ : Int) : UInt32 := UInt32.ofNat typ.toNat
  refine ⟨_, hpublished, (types_of_replies (sent.take n)).trans ?_⟩
  have htake : ((sent.take n).filterMap Item.reply?).Sublist d.server.replies :=
    ((List.take_sublist n sent).filterMap Item.reply?).trans hreplies.sublist
  have hwire : ((sent.take n).filterMap Item.reply?).map (fun reply => wire reply.2.1) |>.Sublist
      ((replyTypes d.server).map wire) := by
    rw [replyTypes, List.map_map]
    exact htake.map _
  refine hwire.trans ((h.answers.map wire).trans ?_)
  have hanswers : (d.requests.filterMap answerTo).map wire =
      ((d.client.acceptedOn k).take count).filterMap fun msg => replyTo msg.msgType := by
    rw [hrequests, List.filterMap_map, List.map_filterMap]
    refine List.filterMap_congr fun msg _ => ?_
    exact answerTo_receivedOf msg
  rw [hanswers]
  exact (List.take_sublist count _).filterMap _

/-- Neither end has anything left to do: the queues are empty, nothing is on the way, and no read
of the client can be over. -/
structure Settled (d : Dialogue σ) : Prop where
  unbroken : d.server.conn.Unbroken
  sender : d.server.conn.sender = true
  exit : d.server.conn.session.exit = false
  notifyQueue : d.server.conn.notifyQueue = []
  sendQueue : d.server.conn.sendQueue = []
  down : d.down = []
  up : d.up = []
  ready : d.client.reading = []
  starved : ∀ op ∈ d.client.state.client.io.reads, d.client.state.client.io.inbox.length < op.length
  writeMsgs : d.client.link.writeMsgs = []

instance (d : Dialogue σ) : Decidable (Settled d) :=
  decidable_of_iff (d.server.conn.Unbroken ∧ d.server.conn.sender = true ∧
      d.server.conn.session.exit = false ∧ d.server.conn.notifyQueue = [] ∧
      d.server.conn.sendQueue = [] ∧ d.down = [] ∧ d.up = [] ∧ d.client.reading = [] ∧
      (∀ op ∈ d.client.state.client.io.reads,
        d.client.state.client.io.inbox.length < op.length) ∧ d.client.link.writeMsgs = [])
    ⟨fun ⟨h₁, h₂, h₃, h₄, h₅, h₆, h₇, h₈, h₉, h₁₀⟩ => ⟨h₁, h₂, h₃, h₄, h₅, h₆, h₇, h₈, h₉, h₁₀⟩,
      fun h => ⟨h.1, h.2, h.3, h.4, h.5, h.6, h.7, h.8, h.9, h.10⟩⟩

/-- A client that waits for more than has arrived has published all frames. -/
theorem rest_eq_nil {c : TcpClientImpl σ} {fs : List RawFrame} (h : Reads c [] c.io.inbox fs)
    (hstarved : ∀ op ∈ c.io.reads, c.io.inbox.length < op.length) : fs = [] := by
  generalize hstream : c.io.inbox = stream at h hstarved
  cases h with
  | header fs hc =>
      cases fs with
      | nil => rfl
      | cons f fs =>
          have hshort := hstarved ⟨c.io.connection, 0, 16, .handleReadHeader⟩ (by simp [hc.reads])
          rw [List.flatMap_cons, RawFrame.bytes, List.length_append, List.length_append,
            f.header_length] at hshort
          dsimp only at hshort
          omega
  | body f fs hc =>
      have hshort := hstarved ⟨c.io.connection, 16, f.body.length, .handleReadBody⟩
        (by simp [hc.reads])
      rw [List.length_append] at hshort
      dsimp only at hshort
      omega

theorem writeBuffer_ne_nil {msg : TcpMessage} (hmsg : fillHead msg = msg ∧ Sendable msg) :
    writeBuffer msg ≠ [] := by
  have hle := hmsg.2.body_le
  have hframe : frame msg = _ := frame_eq (by omega)
  rw [frame, hmsg.1] at hframe
  rw [hframe]
  simp [kProtoclHead]

theorem Talks.received_all (h : Talks k before d) (husable : Usable k d) (hsettled : Settled d) :
    d.requests = (d.client.acceptedOn k).map receivedOf := by
  obtain ⟨n, hrequests, hreceived, hup⟩ := h.uploads
  obtain ⟨-, popped, hconserves, hstarted⟩ := h.tidy.log.session husable.lasts.running
  rw [h.connection, hsettled.writeMsgs] at hconserves hstarted
  have hall : d.client.startedOn k = (d.client.acceptedOn k).map writeBuffer := by
    rw [hconserves, hstarted]
    rfl
  have hnothing : (d.client.startedOn k).drop n = [] := by
    have hflat := (hup hsettled.unbroken.reading).symm.trans hsettled.up
    rw [List.flatten_eq_nil_iff] at hflat
    rw [List.eq_nil_iff_forall_not_mem]
    intro frame hframe
    have hstarted := List.mem_of_mem_drop hframe
    rw [hall] at hstarted
    obtain ⟨msg, hmsg, rfl⟩ := List.mem_map.mp hstarted
    exact writeBuffer_ne_nil (of_mem_acceptedOn h.tidy husable hmsg) (hflat _ hframe)
  have hle := List.drop_eq_nil_iff.mp hnothing
  rw [hall, List.length_map] at hle
  rw [hrequests, List.take_of_length_le hle]

theorem Talks.published_all (h : Talks k before d) (husable : Usable k d) (hsettled : Settled d) :
    ∃ sent : List Item, d.server.sent = sent.map Item.frame ∧
      d.client.state.client.publishedBodies = before ++ sent.map contentOf ∧
      sent.filterMap Item.message? = d.server.published ∧
      sent.filterMap Item.reply? = d.server.replies := by
  obtain ⟨sent, hout⟩ := h.outbox
  obtain ⟨read, rest, missing, hdelivers⟩ := h.delivers
  have hphase := hdelivers.phase
  rw [hsettled.ready, hsettled.down, hdelivers.whole hsettled.sender, List.append_nil,
    List.append_nil] at hphase
  have hrest := rest_eq_nil hphase hsettled.starved
  have hframes := hout.queued hsettled.exit
  rw [hsettled.sendQueue, List.append_nil] at hframes
  have hkept := hout.kept hsettled.unbroken
  rw [hsettled.notifyQueue, List.append_nil] at hkept
  have hread : read.map RawFrame.content = sent.map contentOf := by
    refine contents_of_frames (h.receivable husable hout) ?_
    rw [hframes, hdelivers.sent, hrest, List.append_nil]
  refine ⟨sent, hframes.symm, ?_, hkept, hout.replies.symm⟩
  rw [← hread]
  exact hdelivers.published

/-! ## Runs -/

theorem reading_eq_nil {s : IoLoop σ} (h : ∀ r ∈ s.queue, r.isRead = false) : s.reading = [] :=
  List.filter_eq_nil_iff.mpr fun r hr => by simp [h r hr]

theorem talks_start {cfg : ClientConfig} {sub : σ} {earlier : List IoLoop.Event}
    {client : IoLoop σ} {sessionid : String} {shared : Shared}
    (hconnected : JustConnected bus cfg sub earlier client)
    (hinbox : client.state.client.io.inbox = []) (hmsg : shared.msgQueue sessionid = [])
    (hnotify : shared.notifyMsgQueue sessionid = []) :
    Talks client.link.connection client.state.client.publishedBodies
      (start client sessionid shared) := by
  obtain ⟨m, rest, htidy, hqueue, hopen, hconnect, htidy'⟩ := hconnected.tidy
  have hbegun := htidy.begun htidy' hqueue hopen hconnect
  refine ⟨htidy', rfl, ⟨[], Pipeline.outbox_connect _ hmsg hnotify⟩, .refl _, ⟨0, rfl, ?_, ?_⟩,
    [], [], [], rfl, nofun, ?_, ?_, fun _ => rfl⟩
  · exact Nat.zero_le _
  · intro _
    exact (congrArg (fun frames => (frames.drop 0).flatten) hbegun.started).symm
  · have hphase : Reads client.state.client client.reading client.state.client.io.inbox [] := by
      rw [reading_eq_nil hbegun.reading, hinbox]
      exact .header [] hbegun.header
    show Reads client.state.client client.reading (client.state.client.io.inbox ++ []) []
    rw [List.append_nil]
    exact hphase
  · exact (List.append_nil _).symm

section Runs

variable {cfg : ClientConfig} {sub : σ} {earlier : List IoLoop.Event} {client : IoLoop σ}
  {sessionid : String} {shared : Shared} {events : List Event}

theorem talks_of_run (hconnected : JustConnected bus cfg sub earlier client)
    (hinbox : client.state.client.io.inbox = []) (hmsg : shared.msgQueue sessionid = [])
    (hnotify : shared.notifyMsgQueue sessionid = [])
    (hrun : run (step bus cjson) (start client sessionid shared) events = some d)
    (husable : ∀ before m, before <+: events →
      run (step bus cjson) (start client sessionid shared) before = some m →
        Usable client.link.connection m) :
    Talks client.link.connection client.state.client.publishedBodies d := by
  have hkeep : ∀ d e d', Talks client.link.connection client.state.client.publishedBodies d →
      Usable client.link.connection d → Usable client.link.connection d' → True →
        step bus cjson d e = some d' →
          Talks client.link.connection client.state.client.publishedBodies d' :=
    fun d e d' h husable husable' _ hstep => h.step husable husable' hstep
  exact run_of_prefixes hkeep (talks_start hconnected hinbox hmsg hnotify) husable
    (allSteps_true _ _) hrun

/-- Everything the server sends after the client's session has begun is published by the client,
unchanged, once and in order, as far as it has come: the notifications are some of those that
were published for the session, the replies the first of those that `proc` returned.  The order
in which the two ends, the network, the publishers and the timers take their turns does not
matter. -/
theorem published_of_run (hconnected : JustConnected bus cfg sub earlier client)
    (hinbox : client.state.client.io.inbox = []) (hmsg : shared.msgQueue sessionid = [])
    (hnotify : shared.notifyMsgQueue sessionid = [])
    (hrun : run (step bus cjson) (start client sessionid shared) events = some d)
    (husable : ∀ before m, before <+: events →
      run (step bus cjson) (start client sessionid shared) before = some m →
        Usable client.link.connection m) :
    ∃ (sent : List Item) (n : Nat), d.server.sent = sent.map Item.frame ∧
      d.client.state.client.publishedBodies =
        client.state.client.publishedBodies ++ (sent.take n).map contentOf ∧
      (sent.filterMap Item.message?).Sublist d.server.published ∧
      sent.filterMap Item.reply? <+: d.server.replies :=
  (talks_of_run hconnected hinbox hmsg hnotify hrun husable).published
    (husable events d (List.prefix_refl _) hrun)

/-- Of the messages accepted for writing on the client's connection, the server has received the
first ones, unchanged, each once and in order. -/
theorem received_of_run (hconnected : JustConnected bus cfg sub earlier client)
    (hinbox : client.state.client.io.inbox = []) (hmsg : shared.msgQueue sessionid = [])
    (hnotify : shared.notifyMsgQueue sessionid = [])
    (hrun : run (step bus cjson) (start client sessionid shared) events = some d)
    (husable : ∀ before m, before <+: events →
      run (step bus cjson) (start client sessionid shared) before = some m →
        Usable client.link.connection m) :
    ∃ n, d.requests = ((d.client.acceptedOn client.link.connection).take n).map receivedOf := by
  obtain ⟨n, huploads⟩ := (talks_of_run hconnected hinbox hmsg hnotify hrun husable).uploads
  exact ⟨n, huploads.requests⟩

/-- The client never gets a reply that it did not ask for: what it has published in the session,
except for notifications, answers messages that it wrote in the session, in order. -/
theorem answered_of_run (hconnected : JustConnected bus cfg sub earlier client)
    (hinbox : client.state.client.io.inbox = []) (hmsg : shared.msgQueue sessionid = [])
    (hnotify : shared.notifyMsgQueue sessionid = [])
    (hrun : run (step bus cjson) (start client sessionid shared) events = some d)
    (husable : ∀ before m, before <+: events →
      run (step bus cjson) (start client sessionid shared) before = some m →
        Usable client.link.connection m) :
    ∃ published,
      d.client.state.client.publishedBodies = client.state.client.publishedBodies ++ published ∧
      ((published.map Prod.fst).filter (· ≠ Client.kUpdateFileNtf)).Sublist
        ((d.client.acceptedOn client.link.connection).filterMap fun msg => replyTo msg.msgType) :=
  (talks_of_run hconnected hinbox hmsg hnotify hrun husable).answered
    (husable events d (List.prefix_refl _) hrun)

/-- Nothing is lost: once neither end has anything left to do, the client has published every
notification and every reply of the session, and the server has received every message. -/
theorem settled_of_run (hconnected : JustConnected bus cfg sub earlier client)
    (hinbox : client.state.client.io.inbox = []) (hmsg : shared.msgQueue sessionid = [])
    (hnotify : shared.notifyMsgQueue sessionid = [])
    (hrun : run (step bus cjson) (start client sessionid shared) events = some d)
    (husable : ∀ before m, before <+: events →
      run (step bus cjson) (start client sessionid shared) before = some m →
        Usable client.link.connection m) (hsettled : Settled d) :
    (∃ sent : List Item,
      d.client.state.client.publishedBodies =
        client.state.client.publishedBodies ++ sent.map contentOf ∧
      sent.filterMap Item.message? = d.server.published ∧
      sent.filterMap Item.reply? = d.server.replies) ∧
      d.requests = (d.client.acceptedOn client.link.connection).map receivedOf := by
  have htalks := talks_of_run hconnected hinbox hmsg hnotify hrun husable
  have hlast := husable events d (List.prefix_refl _) hrun
  obtain ⟨sent, -, hpublished, hmessages, hreplies⟩ := htalks.published_all hlast hsettled
  exact ⟨⟨sent, hpublished, hmessages, hreplies⟩, htalks.received_all hlast hsettled⟩

end Runs

/-! ## A login and a notification -/

def sampleLogin : TcpMessage := { msgType := Client.kLoginReq, body := Conn.loginBody "\"a\"" }

def sampleNtf : List UInt8 := packetMessage 0x01010101 MessageDef.kUpdateFileNtf [0x31]

/-- The client logs in, and one notification is published for it; the reply arrives in two
pieces. -/
def loginAndNotify : List Event :=
  [.client (.env (.write sampleLogin)), .client .run, .recv 1000 "timeout" ⟨true, []⟩, .publish [0x31],
    .client (.env (.writeDone 0 false)), .notify 0, .send true 0, .client .run,
    .client (.env (.arrive (Conn.sampleAck.take 20))), .client (.env (.readDone 0 false)),
    .send true 0, .client .run, .client (.env (.arrive (Conn.sampleAck.drop 20 ++ sampleNtf))),
    .client (.env (.readDone 0 false)), .client .run, .client (.env (.readDone 0 false)),
    .client .run, .client (.env (.readDone 0 false)), .client .run]

theorem run_loginAndNotify :
    ∃ client d, JustConnected idleBus sampleConfig () connectedAgain client ∧
      client.state.client.io.inbox = [] ∧
      run (step idleBus Conn.sampleCjson) (start client "client_127_0_0_1_9000" Conn.sampleShared)
        loginAndNotify = some d ∧ Settled d ∧
      ∀ before m, before <+: loginAndNotify →
        run (step idleBus Conn.sampleCjson) (start client "client_127_0_0_1_9000" Conn.sampleShared)
          before = some m → Usable client.link.connection m := by
  obtain ⟨client, hconnected, hclient⟩ := justConnected_again
  have hsteps : ∀ client ∈ run (IoLoop.step idleBus) (IoLoop.start sampleConfig ())
        (connectedAgain ++ [EventLoop.Event.run]),
      client.state.client.io.inbox = [] ∧
      (∃ d ∈ run (step idleBus Conn.sampleCjson)
        (start client "client_127_0_0_1_9000" Conn.sampleShared) loginAndNotify, Settled d) ∧
      ∀ before ∈ loginAndNotify.inits, ∀ m ∈ run (step idleBus Conn.sampleCjson)
        (start client "client_127_0_0_1_9000" Conn.sampleShared) before,
          Usable client.link.connection m := by
    decide +kernel
  obtain ⟨hinbox, ⟨d, hrun, hsettled⟩, husable⟩ := hsteps client hclient
  refine ⟨client, d, hconnected, hinbox, hrun, hsettled, fun before m hbefore hm => ?_⟩
  exact husable before ((List.mem_inits _ _).mpr hbefore) m hm

theorem published_of_run_login :
    ∃ client d, run (step idleBus Conn.sampleCjson)
        (start client "client_127_0_0_1_9000" Conn.sampleShared) loginAndNotify = some d ∧
      ∃ (sent : List Item) (n : Nat), d.server.sent = sent.map Item.frame ∧
        d.client.state.client.publishedBodies =
          client.state.client.publishedBodies ++ (sent.take n).map contentOf ∧
        (sent.filterMap Item.message?).Sublist d.server.published ∧
        sent.filterMap Item.reply? <+: d.server.replies := by
  obtain ⟨client, d, hconnected, hinbox, hrun, -, husable⟩ := run_loginAndNotify
  exact ⟨client, d, hrun, published_of_run hconnected hinbox rfl rfl hrun husable⟩

theorem received_of_run_login :
    ∃ client d, run (step idleBus Conn.sampleCjson)
        (start client "client_127_0_0_1_9000" Conn.sampleShared) loginAndNotify = some d ∧
      ∃ n, d.requests = ((d.client.acceptedOn client.link.connection).take n).map receivedOf := by
  obtain ⟨client, d, hconnected, hinbox, hrun, -, husable⟩ := run_loginAndNotify
  exact ⟨client, d, hrun, received_of_run hconnected hinbox rfl rfl hrun husable⟩

theorem answered_of_run_login :
    ∃ client d, run (step idleBus Conn.sampleCjson)
        (start client "client_127_0_0_1_9000" Conn.sampleShared) loginAndNotify = some d ∧
      ∃ published,
        d.client.state.client.publishedBodies =
          client.state.client.publishedBodies ++ published ∧
        ((published.map Prod.fst).filter (· ≠ Client.kUpdateFileNtf)).Sublist
          ((d.client.acceptedOn client.link.connection).filterMap fun msg => replyTo msg.msgType) := by
  obtain ⟨client, d, hconnected, hinbox, hrun, -, husable⟩ := run_loginAndNotify
  exact ⟨client, d, hrun, answered_of_run hconnected hinbox rfl rfl hrun husable⟩

theorem settled_of_run_login :
    ∃ client d, run (step idleBus Conn.sampleCjson)
        (start client "client_127_0_0_1_9000" Conn.sampleShared) loginAndNotify = some d ∧
      (∃ sent : List Item,
        d.client.state.client.publishedBodies =
          client.state.client.publishedBodies ++ sent.map contentOf ∧
        sent.filterMap Item.message? = d.server.published ∧
        sent.filterMap Item.reply? = d.server.replies) ∧
      d.requests = (d.client.acceptedOn client.link.connection).map receivedOf := by
  obtain ⟨client, d, hconnected, hinbox, hrun, hsettled, husable⟩ := run_loginAndNotify
  exact ⟨client, d, hrun, settled_of_run hconnected hinbox rfl rfl hrun husable hsettled⟩

end Dialogue

end CloudEdgePush.Wire
