import CloudEdgePush.Client.Published
import CloudEdgePush.Client.Updates
import CloudEdgePush.Wire.Delivery

/-!
# Pushed files

The subscriber of the client is now its `MessageHandler`.  What gets through is handled in the order
in which it was published for the session, so both ends and everything between them come to the
same files as one `SysUpdateHandler` that is told the notifications directly.
-/

namespace CloudEdgePush.Wire

open CloudEdgePush.Lib.Transition
open CloudEdgePush.Client CloudEdgePush.Client.TcpClientImpl CloudEdgePush.Client.IoLoop
open CloudEdgePush.Client.SysUpdateHandler CloudEdgePush.Client.MessageHandler
open CloudEdgePush.Server CloudEdgePush.Server.MessagePacket CloudEdgePush.Server.MessageDef

namespace Dialogue

/-! ## What the subscriber hears of a run -/

theorem hears_of_run {σ : Type} {bus : Bus σ} {cjson : Cjson} {d₀ d : Dialogue σ}
    {events : List Event} (hrun : run (step bus cjson) d₀ events = some d) :
    Hears bus d₀.client.state.client d.client.state.client := by
  have hkeep : ∀ d e d', Hears bus d₀.client.state.client d.client.state.client →
      step bus cjson d e = some d' →
        Hears bus d₀.client.state.client d'.client.state.client := by
    intro d e d' h hstep
    cases e with
    | client e =>
        obtain ⟨-, hstep⟩ := Option.ite_none_right_eq_some.mp hstep
        obtain ⟨client, hclient, rfl⟩ := Option.map_eq_some_iff.mp hstep
        exact h.trans (hears_of_step hclient)
    | publish msg =>
        obtain rfl := Option.some.inj hstep
        exact h
    | _ =>
        obtain ⟨server, -, rfl⟩ := Option.map_eq_some_iff.mp hstep
        exact h
  exact run_invariant hkeep (.quiet rfl rfl) hrun

theorem ntf_ne_of_answer {r : RecvResult} {typ : Int} (h : answerTo r = some typ) :
    Client.kUpdateFileNtf ≠ UInt32.ofNat typ.toNat := by
  cases r with
  | packet syncBytes typ' body binarydata =>
      unfold answerTo Conn.answerOf at h
      dsimp only at h
      split at h
      · obtain rfl := Option.some.inj h
        decide
      · split at h
        · obtain rfl := Option.some.inj h
          decide
        · cases h
  | _ => cases h

section

variable {σ : Type} {k : Nat} {before : List (UInt32 × Bytes)} {d : Dialogue σ} {p : Platform}

theorem Talks.notifications (h : Talks k before d) (sent : List Item)
    (hreplies : ∀ reply ∈ sent.filterMap Item.reply?, reply ∈ d.server.replies) :
    (sent.map contentOf).filterMap (notification p) =
      (sent.filterMap Item.message?).filterMap (decodeDownloadFileInfo p) := by
  rw [List.filterMap_map, List.filterMap_filterMap]
  refine List.filterMap_congr fun item hitem => ?_
  cases item with
  | notification syncBytes message => rfl
  | reply syncBytes typ body =>
      have hreply := hreplies (syncBytes, typ, body) (List.mem_filterMap.mpr ⟨_, hitem, rfl⟩)
      obtain ⟨request, -, hanswer⟩ :=
        List.mem_filterMap.mp (h.answers.subset (mem_replyTypes hreply))
      exact if_neg (ntf_ne_of_answer hanswer)

end

/-! ## Runs -/

def announced (p : Platform) (d : Dialogue MessageHandler) : List FileInfo :=
  d.server.published.filterMap (decodeDownloadFileInfo p)

abbrev handler (d : Dialogue MessageHandler) : MessageHandler := d.client.state.client.sub

variable {p : Platform} {transfers : Nat → Transfer} {cjson : Cjson} {cfg : ClientConfig}
  {sub : MessageHandler} {earlier : List IoLoop.Event} {client : IoLoop MessageHandler}
  {sessionid : String} {shared : Shared} {events : List Event} {d : Dialogue MessageHandler}

theorem handles_of_run (hconnected : JustConnected (bus p transfers) cfg sub earlier client)
    (hinbox : client.state.client.io.inbox = []) (hmsg : shared.msgQueue sessionid = [])
    (hnotify : shared.notifyMsgQueue sessionid = [])
    (hrun : run (step (bus p transfers) cjson) (start client sessionid shared) events = some d)
    (husable : ∀ before m, before <+: events →
      run (step (bus p transfers) cjson) (start client sessionid shared) before = some m →
        Usable client.link.connection m) :
    ∃ ts, ts.Sublist (announced p d) ∧ (Settled d → ts = announced p d) ∧
      Handles p transfers client.state.client.sub d.handler ts := by
  have htalks := talks_of_run hconnected hinbox hmsg hnotify hrun husable
  have hlast := husable events d (List.prefix_refl _) hrun
  obtain ⟨contents, hcontents, hhandles⟩ := handles_of_hears (hears_of_run hrun)
  obtain ⟨sent, n, -, hpublished, hmessages, hreplies⟩ := htalks.published hlast
  obtain rfl : contents = (sent.take n).map contentOf :=
    List.append_cancel_left (hcontents.symm.trans hpublished)
  have htake := List.take_sublist n sent
  rw [htalks.notifications _ fun reply hreply =>
    hreplies.subset ((htake.filterMap Item.reply?).subset hreply)] at hhandles
  refine ⟨_, ((htake.filterMap Item.message?).trans hmessages).filterMap _, fun hsettled => ?_,
    hhandles⟩
  obtain ⟨all, -, hpublished', hmessages', hreplies'⟩ := htalks.published_all hlast hsettled
  have hsame := List.append_cancel_left (hpublished.symm.trans hpublished')
  have hsome := htalks.notifications (p := p) (sent.take n) fun reply hreply =>
    hreplies.subset ((htake.filterMap Item.reply?).subset hreply)
  have hall := htalks.notifications (p := p) all fun reply hreply => hreplies' ▸ hreply
  rw [announced, ← hmessages', ← hall, ← hsame, hsome]

/-- The records, the files and the counter of a client whose process lives are those of one
`SysUpdateHandler` to which some of the notifications of the session were given directly, in their
order, each with its transfer; once neither end has anything left to do, all of them. -/
theorem handled_of_run (hconnected : JustConnected (bus p transfers) cfg sub earlier client)
    (hinbox : client.state.client.io.inbox = []) (hmsg : shared.msgQueue sessionid = [])
    (hnotify : shared.notifyMsgQueue sessionid = [])
    (hrun : run (step (bus p transfers) cjson) (start client sessionid shared) events = some d)
    (husable : ∀ before m, before <+: events →
      run (step (bus p transfers) cjson) (start client sessionid shared) before = some m →
        Usable client.link.connection m) (halive : d.handler.terminated = false) :
    ∃ ts, ts.Sublist (announced p d) ∧ (Settled d → ts = announced p d) ∧
      run (notify p) client.state.client.sub.sysUpdateHandler
        (pushes transfers client.state.client.sub.notified ts) =
          some d.handler.sysUpdateHandler := by
  obtain ⟨ts, hsublist, hall, hhandles⟩ :=
    handles_of_run hconnected hinbox hmsg hnotify hrun husable
  exact ⟨ts, hsublist, hall, hhandles.handled halive⟩

def requestTree (msgType : String) (data : Ptree) : Ptree :=
  ((Ptree.empty.put "msg_type" msgType).put "timestamp" "0").putChild "data" data

def ipTree : Ptree := Ptree.empty.put "ip" "127.0.0.1"

def requestTrees : List Ptree :=
  [requestTree "heart_req" ipTree, requestTree "login_req" (ipTree.put "type" "edge"),
    requestTree "file_infos_ntf" (ipTree.put "file_infos" ""),
    requestTree "file_infos_ntf"
      (ipTree.put "file_infos" (stringOf (fileInfosTree [newerRecord]).jsonBytes))]

/-- A tree as `cjson` decodes its text; its members are strings or have such members. -/
def jsonOf (tree : Ptree) : Json :=
  .obj (tree.children.map fun member => (member.1,
    if member.2.children.isEmpty then .str member.2.data
    else .obj (member.2.children.map fun field => (field.1, .str field.2.data))))

def replyText (msgType : String) : List UInt8 :=
  sampleText ("\x7b\"msg_type\":\"" ++ msgType ++
    "\",\"data\":\x7b\"code\":1000\x7d,\"timestamp\":\"0\"\x7d")

def sessionCjson : Cjson where
  decode body := (requestTrees.find? fun tree => tree.jsonBytes = body).map jsonOf
  encode reply :=
    match Json.index (some reply) "msg_type" with
    | some (some (.str msgType)) => some (replyText msgType)
    | _ => none

def newClient : MessageHandler := MessageHandler.start TcpClientImpl.sampleConfig emptyHandler []

def wholeFiles : Nat → Transfer := fun _ => ⟨true, 1, [0x62]⟩

def oneFrameRead : List Event :=
  [.client (.env (.readDone 0 false)), .client .run, .client (.env (.readDone 0 false)),
    .client .run]

def oneWrite : List Event := [.client .run, .client (.env (.writeDone 0 false)), .client .run]

/-- The client logs in, and a file is pushed to it; it reports its records after both. -/
def loginAndPush : List Event :=
  oneWrite ++ [.recv 1000 "timeout" ⟨true, []⟩, .send true 0, .client (.env (.arrive
      (packetMessage 0x01010101 MessageDef.kHeartRsp (replyText "heart_rsp"))))] ++ oneFrameRead ++
    oneWrite ++ [.recv 1000 "timeout" ⟨true, []⟩, .publish newerNtf.jsonBytes, .notify 0, .send true 0,
      .send true 0, .client (.env (.arrive
        (packetMessage 0x01010101 MessageDef.kLoginRsp (replyText "login_rsp") ++
          packetMessage 0x01010101 MessageDef.kUpdateFileNtf newerNtf.jsonBytes)))] ++
    oneFrameRead ++ oneWrite ++ oneFrameRead ++ oneWrite ++
    [.recv 1000 "timeout" ⟨true, []⟩, .recv 1000 "timeout" ⟨true, []⟩]

theorem justConnected_new :
    ∃ client, JustConnected (bus recordsPlatform wholeFiles) TcpClientImpl.sampleConfig newClient
        [.env (.connectDone false)] client ∧
      run (IoLoop.step (bus recordsPlatform wholeFiles))
        (IoLoop.start TcpClientImpl.sampleConfig newClient) [.env (.connectDone false), .run] =
          some client := by
  have hsteps : (∃ m ∈ run (IoLoop.step (bus recordsPlatform wholeFiles))
        (IoLoop.start TcpClientImpl.sampleConfig newClient) [.env (.connectDone false)],
        m.queue = [.handleConnect false] ∧ m.link.isOpen = true ∧
          (IoLoop.step (bus recordsPlatform wholeFiles) m .run).isSome) ∧
      AllSteps (IoLoop.step (bus recordsPlatform wholeFiles)) (fun m _ => m.connecting ≤ 1)
        (IoLoop.start TcpClientImpl.sampleConfig newClient) [.env (.connectDone false), .run] ∧
      (∀ m ∈ run (IoLoop.step (bus recordsPlatform wholeFiles))
        (IoLoop.start TcpClientImpl.sampleConfig newClient) [.env (.connectDone false), .run],
        m.connecting ≤ 1) ∧
      AllSteps (IoLoop.step (bus recordsPlatform wholeFiles)) ClosedSocketFirst
        (IoLoop.start TcpClientImpl.sampleConfig newClient) [.env (.connectDone false), .run] ∧
      AllSteps (IoLoop.step (bus recordsPlatform wholeFiles)) ReconnectsApart
        (IoLoop.start TcpClientImpl.sampleConfig newClient) [.env (.connectDone false), .run] := by
    decide +kernel
  obtain ⟨⟨m, hrun, hqueue, hopen, hsome⟩, hsingle, hlast, hprompt, hreconnect⟩ := hsteps
  obtain ⟨client, hconnect⟩ := Option.isSome_iff_exists.mp hsome
  have hclient := (run_concat hrun .run).trans hconnect
  refine ⟨client, ⟨⟨m, [], hrun, hqueue, hopen, hconnect⟩, fun before m' hbefore hm' => ?_, hprompt,
    hreconnect⟩, hclient⟩
  exact prefixes_of_allSteps hsingle hclient (hlast client hclient) hbefore hm'

theorem run_loginAndPush :
    ∃ client d, JustConnected (bus recordsPlatform wholeFiles) TcpClientImpl.sampleConfig newClient
        [.env (.connectDone false)] client ∧
      client.state.client.io.inbox = [] ∧
      run (step (bus recordsPlatform wholeFiles) sessionCjson)
        (start client "client_127_0_0_1_9000" Conn.sampleShared) loginAndPush = some d ∧
      (∀ before m, before <+: loginAndPush →
        run (step (bus recordsPlatform wholeFiles) sessionCjson)
          (start client "client_127_0_0_1_9000" Conn.sampleShared) before = some m →
            Usable client.link.connection m) ∧
      Settled d ∧ d.handler.terminated = false ∧ announced recordsPlatform d = [newerRecord] ∧
      client.state.client.sub.terminated = false ∧
      Stocked recordsPlatform [newerRecord] client.state.client.sub.sysUpdateHandler := by
  obtain ⟨client, hconnected, hclient⟩ := justConnected_new
  have hsteps : ∀ client ∈ run (IoLoop.step (bus recordsPlatform wholeFiles))
        (IoLoop.start TcpClientImpl.sampleConfig newClient) [.env (.connectDone false), .run],
      client.state.client.io.inbox = [] ∧
      (∃ d ∈ run (step (bus recordsPlatform wholeFiles) sessionCjson)
          (start client "client_127_0_0_1_9000" Conn.sampleShared) loginAndPush,
        Usable client.link.connection d ∧ Settled d ∧ d.handler.terminated = false ∧
          announced recordsPlatform d = [newerRecord]) ∧
      AllSteps (step (bus recordsPlatform wholeFiles) sessionCjson)
        (fun m _ => Usable client.link.connection m)
        (start client "client_127_0_0_1_9000" Conn.sampleShared) loginAndPush ∧
      client.state.client.sub.terminated = false ∧
      client.state.client.sub.sysUpdateHandler.totalSize = 0 ∧
      client.state.client.sub.sysUpdateHandler.fileInfoVec = [] ∧
      ∀ t ∈ [newerRecord], client.state.client.sub.sysUpdateHandler.partialContent recordsPlatform
        t.savePath = [] := by
    decide +kernel
  obtain ⟨hinbox, ⟨d, hrun, hlast, hsettled, halive, hannounced⟩, husable, hrunning, hcounter, hvec,
    hfresh⟩ := hsteps client hclient
  exact ⟨client, d, hconnected, hinbox, hrun,
    fun before m hbefore hm => prefixes_of_allSteps husable hrun hlast hbefore hm, hsettled, halive,
    hannounced, hrunning, .of_empty hcounter hvec hfresh⟩

theorem handled_of_run_push :
    ∃ client d, run (step (bus recordsPlatform wholeFiles) sessionCjson)
        (start client "client_127_0_0_1_9000" Conn.sampleShared) loginAndPush = some d ∧
      ∃ ts, ts.Sublist (announced recordsPlatform d) ∧
        (Settled d → ts = announced recordsPlatform d) ∧
        run (notify recordsPlatform) client.state.client.sub.sysUpdateHandler
          (pushes wholeFiles client.state.client.sub.notified ts) =
            some d.handler.sysUpdateHandler := by
  obtain ⟨client, d, hconnected, hinbox, hrun, husable, -, halive, -⟩ := run_loginAndPush
  exact ⟨client, d, hrun, handled_of_run hconnected hinbox rfl rfl hrun husable halive⟩

end Dialogue

end CloudEdgePush.Wire
