import CloudEdgePush.Client.IoLoop
import CloudEdgePush.Client.ReadCycle

/-!
# What the subscriber has heard

The handlers of `TcpClientImpl` tell the subscribers of the bus one message after the other, and
change their state in no other way.  So at any time that is the state of subscribers who have heard
the published messages, in their order (`Hears`).
-/

namespace CloudEdgePush.Client

open CloudEdgePush.Lib

def Trace.message : Trace → Option BusMessage
  | .published _ msg => some msg
  | _ => none

def BusMessage.content : BusMessage → Option (UInt32 × Bytes)
  | .kMsgReadBody msg => some (msg.msgType, msg.body)
  | _ => none

namespace TcpClientImpl

variable {σ : Type} (bus : Bus σ)

def messages (c : TcpClientImpl σ) : List BusMessage := c.trace.filterMap Trace.message

theorem filterMap_content (c : TcpClientImpl σ) :
    c.messages.filterMap BusMessage.content = c.publishedBodies := by
  rw [messages, List.filterMap_filterMap]
  refine List.filterMap_congr fun t _ => ?_
  cases t with
  | published connection msg =>
      cases msg with
      | kMsgReadBody msg => rfl
      | _ => rfl
  | _ => rfl

def hearing (sub : σ) (heard : List (Nat × BusMessage)) : σ :=
  heard.foldl (fun sub m => (bus.deliver m.1 m.2 sub).1) sub

/-- From `c` to `c'` the subscribers have heard what was published, and nothing else. -/
def Hears (c c' : TcpClientImpl σ) : Prop :=
  ∃ heard, c'.sub = hearing bus c.sub heard ∧ c'.messages = c.messages ++ heard.map Prod.snd

namespace Hears

variable {bus} {c c' c₁ c₂ c₃ : TcpClientImpl σ}

theorem trans (h : Hears bus c₁ c₂) (h' : Hears bus c₂ c₃) : Hears bus c₁ c₃ := by
  obtain ⟨heard, hsub, hmessages⟩ := h
  obtain ⟨heard', hsub', hmessages'⟩ := h'
  refine ⟨heard ++ heard', ?_, ?_⟩
  · rw [hsub', hsub, hearing, hearing, hearing, List.foldl_append]
  · rw [hmessages', hmessages, List.map_append, List.append_assoc]

theorem quiet (hsub : c'.sub = c.sub) (hmessages : c'.messages = c.messages) : Hears bus c c' :=
  ⟨[], hsub, by rw [hmessages, List.map_nil, List.append_nil]⟩

theorem log (c : TcpClientImpl σ) {t : Trace} (ht : t.message = none) : Hears bus c (c.log t) := by
  refine quiet rfl ?_
  simp [messages, TcpClientImpl.log, ht]

theorem sendMessage (c : TcpClientImpl σ) (msg : BusMessage) :
    Hears bus c (c.sendMessage bus msg) := by
  refine ⟨[(c.io.now, msg)], ?_, ?_⟩
  · rw [sendMessage_eq]
    rfl
  · have hhanded (out : List TcpMessage) :
        (out.map (Trace.handed c.io.connection)).filterMap Trace.message = [] := by
      rw [List.filterMap_map, List.filterMap_eq_nil_iff]
      intro m _
      rfl
    rw [sendMessage_eq]
    simp only [messages, List.filterMap_append, List.filterMap_cons, hhanded, Trace.message,
      List.map_cons, List.map_nil]

theorem frame (bus : Bus σ) : Frame bus (Hears bus) where
  refl _ := quiet rfl rfl
  trans := trans
  setIo _ _ _ _ := quiet rfl rfl
  setWriter _ _ _ := quiet rfl rfl
  setSession _ _ _ _ _ := quiet rfl rfl
  stop _ := quiet rfl rfl
  logConnect c := log c rfl
  logWrite c _ _ := log c rfl
  sendError c := sendMessage c _
  sendHeartbeat c := sendMessage c _
  sendClose c := (sendMessage c _).trans (quiet rfl rfl)

theorem asyncRead (c : TcpClientImpl σ) (offset length : Nat) (handler : ReadHandler) :
    Hears bus c (c.asyncRead offset length handler) :=
  (quiet rfl rfl).trans (log { c with io.reads := _ } rfl)

theorem readRest (c : TcpClientImpl σ) (msg : TcpMessage) : Hears bus c (c.readRest msg) :=
  (quiet rfl rfl).trans (asyncRead { c with readMsg := _, rbuf := _ } _ _ _)

theorem startRead (c : TcpClientImpl σ) : Hears bus c c.startRead :=
  (quiet rfl rfl).trans (asyncRead { c with rbuf := _ } _ _ _)

theorem handleReadBody (c : TcpClientImpl σ) : Hears bus c (c.handleReadBody bus false) := by
  unfold TcpClientImpl.handleReadBody
  split
  · exact quiet rfl rfl
  · rw [if_neg (by decide)]
    have htaken : Hears bus c { c with readMsg := retrieveBody c.rbuf c.readMsg } := quiet rfl rfl
    exact (htaken.trans (sendMessage _ _)).trans (startRead _)

theorem handle (c : TcpClientImpl σ) (r : Ready) : Hears bus c (c.handle bus r) := by
  have hframe := frame bus
  refine hframe.handle ?_ handleReadBody ?_ c r
  · exact hframe.handleReadHeader readRest fun c msg => sendMessage c _
  · intro c hopen
    exact hframe.handleConnect_opened (fun c => (quiet rfl rfl).trans (sendMessage _ _)) startRead
      hopen

theorem write (c : TcpClientImpl σ) (msg : TcpMessage) : Hears bus c (c.write msg) := by
  unfold TcpClientImpl.write
  dsimp only
  split
  · exact log c rfl
  · exact (log c rfl).trans (quiet rfl rfl)

end Hears

end TcpClientImpl

namespace IoLoop

open TcpClientImpl

variable {σ : Type} {bus : Bus σ} {s s' : IoLoop σ}

theorem hears_of_occurs {c : TcpClientImpl σ} {e : Occurrence}
    {next : TcpClientImpl σ × List Ready} (h : IoClient.occurs c e = some next) :
    Hears bus c next.1 := by
  cases e with
  | tick ms =>
      obtain rfl := Option.some.inj h
      exact .quiet rfl rfl
  | arrive chunk =>
      obtain ⟨-, heq⟩ := Option.ite_none_right_eq_some.mp h
      obtain rfl := Option.some.inj heq
      exact .quiet rfl rfl
  | connectDone ec =>
      obtain ⟨-, heq⟩ := Option.ite_none_left_eq_some.mp h
      obtain rfl := Option.some.inj heq
      cases ec with
      | true => exact .quiet rfl rfl
      | false => exact .quiet rfl rfl
  | readDone i ec =>
      simp only [IoClient.occurs] at h
      split at h
      · cases h
      · split at h
        · obtain rfl := Option.some.inj h
          exact .quiet rfl rfl
        · obtain ⟨-, heq⟩ := Option.ite_none_right_eq_some.mp h
          obtain rfl := Option.some.inj heq
          exact .quiet rfl rfl
  | writeDone | heartbeatDue | reconnectDue =>
      simp only [IoClient.occurs] at h
      split at h
      · cases h
      · obtain ⟨-, heq⟩ := Option.ite_none_right_eq_some.mp h
        obtain rfl := Option.some.inj heq
        exact .quiet rfl rfl
  | write msg =>
      obtain rfl := Option.some.inj h
      exact .write c msg
  | close =>
      obtain rfl := Option.some.inj h
      exact (Hears.frame bus).close c

theorem hears_of_step {e : Event} (hstep : step bus s e = some s') :
    Hears bus s.state.client s'.state.client := by
  cases e with
  | env e =>
      obtain ⟨state, ready, henv, rfl⟩ := EventLoop.step_env_eq_some.mp hstep
      obtain ⟨next, hoccurs, heq⟩ := Option.map_eq_some_iff.mp henv
      obtain ⟨rfl, -⟩ := Prod.mk.inj heq
      exact (hears_of_occurs hoccurs).trans (.quiet rfl rfl)
  | run =>
      obtain ⟨r, rest, -, rfl⟩ := EventLoop.step_run_eq_some.mp hstep
      exact (Hears.handle s.state.client r).trans (.quiet rfl rfl)

end IoLoop

end CloudEdgePush.Client
