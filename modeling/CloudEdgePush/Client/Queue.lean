import CloudEdgePush.Client.Link

/-!
# The queue of ready handlers

What the properties of runs count and look for in the queue, and the two kinds of steps:
`progress_of_step` for the environment and `outcome_of_step` for a handler, whose effect on the
queue is a `Turn`.
-/

namespace CloudEdgePush.Client

open CloudEdgePush.Lib CloudEdgePush.Lib.EventLoop

namespace Ready

def isConnect : Ready → Bool
  | .handleConnect _ => true
  | _ => false

def isReconnect : Ready → Bool
  | .doReconnect => true
  | _ => false

def isWrite : Ready → Bool
  | .handleWrite _ _ => true
  | _ => false

def isClose : Ready → Bool
  | .posted .doClose => true
  | _ => false

theorem isConnect_of_needsSession {r : Ready} (h : r.needsSession = true) : r.isConnect = false := by
  cases r with
  | handleConnect ec => cases h
  | _ => rfl

theorem isReconnect_of_needsSession {r : Ready} (h : r.needsSession = true) :
    r.isReconnect = false := by
  cases r with
  | doReconnect => cases h
  | _ => rfl

theorem isClose_of_needsSession {r : Ready} (h : r.needsSession = true) : r.isClose = false := by
  cases r with
  | posted p =>
      cases p with
      | startWrite msg => rfl
      | doClose => cases h
  | _ => rfl

@[simp] theorem isConnect_posted (p : Posted) : (posted p).isConnect = false := rfl

@[simp] theorem isReconnect_posted (p : Posted) : (posted p).isReconnect = false := rfl

@[simp] theorem isWrite_posted (p : Posted) : (posted p).isWrite = false := rfl

theorem exists_isClose {closed : Bool} {queue : List Ready}
    (h : closed = true → ∃ r ∈ queue, r.isClose = true) :
    ∃ r ∈ queue ++ (closing closed).map .posted, r.isClose = true := by
  cases closed with
  | true =>
      obtain ⟨r, hr, hclose⟩ := h rfl
      exact ⟨r, List.mem_append_left _ hr, hclose⟩
  | false => exact ⟨.posted .doClose, List.mem_append_right _ List.mem_cons_self, rfl⟩

end Ready

namespace IoLoop

open TcpClientImpl

variable {σ : Type} {bus : Bus σ} {s s' : IoLoop σ}

def link (s : IoLoop σ) : Link := s.state.client.link

/-- Waits for the reconnect timer that are not over, or whose handler has not run. -/
def waiting (s : IoLoop σ) : Nat := s.link.reconnectWaits.length + s.queue.countP Ready.isReconnect

/-- Connects that are not over, or whose handler has not run. -/
def connecting (s : IoLoop σ) : Nat := s.link.connects + s.queue.countP Ready.isConnect

theorem progress_of_step {e : Occurrence} (hstep : step bus s (.env e) = some s') :
    ∃ ready, Progress s.state.client e s'.link ready ∧ s'.queue = s.queue ++ ready ∧
      s'.state.accepted = s.state.accepted := by
  obtain ⟨state, ready, henv, rfl⟩ := EventLoop.step_env_eq_some.mp hstep
  obtain ⟨⟨c, new⟩, hoccurs, heq⟩ := Option.map_eq_some_iff.mp henv
  obtain ⟨rfl, rfl⟩ := Prod.mk.inj heq
  have hprogress := progress_occurs s.state.posted hoccurs
  exact ⟨new ++ c.io.posted.map Ready.posted, hprogress, rfl, rfl⟩

theorem same_of_progress {e : Occurrence} (hstep : step bus s (.env e) = some s') :
    s'.link.stopped = s.link.stopped ∧ s'.connecting = s.connecting := by
  obtain ⟨ready, hprogress, hqueue, -⟩ := progress_of_step hstep
  unfold connecting
  rw [hqueue, List.countP_append]
  generalize s'.link = l at hprogress
  have hquiet (hstopped : l.stopped = s.link.stopped) (hconnects : l.connects = s.link.connects)
      (hnone : ready.countP Ready.isConnect = 0) :
      l.stopped = s.link.stopped ∧
        l.connects + (s.queue.countP Ready.isConnect + ready.countP Ready.isConnect) =
          s.link.connects + s.queue.countP Ready.isConnect :=
    ⟨hstopped, by omega⟩
  have hdone {ec : Bool} (hpos : 0 < s.link.connects) : s.link.connects - 1 +
      (s.queue.countP Ready.isConnect + [Ready.handleConnect ec].countP Ready.isConnect) =
        s.link.connects + s.queue.countP Ready.isConnect := by
    have hone : [Ready.handleConnect ec].countP Ready.isConnect = 1 := rfl
    omega
  cases hprogress with
  | connected hconnects => exact ⟨rfl, hdone hconnects⟩
  | connectFailed hconnects => exact ⟨rfl, hdone hconnects⟩
  | write msg msgs => exact hquiet rfl rfl (by simp)
  | close => exact hquiet rfl rfl (by simp)
  | _ => exact hquiet rfl rfl rfl

structure Turn (s s' : IoLoop σ) (r : Ready) (rest : List Ready) (posted : List Posted) : Prop where
  queue : s.queue = r :: rest
  queue' : s'.queue = rest ++ posted.map .posted
  accepted : s'.state.accepted = s.state.accepted ++ (s.state.client.acceptedBy r).toList

theorem outcome_of_step (hstep : step bus s .run = some s') :
    ∃ r rest posted, Turn s s' r rest posted ∧ Outcome s.state.client r s'.link posted := by
  obtain ⟨r, rest, hqueue, rfl⟩ := EventLoop.step_run_eq_some.mp hstep
  have houtcome := outcome_handle bus s.state.posted r
  exact ⟨r, rest, (s.state.client.handle bus r).io.posted, ⟨hqueue, rfl, rfl⟩, houtcome⟩

namespace Turn

variable {r later : Ready} {rest : List Ready} {posted : List Posted}

theorem mem_of_rest (h : Turn s s' r rest posted) (hlater : later ∈ rest) : later ∈ s'.queue := by
  rw [h.queue']
  exact List.mem_append_left _ hlater

theorem mem_rest (h : Turn s s' r rest posted) (hlater : later ∈ s.queue) (hne : later ≠ r) :
    later ∈ rest := by
  rw [h.queue] at hlater
  exact (List.mem_cons.mp hlater).resolve_left hne

theorem mem_of_not_posted (h : Turn s s' r rest posted) (hlater : later ∈ s'.queue)
    (hnot : ∀ p, later ≠ .posted p) : later ∈ rest := by
  rw [h.queue'] at hlater
  rcases List.mem_append.mp hlater with hold | hnew
  · exact hold
  · obtain ⟨p, -, rfl⟩ := List.mem_map.mp hnew
    exact absurd rfl (hnot p)

theorem waiting_before (h : Turn s s' r rest posted) :
    s.waiting = s.link.reconnectWaits.length + rest.countP Ready.isReconnect +
      if r.isReconnect = true then 1 else 0 := by
  simp only [waiting, h.queue, List.countP_cons]
  omega

theorem waiting_after (h : Turn s s' r rest posted) :
    s'.waiting = s'.link.reconnectWaits.length + rest.countP Ready.isReconnect := by
  simp [waiting, h.queue']

theorem connecting_before (h : Turn s s' r rest posted) :
    s.connecting = s.link.connects + rest.countP Ready.isConnect +
      if r.isConnect = true then 1 else 0 := by
  simp only [connecting, h.queue, List.countP_cons]
  omega

theorem connecting_after (h : Turn s s' r rest posted) :
    s'.connecting = s'.link.connects + rest.countP Ready.isConnect := by
  simp [connecting, h.queue']

theorem counts (h : Turn s s' r rest posted) (hneeds : r.needsSession = true) :
    s'.waiting + s.link.reconnectWaits.length = s.waiting + s'.link.reconnectWaits.length ∧
      s'.connecting + s.link.connects = s.connecting + s'.link.connects := by
  rw [h.waiting_before, h.waiting_after, h.connecting_before, h.connecting_after,
    Ready.isConnect_of_needsSession hneeds, Ready.isReconnect_of_needsSession hneeds]
  simp only [Bool.false_eq_true, if_false]
  omega

theorem exists_isClose (h : Turn s s' r rest posted) (hneeds : r.needsSession = true)
    (hclose : ∃ later ∈ s.queue, later.isClose = true) : ∃ later ∈ rest, later.isClose = true := by
  obtain ⟨later, hlater, hclose⟩ := hclose
  refine ⟨later, h.mem_rest hlater ?_, hclose⟩
  rintro rfl
  rw [Ready.isClose_of_needsSession hneeds] at hclose
  cases hclose

theorem leads_isReconnect (h : Turn s s' r rest posted) (hneeds : r.needsSession = true)
    (hleads : Leads (fun r : Ready => r.isClose = true) (fun r => r.isReconnect = true) s.queue) :
    Leads (fun r : Ready => r.isClose = true) (fun r => r.isReconnect = true) s'.queue := by
  rw [h.queue] at hleads
  rw [h.queue']
  have hclose := Ready.isClose_of_needsSession hneeds
  exact (hleads.tail (by simp [hclose])).append_of_forall_not (by simp)

end Turn

end IoLoop

end CloudEdgePush.Client
