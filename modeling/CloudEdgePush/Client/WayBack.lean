import CloudEdgePush.Client.Queue

/-!
# A client that reconnects is never stuck

A client with `isReconnect` that its user does not close always has something coming that leads
back to a connection: a connect, a read on the running session, or a reconnect wait.  Two facts
carry this.  The reconnect timer is never set for the future without a wait (`Lively.pending`), so
`startReconnect` leaves a wait also where it does not set the timer; and `doClose`, which takes the
read away, is only queued when a wait is pending, so that the reconnect comes after it
(`Lively.trails`).
-/

namespace CloudEdgePush.Client.IoLoop

open CloudEdgePush.Lib.Transition CloudEdgePush.Lib.EventLoop TcpClientImpl

variable {σ : Type}

def ReadsCurrent (s : IoLoop σ) : Prop :=
  (∃ op ∈ s.link.reads, op.connection = s.link.connection) ∨
    ∃ op ec, Ready.handleRead op ec ∈ s.queue ∧ op.connection = s.link.connection

/-- What leads back to a connection. -/
inductive HasWayBack (s : IoLoop σ) : Prop
  | connecting (h : 0 < s.connecting)
  | reading (hrunning : s.link.stopped = false) (h : ReadsCurrent s)
  | waiting (h : 0 < s.waiting)

structure Lively (s : IoLoop σ) : Prop where
  isReconnect : s.link.clientConfig.isReconnect = true
  wayBack : HasWayBack s
  pending : s.link.now < s.link.reconnectExpiry → false ∈ s.link.reconnectWaits
  trails : s.link.reconnectWaits = [] →
    Trails (fun r : Ready => r.isClose = true) (fun r => r.isReconnect = true) s.queue

theorem reconnectWaits_startReconnect_ne_nil {l : Link}
    (hpending : l.now < l.reconnectExpiry → false ∈ l.reconnectWaits) :
    l.startReconnect.reconnectWaits ≠ [] := by
  by_cases harms : l.reconnectFlag = 0 ∨ l.reconnectExpiry ≤ l.now
  · rw [Link.startReconnect_of_arms harms]
    exact List.append_ne_nil_of_right_ne_nil _ (List.cons_ne_nil _ _)
  · obtain ⟨hflag, hexpiry⟩ := not_or.mp harms
    rw [Nat.not_le] at hexpiry
    rw [Link.startReconnect_of_not_arms hflag hexpiry]
    exact List.ne_nil_of_mem (hpending hexpiry)

theorem pending_startReconnect {l : Link}
    (hpending : l.now < l.reconnectExpiry → false ∈ l.reconnectWaits) :
    l.startReconnect.now < l.startReconnect.reconnectExpiry →
      false ∈ l.startReconnect.reconnectWaits := by
  by_cases harms : l.reconnectFlag = 0 ∨ l.reconnectExpiry ≤ l.now
  · rw [Link.startReconnect_of_arms harms]
    exact fun _ => List.mem_append_right _ List.mem_cons_self
  · obtain ⟨hflag, hexpiry⟩ := not_or.mp harms
    rw [Nat.not_le] at hexpiry
    rw [Link.startReconnect_of_not_arms hflag hexpiry]
    exact hpending

variable {s s' : IoLoop σ}

theorem HasWayBack.becameReady (h : HasWayBack s) {ready : List Ready}
    (hqueue : s'.queue = s.queue ++ ready) (hstopped : s'.link.stopped = s.link.stopped)
    (hconnects : s'.link.connects = s.link.connects)
    (hwaits : s'.link.reconnectWaits = s.link.reconnectWaits)
    (hreads : ReadsCurrent s → ReadsCurrent s') : HasWayBack s' := by
  cases h with
  | connecting h =>
      refine .connecting ?_
      simp only [IoLoop.connecting, hqueue, hconnects, List.countP_append] at h ⊢
      omega
  | reading hrunning h => exact .reading (hstopped.trans hrunning) (hreads h)
  | waiting h =>
      refine .waiting ?_
      simp only [IoLoop.waiting, hqueue, hwaits, List.countP_append] at h ⊢
      omega

theorem HasWayBack.handled (h : HasWayBack s) {r : Ready} {rest : List Ready}
    {posted : List Posted} (hturn : Turn s s' r rest posted) (hneeds : r.needsSession = true)
    (hstopped : s'.link.stopped = s.link.stopped) (hconnects : s'.link.connects = s.link.connects)
    (hwaits : s'.link.reconnectWaits = s.link.reconnectWaits)
    (hreads : s.link.stopped = false → ReadsCurrent s → ReadsCurrent s') : HasWayBack s' := by
  obtain ⟨hwaiting, hconnecting⟩ := hturn.counts hneeds
  rw [hwaits] at hwaiting
  rw [hconnects] at hconnecting
  cases h with
  | connecting h => exact .connecting (by omega)
  | reading hrunning h => exact .reading (hstopped.trans hrunning) (hreads hrunning h)
  | waiting h => exact .waiting (by omega)

theorem ReadsCurrent.becameReady (h : ReadsCurrent s) {ready : List Ready}
    (hqueue : s'.queue = s.queue ++ ready) (hconnection : s'.link.connection = s.link.connection)
    (hreads : ∀ op ∈ s.link.reads, op ∈ s'.link.reads ∨ ∃ ec, Ready.handleRead op ec ∈ ready) :
    ReadsCurrent s' := by
  unfold ReadsCurrent
  rw [hconnection, hqueue]
  rcases h with ⟨op, hmem, hop⟩ | ⟨op, ec, hmem, hop⟩
  · rcases hreads op hmem with hstill | ⟨ec, hdone⟩
    · exact .inl ⟨op, hstill, hop⟩
    · exact .inr ⟨op, ec, List.mem_append_right _ hdone, hop⟩
  · exact .inr ⟨op, ec, List.mem_append_left _ hmem, hop⟩

/-- Only the handler of a read can take the read away. -/
theorem ReadsCurrent.handled (h : ReadsCurrent s) {r : Ready} {rest : List Ready}
    {posted : List Posted} (hturn : Turn s s' r rest posted) (hread : ∀ op ec, r ≠ .handleRead op ec)
    (hconnection : s'.link.connection = s.link.connection) (hreads : s'.link.reads = s.link.reads) :
    ReadsCurrent s' := by
  unfold ReadsCurrent
  rw [hconnection, hreads]
  rcases h with houtstanding | ⟨op, ec, hmem, hop⟩
  · exact .inl houtstanding
  · exact .inr ⟨op, ec, hturn.mem_of_rest (hturn.mem_rest hmem (hread op ec).symm), hop⟩

theorem ReadsCurrent.ofStarted {op : ReadOp} (hreads : s'.link.reads = s.link.reads ++ [op])
    (hconnection : s'.link.connection = s.link.connection)
    (hop : op.connection = s.link.connection) : ReadsCurrent s' := by
  refine .inl ⟨op, ?_, hop.trans hconnection.symm⟩
  rw [hreads]
  exact List.mem_append_right _ List.mem_cons_self

namespace Lively

/-- When `doClose` runs, a wait is pending or a reconnect is queued behind it. -/
theorem waiting_of_close (h : Lively s) {rest : List Ready} {posted : List Posted}
    (hturn : Turn s s' (.posted .doClose) rest posted)
    (hwaits : s'.link.reconnectWaits = s.link.reconnectWaits) : 0 < s'.waiting := by
  unfold IoLoop.waiting
  rw [hwaits]
  by_cases hnil : s.link.reconnectWaits = []
  · have hqueued := h.trails hnil
    rw [hturn.queue] at hqueued
    obtain ⟨later, hlater, hreconnect⟩ := hqueued.after_head rfl
    have hpos : 0 < s'.queue.countP Ready.isReconnect :=
      List.countP_pos_iff.mpr ⟨later, hturn.mem_of_rest hlater, hreconnect⟩
    omega
  · have hpos := List.length_pos_iff.mpr hnil
    omega

theorem ofStartReconnect {l : Link} (hl : s'.link = l.startReconnect)
    (hconfig : l.clientConfig.isReconnect = true)
    (hpending : l.now < l.reconnectExpiry → false ∈ l.reconnectWaits) : Lively s' := by
  have hwaits := reconnectWaits_startReconnect_ne_nil hpending
  rw [← hl] at hwaits
  refine ⟨?_, .waiting ?_, ?_, fun hnil => absurd hnil hwaits⟩
  · obtain ⟨_, _, _, hreconnect⟩ := Link.onlyReconnects_startReconnect l
    rw [hl, hreconnect]
    exact hconfig
  · have hpos := List.length_pos_iff.mpr hwaits
    unfold IoLoop.waiting
    omega
  · rw [hl]
    exact pending_startReconnect hpending

theorem ofSameTimer (h : Lively s) (hconfig : s'.link.clientConfig = s.link.clientConfig)
    (hexpiry : s'.link.reconnectExpiry = s.link.reconnectExpiry) (hnow : s.link.now ≤ s'.link.now)
    (hwaits : s'.link.reconnectWaits = s.link.reconnectWaits) (hback : HasWayBack s')
    (htrails : Trails (fun r : Ready => r.isClose = true) (fun r => r.isReconnect = true) s.queue →
      Trails (fun r : Ready => r.isClose = true) (fun r => r.isReconnect = true) s'.queue) :
    Lively s' := by
  refine ⟨?_, hback, ?_, ?_⟩
  · rw [hconfig]
    exact h.isReconnect
  · rw [hexpiry, hwaits]
    exact fun hlt => h.pending (hnow.trans_lt hlt)
  · rw [hwaits]
    exact fun hnil => htrails (h.trails hnil)

theorem ofProgress {bus : Bus σ} {e : Occurrence} (h : Lively s) (hopen : e ≠ .close)
    (hstep : step bus s (.env e) = some s') : Lively s' := by
  obtain ⟨ready, hprogress, hqueue, -⟩ := progress_of_step hstep
  generalize hl : s'.link = l at hprogress
  have hkept {α : Type} (field : Link → α) (hsame : field l = field s.link) :
      field s'.link = field s.link := (congrArg field hl).trans hsame
  have hready (hready : ∀ r ∈ ready, r.isClose = false) :
      Trails (fun r : Ready => r.isClose = true) (fun r => r.isReconnect = true) s.queue →
        Trails (fun r : Ready => r.isClose = true) (fun r => r.isReconnect = true) s'.queue := by
    rw [hqueue]
    exact fun htrails => htrails.append_of_forall_not fun r hr => by simp [hready r hr]
  have hquiet (hclose : ∀ r ∈ ready, r.isClose = false)
      (hconfig : l.clientConfig = s.link.clientConfig)
      (hexpiry : l.reconnectExpiry = s.link.reconnectExpiry) (hnow : s.link.now ≤ l.now)
      (hwaits : l.reconnectWaits = s.link.reconnectWaits) (hstopped : l.stopped = s.link.stopped)
      (hconnects : l.connects = s.link.connects) (hconnection : l.connection = s.link.connection)
      (hreads : ∀ op ∈ s.link.reads, op ∈ l.reads ∨ ∃ ec, Ready.handleRead op ec ∈ ready) :
      Lively s' := by
    rw [← hl] at hnow hreads
    refine h.ofSameTimer (hkept _ hconfig) (hkept _ hexpiry) hnow (hkept _ hwaits) ?_ (hready hclose)
    refine h.wayBack.becameReady hqueue (hkept _ hstopped) (hkept _ hconnects) (hkept _ hwaits) ?_
    exact fun hcurrent => hcurrent.becameReady hqueue (hkept _ hconnection) hreads
  cases hprogress with
  | tick ms =>
      exact hquiet (by simp) rfl rfl (Nat.le_add_right _ _) rfl rfl rfl rfl fun _ hop => .inl hop
  | connected hconnects =>
      exact h.ofSameTimer (hkept _ rfl) (hkept _ rfl) (hkept Link.now rfl).ge (hkept _ rfl)
        (.connecting (by simp [connecting, hqueue, Ready.isConnect])) (hready (by simp [Ready.isClose]))
  | connectFailed hconnects =>
      exact h.ofSameTimer (hkept _ rfl) (hkept _ rfl) (hkept Link.now rfl).ge (hkept _ rfl)
        (.connecting (by simp [connecting, hqueue, Ready.isConnect])) (hready (by simp [Ready.isClose]))
  | readDone i op ec hop =>
      have hmoved (other : ReadOp) (hmem : other ∈ s.link.reads) :
          other ∈ s.link.reads.eraseIdx i ∨
            ∃ ec', Ready.handleRead other ec' ∈ [Ready.handleRead op ec] := by
        obtain ⟨j, hj⟩ := List.mem_iff_getElem?.mp hmem
        by_cases hji : j = i
        · subst hji
          obtain rfl : op = other := Option.some.inj (hop.symm.trans hj)
          exact .inr ⟨ec, List.mem_cons_self⟩
        · exact .inl (List.mem_eraseIdx_iff_getElem?.mpr ⟨j, hji, hj⟩)
      exact hquiet (by simp [Ready.isClose]) rfl rfl le_rfl rfl rfl rfl rfl hmoved
  | reconnectDue i aborted hwait hdue =>
      have hwaits : s'.link.reconnectWaits = s.link.reconnectWaits.eraseIdx i :=
        (congrArg Link.reconnectWaits hl).trans rfl
      refine ⟨(hkept Link.clientConfig rfl).symm ▸ h.isReconnect,
        .waiting (by simp [waiting, hqueue, Ready.isReconnect]), ?_, fun _ => ?_⟩
      · rw [hkept Link.now rfl, hkept Link.reconnectExpiry rfl, hwaits]
        intro hlt
        -- the timer has not expired, so the wait that is over was an aborted one
        have haborted : aborted = true := hdue.resolve_right (by
          have hexpiry : s.state.client.io.now < s.state.client.io.reconnectExpiry := hlt
          omega)
        obtain ⟨j, hj⟩ := List.mem_iff_getElem?.mp (h.pending hlt)
        refine List.mem_eraseIdx_iff_getElem?.mpr ⟨j, ?_, hj⟩
        rintro rfl
        have hfalse : aborted = false := Option.some.inj (hwait.symm.trans hj)
        rw [haborted] at hfalse
        cases hfalse
      · rw [hqueue]
        exact Trails.concat _ rfl (by simp [Ready.isClose])
  | close => exact absurd rfl hopen
  | write msg msgs =>
      exact hquiet (by simp [writes, Ready.isClose]) rfl rfl le_rfl rfl rfl rfl rfl fun _ hop =>
        .inl hop
  | _ =>
      exact hquiet (by simp [Ready.isClose]) rfl rfl le_rfl rfl rfl rfl rfl fun _ hop => .inl hop

theorem ofOutcome {bus : Bus σ} (h : Lively s) (hstep : step bus s .run = some s') : Lively s' := by
  obtain ⟨r, rest, posted, hturn, houtcome⟩ := outcome_of_step hstep
  generalize hl : s'.link = l at houtcome
  have hkept {α : Type} (field : Link → α) (hsame : field l = field s.link) :
      field s'.link = field s.link := (congrArg field hl).trans hsame
  have htrails (hposted : ∀ p ∈ posted, p ≠ .doClose) :
      Trails (fun r : Ready => r.isClose = true) (fun r => r.isReconnect = true) s.queue →
        Trails (fun r : Ready => r.isClose = true) (fun r => r.isReconnect = true) s'.queue := by
    rw [hturn.queue, hturn.queue']
    intro htrails
    refine htrails.tail.append_of_forall_not ?_
    rintro later hlater hclose
    obtain ⟨p, hp, rfl⟩ := List.mem_map.mp hlater
    cases p with
    | startWrite msg => cases hclose
    | doClose => exact hposted _ hp rfl
  have hwrites (msgs : List TcpMessage) : ∀ p ∈ writes msgs, p ≠ .doClose := by
    simp [writes]
  have hquiet (hneeds : r.needsSession = true) (hposted : ∀ p ∈ posted, p ≠ .doClose)
      (hconfig : l.clientConfig = s.link.clientConfig)
      (hexpiry : l.reconnectExpiry = s.link.reconnectExpiry) (hnow : l.now = s.link.now)
      (hstopped : l.stopped = s.link.stopped) (hconnects : l.connects = s.link.connects)
      (hwaits : l.reconnectWaits = s.link.reconnectWaits)
      (hreads : s.link.stopped = false → ReadsCurrent s → ReadsCurrent s') : Lively s' :=
    h.ofSameTimer (hkept _ hconfig) (hkept _ hexpiry) (hkept Link.now hnow).ge (hkept _ hwaits)
      (h.wayBack.handled hturn hneeds (hkept _ hstopped) (hkept _ hconnects)
        (hkept _ hwaits) hreads) (htrails hposted)
  have hsameReads (hread : ∀ op ec, r ≠ .handleRead op ec)
      (hconnection : l.connection = s.link.connection) (hreads : l.reads = s.link.reads)
      (_ : s.link.stopped = false) (h : ReadsCurrent s) : ReadsCurrent s' :=
    h.handled hturn hread (hkept _ hconnection) (hkept _ hreads)
  cases houtcome with
  | connected op msgs hopen hop =>
      have hcurrent : ReadsCurrent s' :=
        .ofStarted ((congrArg Link.reads hl).trans rfl) (hkept _ rfl) hop
      exact h.ofSameTimer (hkept _ rfl) (hkept _ rfl) (hkept Link.now rfl).ge (hkept _ rfl)
        (.reading ((congrArg Link.stopped hl).trans rfl) hcurrent) (htrails (hwrites msgs))
  | connectFailed ec msgs hfailed =>
      exact ofStartReconnect (hl.trans (Link.lost_of_isReconnect h.isReconnect)) h.isReconnect
        h.pending
  | ignored r hneeds hstopped =>
      refine hquiet hneeds (List.forall_mem_nil _) rfl rfl rfl rfl rfl rfl fun hrunning => ?_
      have hstopped' : s.link.stopped = true := hstopped
      rw [hstopped'] at hrunning
      cases hrunning
  | lost r reads msgs hrunning hlost =>
      exact ofStartReconnect (hl.trans (Link.lost_of_isReconnect h.isReconnect)) h.isReconnect
        h.pending
  | heartbeatLost hrunning hmissed => exact ofStartReconnect hl h.isReconnect h.pending
  | beat msgs hrunning hmissed =>
      exact hquiet rfl (hwrites msgs) rfl rfl rfl rfl rfl rfl (hsameReads (by simp) rfl rfl)
  | read op next msgs hrunning hlost hnext =>
      refine hquiet rfl (hwrites msgs) rfl rfl rfl rfl rfl rfl fun _ _ => ?_
      exact .ofStarted ((congrArg Link.reads hl).trans rfl) (hkept _ rfl) hnext
  | written op hrunning =>
      obtain ⟨_, _, _, hwritten⟩ := Link.onlyWrites_written s.state.client.link
      rw [hwritten] at hquiet hsameReads
      exact hquiet rfl (List.forall_mem_nil _) rfl rfl rfl rfl rfl rfl (hsameReads (by simp) rfl rfl)
  | accepted msg hrunning =>
      obtain ⟨_, _, _, haccept⟩ := Link.onlyWrites_accept s.state.client.link msg
      rw [haccept] at hquiet hsameReads
      exact hquiet rfl (List.forall_mem_nil _) rfl rfl rfl rfl rfl rfl (hsameReads (by simp) rfl rfl)
  | closed msgs =>
      exact h.ofSameTimer (hkept _ rfl) (hkept _ rfl) (hkept Link.now rfl).ge (hkept _ rfl)
        (.waiting (h.waiting_of_close hturn (hkept _ rfl))) (htrails (hwrites msgs))
  | reconnect =>
      have hconnects : s'.link.connects = s.link.connects + 1 :=
        (congrArg Link.connects hl).trans rfl
      refine h.ofSameTimer (hkept _ rfl) (hkept _ rfl) (hkept Link.now rfl).ge (hkept _ rfl)
        (.connecting ?_) (htrails (List.forall_mem_nil _))
      unfold IoLoop.connecting
      omega

end Lively

/-- A client with `isReconnect` that its user does not close: in every state that it can reach, in
whatever order operations complete, a connect is outstanding, or the session runs and is being
read from, or a reconnect wait is pending. -/
theorem hasWayBack (bus : Bus σ) {cfg : ClientConfig} (hcfg : cfg.isReconnect = true) {sub : σ}
    {events : List Event} (hopen : .env .close ∉ events) {s : IoLoop σ}
    (hrun : run (step bus) (start cfg sub) events = some s) : HasWayBack s := by
  have hinit : Lively (start cfg sub) := by
    refine ⟨hcfg, .connecting Nat.one_pos, fun h => absurd h (Nat.lt_irrefl 0), fun _ => trivial⟩
  have hkeep : ∀ s e s', Lively s → e ≠ .env .close → step bus s e = some s' → Lively s' := by
    intro s e s' h hopen hstep
    cases e with
    | env e => exact h.ofProgress (fun he => hopen (congrArg _ he)) hstep
    | run => exact h.ofOutcome hstep
  have hevents : ∀ e ∈ events, e ≠ .env .close := by
    rintro e he rfl
    exact hopen he
  exact (run_guarded hkeep hinit (allSteps_of_forall_mem hevents _) hrun).wayBack

/-- The heartbeat is lost, and before the reconnect the read fails and a write is handed over. -/
theorem hasWayBack_lostTwice :
    ∃ s, run (step idleBus) (start sampleConfig ()) (threePeriods ++ [.env (.tick 10000),
      .env (.heartbeatDue 0), .env (.readDone 0 true), .env (.write {}), .run, .run, .run, .run]) =
        some s ∧ HasWayBack s := by
  have hsome : (run (step idleBus) (start sampleConfig ()) (threePeriods ++ [.env (.tick 10000),
      .env (.heartbeatDue 0), .env (.readDone 0 true), .env (.write {}), .run, .run, .run,
      .run])).isSome := by
    decide +kernel
  obtain ⟨s, hrun⟩ := Option.isSome_iff_exists.mp hsome
  exact ⟨s, hrun, hasWayBack idleBus rfl (by decide) hrun⟩

end CloudEdgePush.Client.IoLoop
