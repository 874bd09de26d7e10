import CloudEdgePush.Client.Queue

/-!
# One reconnect at a time

A reconnect is a wait for the reconnect timer and then a connect.  While the client is at most
in one of them, and in no connect while a session runs, it is `Disciplined`.  A second reconnect
begins exactly when a loss is noticed a second time on a session that still runs and the timer,
set at the first time, has expired meanwhile: `startReconnect` sets it again, which does not take
back the first wait.
-/

namespace CloudEdgePush.Client

open CloudEdgePush.Lib CloudEdgePush.Lib.Transition CloudEdgePush.Lib.EventLoop

namespace IoLoop

open TcpClientImpl

variable {σ : Type}

structure Disciplined (s : IoLoop σ) : Prop where
  /-- There is one reconnect at most, so one connect at most. -/
  single : s.waiting + s.connecting ≤ 1
  running : s.link.stopped = false → s.connecting = 0

instance (s : IoLoop σ) : Decidable (Disciplined s) :=
  decidable_of_iff (s.waiting + s.connecting ≤ 1 ∧ (s.link.stopped = false → s.connecting = 0))
    ⟨fun h => ⟨h.1, h.2⟩, fun h => ⟨h.single, h.running⟩⟩

/-- A handler with this result starts a reconnect for a running session. -/
def noticesLoss (c : TcpClientImpl σ) (r : Ready) : Bool :=
  (c.losesSession r && c.clientConfig.isReconnect) ||
    (decide (r = .checkHeartbeat) && c.missesHeartbeat)

/-- When the handler at the front notices that a running session is lost, no reconnect was
started for this session, or the reconnect timer has not expired. -/
def NoticedInTime (s : IoLoop σ) : Event → Prop
  | .env _ => True
  | .run => s.link.stopped = false → (∃ r ∈ s.queue.head?, noticesLoss s.state.client r = true) →
      s.link.reconnectFlag = 0 ∨ s.link.now < s.link.reconnectExpiry

instance (s : IoLoop σ) (e : Event) : Decidable (NoticedInTime s e) :=
  match e with
  | .env _ => isTrue trivial
  | .run => inferInstanceAs (Decidable (_ → _ → _))

/-- On a running session the reconnect flag counts a wait that was started for it, and before
that wait is over the session is closed. -/
structure Orderly (s : IoLoop σ) : Prop where
  disciplined : Disciplined s
  closing : s.link.stopped = false → s.link.closed = true → ∃ r ∈ s.queue, r.isClose = true
  counted : s.link.stopped = false → s.link.reconnectFlag ≠ 0 → s.link.closed = true
  waits : s.link.stopped = false → s.waiting = if s.link.reconnectFlag = 0 then 0 else 1
  leads : s.link.stopped = false →
    Leads (fun r : Ready => r.isClose = true) (fun r => r.isReconnect = true) s.queue

structure SameSession (l l' : Link) : Prop where
  stopped : l'.stopped = l.stopped
  closed : l'.closed = l.closed
  reconnectFlag : l'.reconnectFlag = l.reconnectFlag

namespace Orderly

variable {s s' : IoLoop σ}

theorem ofStopped (hstopped : s.link.stopped = true) (hsingle : s.waiting + s.connecting ≤ 1) :
    Orderly s := by
  have hnot : s.link.stopped ≠ false := by simp [hstopped]
  exact ⟨⟨hsingle, fun h => absurd h hnot⟩, fun h => absurd h hnot, fun h => absurd h hnot,
    fun h => absurd h hnot, fun h => absurd h hnot⟩

theorem ofSame (h : Orderly s) (hsame : SameSession s.link s'.link)
    (hwaiting : s'.waiting = s.waiting) (hconnecting : s'.connecting = s.connecting)
    (hclose : (∃ r ∈ s.queue, r.isClose = true) → ∃ r ∈ s'.queue, r.isClose = true)
    (hleads : s.link.stopped = false →
      Leads (fun r : Ready => r.isClose = true) (fun r => r.isReconnect = true) s.queue →
      Leads (fun r : Ready => r.isClose = true) (fun r => r.isReconnect = true) s'.queue) :
    Orderly s' := by
  obtain ⟨⟨hsingle, hrunning⟩, hclosing, hcounted, hwaits, hleads₀⟩ := h
  refine ⟨⟨?_, ?_⟩, ?_, ?_, ?_, ?_⟩
  · rw [hwaiting, hconnecting]
    exact hsingle
  · rw [hsame.stopped, hconnecting]
    exact hrunning
  · rw [hsame.stopped, hsame.closed]
    exact fun hrun hclosed => hclose (hclosing hrun hclosed)
  · rw [hsame.stopped, hsame.closed, hsame.reconnectFlag]
    exact hcounted
  · rw [hsame.stopped, hwaiting, hsame.reconnectFlag]
    exact hwaits
  · rw [hsame.stopped]
    exact fun hrun => hleads hrun (hleads₀ hrun)

theorem handled (h : Orderly s) {r : Ready} {rest : List Ready} {posted : List Posted}
    (hturn : Turn s s' r rest posted) (hneeds : r.needsSession = true)
    (hsame : SameSession s.link s'.link) (hconnects : s'.link.connects = s.link.connects)
    (hwaits : s'.link.reconnectWaits = s.link.reconnectWaits) : Orderly s' := by
  obtain ⟨hwaiting, hconnecting⟩ := hturn.counts hneeds
  rw [hwaits] at hwaiting
  rw [hconnects] at hconnecting
  refine h.ofSame hsame (by omega) (by omega) (fun hclose => ?_) fun _ hleads => ?_
  · obtain ⟨later, hlater, hclose⟩ := hturn.exists_isClose hneeds hclose
    exact ⟨later, hturn.mem_of_rest hlater, hclose⟩
  · exact hturn.leads_isReconnect hneeds hleads

theorem becameReady (h : Orderly s) {ready : List Ready} (hqueue' : s'.queue = s.queue ++ ready)
    (hsame : SameSession s.link s'.link)
    (hwaiting : s'.waiting = s.waiting) (hconnecting : s'.connecting = s.connecting)
    (hready : s.link.stopped = false → (∀ r ∈ ready, r.isReconnect = false) ∨
      ∃ r ∈ s.queue, r.isClose = true) : Orderly s' := by
  refine h.ofSame hsame hwaiting hconnecting ?_ ?_
  · rw [hqueue']
    rintro ⟨r, hr, hclose⟩
    exact ⟨r, List.mem_append_left _ hr, hclose⟩
  · rw [hqueue']
    intro hrun hleads
    rcases hready hrun with hother | hclose
    · exact hleads.append_of_forall_not fun r hr => by simp [hother r hr]
    · exact hleads.append hclose

theorem ofProgress {bus : Bus σ} {e : Occurrence} (h : Orderly s)
    (hstep : step bus s (.env e) = some s') : Orderly s' := by
  obtain ⟨ready, hprogress, hqueue, -⟩ := progress_of_step hstep
  obtain ⟨hstopped, hconnecting⟩ := same_of_progress hstep
  have hother (hsame : SameSession s.link s'.link)
      (hwaits : s'.link.reconnectWaits = s.link.reconnectWaits)
      (hready : ∀ r ∈ ready, r.isReconnect = false) : Orderly s' := by
    have hnone : ready.countP Ready.isReconnect = 0 :=
      List.countP_eq_zero.mpr fun r hr => by simp [hready r hr]
    refine h.becameReady hqueue hsame ?_ hconnecting fun _ => .inl hready
    simp [waiting, hqueue, hwaits, hnone]
  generalize hl : s'.link = l at hprogress
  have hkept {α : Type} (field : Link → α) (hsame : field l = field s.link) :
      field s'.link = field s.link := (congrArg field hl).trans hsame
  have hsession (hclosed : l.closed = s.link.closed)
      (hflag : l.reconnectFlag = s.link.reconnectFlag) : SameSession s.link s'.link :=
    ⟨hstopped, hkept _ hclosed, hkept _ hflag⟩
  cases hprogress with
  | reconnectDue i aborted hwait hdue =>
      -- on a running session the wait was started by a loss, so the session is about to be closed
      have hlt : i < s.link.reconnectWaits.length := (List.getElem?_eq_some_iff.mp hwait).1
      have hwaits : s'.link.reconnectWaits = s.link.reconnectWaits.eraseIdx i :=
        (congrArg Link.reconnectWaits hl).trans rfl
      refine h.becameReady hqueue (hsession rfl rfl) ?_ hconnecting fun hrun => .inr ?_
      · simp only [waiting, hqueue, hwaits, List.length_eraseIdx_of_lt hlt, List.countP_append,
          List.countP_singleton, Ready.isReconnect, if_true]
        omega
      · have hcount := h.waits hrun
        refine h.closing hrun (h.counted hrun fun hflag => ?_)
        rw [if_pos hflag, waiting] at hcount
        omega
  | close =>
      have hclosed : s'.link.closed = true := (congrArg Link.closed hl).trans rfl
      have hflag : s'.link.reconnectFlag = s.link.reconnectFlag := hkept _ rfl
      have hwaiting : s'.waiting = s.waiting := by
        simp [waiting, hqueue, hkept Link.reconnectWaits rfl]
      refine ⟨⟨?_, ?_⟩, ?_, fun _ _ => hclosed, ?_, ?_⟩
      · rw [hwaiting, hconnecting]
        exact h.disciplined.single
      · rw [hstopped, hconnecting]
        exact h.disciplined.running
      · rw [hstopped, hqueue]
        intro hrun _
        exact Ready.exists_isClose (h.closing hrun)
      · rw [hstopped, hwaiting, hflag]
        exact h.waits
      · rw [hstopped, hqueue]
        exact fun hrun => (h.leads hrun).append_of_forall_not (by simp)
  | write msg msgs => exact hother (hsession rfl rfl) (hkept _ rfl) (by simp)
  | _ => exact hother (hsession rfl rfl) (hkept _ rfl) (by simp [Ready.isReconnect])

section Outcome

variable {r : Ready} {rest : List Ready} {posted : List Posted}

theorem begins (h : Orderly s) (hturn : Turn s s' r rest posted) (hconnect : r.isConnect = true)
    (hclosed : s'.link.closed = false) (hflag : s'.link.reconnectFlag = 0)
    (hconnects : s'.link.connects = s.link.connects)
    (hwaits : s'.link.reconnectWaits = s.link.reconnectWaits) : Orderly s' := by
  have hsingle := h.disciplined.single
  rw [hturn.waiting_before, hturn.connecting_before, if_pos hconnect] at hsingle
  have hwaiting := hturn.waiting_after
  have hconnecting := hturn.connecting_after
  rw [hwaits] at hwaiting
  rw [hconnects] at hconnecting
  have hnone : s'.waiting = 0 := by omega
  refine ⟨⟨by omega, fun _ => by omega⟩, fun _ h => ?_, fun _ h => absurd hflag h, fun _ => ?_,
    fun _ => .of_forall_not fun r hr => ?_⟩
  · rw [hclosed] at h
    cases h
  · rw [if_pos hflag]
    exact hnone
  · unfold waiting at hnone
    exact List.countP_eq_zero.mp (by omega) r hr

theorem connectFails (h : Orderly s) (hturn : Turn s s' r rest posted)
    (hconnect : r.isConnect = true) (hstopped : s'.link.stopped = true)
    (hconnects : s'.link.connects = s.link.connects)
    (hwaits : s'.link.reconnectWaits.length ≤ s.link.reconnectWaits.length + 1) : Orderly s' := by
  have hsingle := h.disciplined.single
  rw [hturn.waiting_before, hturn.connecting_before, if_pos hconnect] at hsingle
  refine .ofStopped hstopped ?_
  rw [hturn.waiting_after, hturn.connecting_after]
  omega

/-- The reconnect that a running session starts when it is lost is the only one. -/
theorem loses (h : Orderly s) (hturn : Turn s s' r rest posted) (hneeds : r.needsSession = true)
    (hrunning : s.link.stopped = false) (hconnects : s'.link.connects = s.link.connects)
    {arms : Prop} [Decidable arms]
    (hwaits : s'.link.reconnectWaits.length =
      s.link.reconnectWaits.length + if arms then 1 else 0)
    (hintime : arms → s.link.reconnectFlag = 0) :
    s'.connecting = 0 ∧ s'.waiting ≤ 1 ∧ ((s.link.reconnectFlag = 0 → arms) → s'.waiting = 1) := by
  obtain ⟨hwaiting, hconnecting⟩ := hturn.counts hneeds
  have hidle := h.disciplined.running hrunning
  have hbefore := h.waits hrunning
  by_cases harms : arms
  · rw [if_pos harms] at hwaits
    rw [if_pos (hintime harms)] at hbefore
    exact ⟨by omega, by omega, fun _ => by omega⟩
  · rw [if_neg harms] at hwaits
    refine ⟨by omega, ?_, fun hflag => ?_⟩
    · split at hbefore
      · omega
      · omega
    · rw [if_neg fun hzero => harms (hflag hzero)] at hbefore
      omega

theorem losesHeartbeat (h : Orderly s) (hturn : Turn s s' .checkHeartbeat rest
      (Client.closing s.link.closed)) (hrunning : s.link.stopped = false)
    (hintime : s.link.reconnectFlag = 0 ∨ s.link.now < s.link.reconnectExpiry)
    (hl : s'.link = { s.link with closed := true }.startReconnect) : Orderly s' := by
  have hwaits : s'.link.reconnectWaits.length = s.link.reconnectWaits.length +
      if s.link.reconnectFlag = 0 ∨ s.link.reconnectExpiry ≤ s.link.now then 1 else 0 := by
    rw [hl]
    exact Link.length_reconnectWaits_startReconnect _
  have hflag : s'.link.reconnectFlag ≠ 0 := by
    rw [hl]
    exact Nat.succ_ne_zero _
  obtain ⟨_, _, _, hreconnect⟩ := Link.onlyReconnects_startReconnect { s.link with closed := true }
  rw [hreconnect] at hl
  have hconnects : s'.link.connects = s.link.connects := (congrArg Link.connects hl).trans rfl
  have hclosed : s'.link.closed = true := (congrArg Link.closed hl).trans rfl
  obtain ⟨hidle, -, hone⟩ := h.loses hturn rfl hrunning hconnects hwaits fun harms =>
    harms.elim id fun hexpired => hintime.resolve_right (Nat.not_lt.mpr hexpired)
  have hone := hone .inl
  refine ⟨⟨by omega, fun _ => hidle⟩, fun _ _ => ?_, fun _ _ => hclosed, fun _ => ?_, fun _ => ?_⟩
  · rw [hturn.queue']
    exact Ready.exists_isClose fun hbefore => hturn.exists_isClose rfl (h.closing hrunning hbefore)
  · rw [hone, if_neg hflag]
  · exact hturn.leads_isReconnect rfl (h.leads hrunning)

end Outcome

theorem ofOutcome {bus : Bus σ} (h : Orderly s) (hstep : step bus s .run = some s')
    (hintime : NoticedInTime s .run) : Orderly s' := by
  obtain ⟨r, rest, posted, hturn, houtcome⟩ := outcome_of_step hstep
  have hhead : r ∈ s.queue.head? := by
    rw [hturn.queue]
    rfl
  have hsingle := h.disciplined.single
  rw [hturn.waiting_before, hturn.connecting_before] at hsingle
  have hwaiting := hturn.waiting_after
  have hconnecting := hturn.connecting_after
  generalize hl : s'.link = l at houtcome
  have hkept {α : Type} (field : Link → α) (hsame : field l = field s.link) :
      field s'.link = field s.link := (congrArg field hl).trans hsame
  have hquiet (hneeds : r.needsSession = true) (hstopped : l.stopped = s.link.stopped)
      (hclosed : l.closed = s.link.closed) (hflag : l.reconnectFlag = s.link.reconnectFlag)
      (hconnects : l.connects = s.link.connects)
      (hwaits : l.reconnectWaits = s.link.reconnectWaits) : Orderly s' :=
    h.handled hturn hneeds ⟨hkept _ hstopped, hkept _ hclosed, hkept _ hflag⟩
      (hkept _ hconnects) (hkept _ hwaits)
  cases houtcome with
  | connected op msgs hopen hop =>
      exact h.begins hturn rfl ((congrArg Link.closed hl).trans rfl)
        ((congrArg Link.reconnectFlag hl).trans rfl) (hkept _ rfl) (hkept _ rfl)
  | connectFailed ec msgs hfailed =>
      have hwaits : s'.link.reconnectWaits.length ≤ s.link.reconnectWaits.length + 1 := by
        rw [hl]
        exact Link.length_reconnectWaits_lost_le _
      obtain ⟨_, _, _, hlost⟩ := Link.onlyReconnects_lost { s.state.client.link with isOpen := false }
      rw [hlost] at hl hkept
      exact h.connectFails hturn rfl ((congrArg Link.stopped hl).trans rfl) (hkept _ rfl) hwaits
  | ignored r hneeds hstopped => exact hquiet hneeds rfl rfl rfl rfl rfl
  | lost r reads msgs hrunning hlost =>
      have hwaits : s'.link.reconnectWaits.length = s.link.reconnectWaits.length +
          if s.link.clientConfig.isReconnect = true ∧
            (s.link.reconnectFlag = 0 ∨ s.link.reconnectExpiry ≤ s.link.now) then 1 else 0 := by
        rw [hl]
        exact Link.length_reconnectWaits_lost _
      have hneeds := needsSession_of_losesSession hlost
      obtain ⟨_, _, _, hlink⟩ :=
        Link.onlyReconnects_lost { s.link with reads := s.state.client.io.reads ++ reads }
      have hl := hl.trans hlink
      obtain ⟨hidle, hone, -⟩ := h.loses hturn hneeds hrunning
        ((congrArg Link.connects hl).trans rfl) hwaits fun harms => by
          have hconfig : s.state.client.clientConfig.isReconnect = true := harms.1
          have hnoticed := hintime hrunning ⟨r, hhead, by simp [noticesLoss, hlost, hconfig]⟩
          exact harms.2.elim id fun hexpired => hnoticed.resolve_right (Nat.not_lt.mpr hexpired)
      exact .ofStopped ((congrArg Link.stopped hl).trans rfl) (by omega)
  | heartbeatLost hrunning hmissed =>
      exact h.losesHeartbeat hturn hrunning
        (hintime hrunning ⟨_, hhead, by simp [noticesLoss, hmissed]⟩) hl
  | beat msgs hrunning hmissed => exact hquiet rfl rfl rfl rfl rfl rfl
  | read op next msgs hrunning hlost hnext => exact hquiet rfl rfl rfl rfl rfl rfl
  | written op hrunning =>
      obtain ⟨_, _, _, hwritten⟩ := Link.onlyWrites_written s.state.client.link
      rw [hwritten] at hquiet
      exact hquiet rfl rfl rfl rfl rfl rfl
  | accepted msg hrunning =>
      obtain ⟨_, _, _, haccept⟩ := Link.onlyWrites_accept s.state.client.link msg
      rw [haccept] at hquiet
      exact hquiet rfl rfl rfl rfl rfl rfl
  | closed msgs =>
      rw [hkept Link.reconnectWaits rfl] at hwaiting
      rw [hkept Link.connects rfl] at hconnecting
      exact .ofStopped ((congrArg Link.stopped hl).trans rfl) (by omega)
  | reconnect =>
      have hconnects : s'.link.connects = s.link.connects + 1 :=
        (congrArg Link.connects hl).trans rfl
      rw [hkept Link.reconnectWaits rfl] at hwaiting
      simp only [Ready.isReconnect, if_true] at hsingle
      have hstopped : s.link.stopped = true := by
        -- the session that started the wait was closed before the wait was over
        by_contra hrun
        have hleads := h.leads (by simpa using hrun)
        rw [hturn.queue] at hleads
        exact hleads.not_head (by simp [Ready.isClose]) rfl
      exact .ofStopped ((hkept Link.stopped rfl).trans hstopped) (by omega)

/-- A second reconnect begins when a loss is noticed again after the timer has expired. -/
theorem noticedInTime {bus : Bus σ} {e : Event} (h : Orderly s) (hstep : step bus s e = some s')
    (hdisciplined : Disciplined s') : NoticedInTime s e := by
  cases e with
  | env e => trivial
  | run =>
      rintro hrun ⟨r', hhead, hloss⟩
      obtain ⟨r, rest, posted, hturn, houtcome⟩ := outcome_of_step hstep
      obtain rfl : r = r' := by simpa [hturn.queue] using hhead
      by_contra hlate
      obtain ⟨hflag, hexpired⟩ := not_or.mp hlate
      rw [Nat.not_lt] at hexpired
      have hbefore := h.waits hrun
      rw [if_neg hflag] at hbefore
      have hafter := hdisciplined.single
      have htwo (hneeds : r.needsSession = true)
          (hwaits : s'.link.reconnectWaits.length = s.link.reconnectWaits.length + 1) : False := by
        have hcounts := (hturn.counts hneeds).1
        omega
      generalize hl : s'.link = l at houtcome
      cases houtcome with
      | ignored r hneeds hstopped =>
          have hstopped' : s.link.stopped = true := hstopped
          rw [hstopped'] at hrun
          cases hrun
      | lost r reads msgs hrunning hlost =>
          have hneeds := needsSession_of_losesSession hlost
          have hconfig : s.link.clientConfig.isReconnect = true := by
            cases r with
            | checkHeartbeat => cases hlost
            | _ =>
                simp only [noticesLoss, hlost, Bool.true_and, reduceCtorEq, decide_false,
                  Bool.false_and, Bool.or_false] at hloss
                exact hloss
          refine htwo hneeds ?_
          rw [hl]
          refine (Link.length_reconnectWaits_lost _).trans ?_
          rw [if_pos ⟨hconfig, .inr hexpired⟩]
          rfl
      | heartbeatLost hrunning hmissed =>
          refine htwo rfl ?_
          rw [hl]
          refine (Link.length_reconnectWaits_startReconnect _).trans ?_
          rw [if_pos (.inr hexpired)]
          rfl
      | beat msgs hrunning hmissed =>
          rw [noticesLoss, hmissed, Bool.and_false, Bool.or_false] at hloss
          cases hloss
      | read op next msgs hrunning hlost hnext =>
          rw [noticesLoss, hlost] at hloss
          cases hloss
      | _ => cases hloss

end Orderly

/-- In every run, for every order in which operations complete, there is at most one reconnect at
any time and no connect while a session runs, if and only if no loss of a running session is
noticed when a reconnect was already started for it and the reconnect timer has expired. -/
theorem disciplined_iff (bus : Bus σ) {cfg : ClientConfig} {sub : σ} {events : List Event}
    {s : IoLoop σ} (hrun : run (step bus) (start cfg sub) events = some s) :
    (∀ before m, before <+: events → run (step bus) (start cfg sub) before = some m →
        Disciplined m) ↔
      AllSteps (step bus) NoticedInTime (start cfg sub) events := by
  have hinit : Orderly (start cfg sub) := .ofStopped rfl le_rfl
  have hkeep : ∀ s e s', Orderly s → NoticedInTime s e → step bus s e = some s' → Orderly s' := by
    intro s e s' h hintime hstep
    cases e with
    | env e => exact h.ofProgress hstep
    | run => exact h.ofOutcome hstep hintime
  exact prefixes_iff_of_guarded hkeep (fun s h => h.disciplined)
    (fun s e s' h hstep hdisciplined => h.noticedInTime hstep hdisciplined) hinit hrun

/-! ## A session that is lost once and one that is lost twice -/

def reconnecting : List Event :=
  threePeriods ++ heartbeatPeriod ++ [.run, .env (.tick 5000), .env (.reconnectDue 0), .run,
    .env (.connectDone false), .run]

theorem disciplined_reconnecting :
    ∃ s, run (step idleBus) (start sampleConfig ()) reconnecting = some s ∧ Disciplined s := by
  have hsteps : (run (step idleBus) (start sampleConfig ()) reconnecting).isSome ∧
      AllSteps (step idleBus) NoticedInTime (start sampleConfig ()) reconnecting := by
    decide +kernel
  obtain ⟨s, hrun⟩ := Option.isSome_iff_exists.mp hsteps.1
  exact ⟨s, hrun, (disciplined_iff idleBus hrun).mpr hsteps.2 _ s (List.prefix_refl _) hrun⟩

/-- The read fails when the heartbeat is lost, before the session is closed. -/
def lostTwice : List Event :=
  threePeriods ++ [.env (.tick 10000), .env (.heartbeatDue 0), .env (.readDone 0 true), .run, .run,
    .run, .env (.reconnectDue 0), .env (.reconnectDue 0), .run, .run]

/-- With a reconnect interval of zero two connects are outstanding then. -/
theorem connects_twice : ¬ ∀ (cfg : ClientConfig) (events : List Event) (s : IoLoop Unit),
    run (step idleBus) (start cfg ()) events = some s → Disciplined s := by
  intro h
  have hbad : ∃ s ∈ run (step idleBus) (start { sampleConfig with reconnectInterval := 0 } ())
      lostTwice, s.connecting = 2 := by
    decide +kernel
  obtain ⟨s, hrun, htwo⟩ := hbad
  have hsingle := (h _ lostTwice s hrun).single
  omega

end IoLoop

end CloudEdgePush.Client
