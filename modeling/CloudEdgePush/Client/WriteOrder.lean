import Mathlib.Data.List.Infix
import CloudEdgePush.Client.WriteQueue

/-!
# What is written on a connection

The handlers keep `WriteControl` and `WriteLog`, one lemma for each way in which a session begins,
goes on, writes or ends.  So what is started on a connection is a prefix of what was accepted on
it, unless a reconnect begins in a running session: that does not drop the queue, and what is left
in it is written on the new connection.
-/

namespace CloudEdgePush.Client.IoLoop

open CloudEdgePush.Lib CloudEdgePush.Lib.Bytes CloudEdgePush.Lib.Transition
open CloudEdgePush.Lib.EventLoop CloudEdgePush.Lib.Fifo TcpClientImpl

variable {σ : Type} {s s' : IoLoop σ}

/-! ## The handlers -/

theorem WriteControl.ofNoConnect (hsocket : 0 < s.link.connects → s.link.isOpen = false)
    (hclosing : s.link.stopped = false → s.link.closed = true → ∃ r ∈ s.queue, r.isClose = true)
    (hleftover : s.link.stopped = true → s.link.writeMsgs ≠ [] → ∃ r ∈ s.queue, r.isClose = true)
    (hnone : ∀ r ∈ s.queue, r.isConnect = false) : WriteControl s := by
  have hnot : ∀ r ∈ s.queue, ¬r.isConnect = true := fun r hr => by simp [hnone r hr]
  refine ⟨hsocket, hclosing, fun hended hleft => ⟨hleftover hended hleft, .of_forall_not hnot⟩, ?_,
    ?_⟩
  · rintro ⟨r, hr, hconnect⟩
    exact absurd hconnect (hnot r hr)
  · exact List.pairwise_of_forall_mem_list fun r hr _ _ hconnect => absurd hconnect (hnot r hr)

/-- A running session: what it accepted and started is known from its queue. -/
theorem WriteLog.ofSession (h : WriteLog s) (acceptedNow : List (Nat × TcpMessage))
    (startedNow : List (Nat × Bytes))
    (haccepted : s'.state.accepted = s.state.accepted ++ acceptedNow)
    (hstarted : s'.link.started = s.link.started ++ startedNow)
    (hconnection : s'.link.connection = s.link.connection)
    (hacceptedNow : ∀ entry ∈ acceptedNow, entry.1 = s.link.connection)
    (hstartedNow : ∀ entry ∈ startedNow, entry.1 = s.link.connection)
    (hnone : ∀ r ∈ s'.queue, r.isConnect = false)
    (hpending : s'.pendingWrites = (s'.link.writeMsgs.take 1).length)
    (hflight : InFlight ((s'.acceptedOn s.link.connection).map writeBuffer)
      (s'.startedOn s.link.connection) (s'.link.writeMsgs.map writeBuffer)) : WriteLog s' := by
  refine ⟨?_, ?_, ?_, ?_, fun _ => ⟨hpending, ?_⟩, ?_⟩
  · rw [hpending]
    exact List.length_take_le 1 _
  · rw [haccepted, hconnection]
    intro entry hentry
    rcases List.mem_append.mp hentry with hold | hnew
    · exact h.accepted entry hold
    · exact (hacceptedNow entry hnew).le
  · rw [hstarted, hconnection]
    intro entry hentry
    rcases List.mem_append.mp hentry with hold | hnew
    · exact h.started entry hold
    · exact (hstartedNow entry hnew).le
  · rintro ⟨r, hr, hconnect⟩
    rw [hnone r hr] at hconnect
    cases hconnect
  · rw [hconnection]
    exact hflight
  · intro connection
    by_cases hcurrent : connection = s.link.connection
    · rw [hcurrent]
      exact hflight.started_prefix
    · have hother {α : Type} {log : List (Nat × α)} (hlog : ∀ entry ∈ log,
          entry.1 = s.link.connection) : tagged connection log = [] := by
        refine tagged_eq_nil fun entry hentry => ?_
        rw [hlog entry hentry]
        exact Ne.symm hcurrent
      unfold acceptedOn startedOn
      rw [haccepted, hstarted, tagged_append, tagged_append, hother hacceptedNow,
        hother hstartedNow, List.append_nil, List.append_nil]
      exact h.prefixes connection

section Handlers

variable {r : Ready} {rest : List Ready} {posted : List Posted}

theorem pendingWrites_before (hturn : Turn s s' r rest posted) :
    s.pendingWrites =
      s.link.writes.length + rest.countP Ready.isWrite + if r.isWrite = true then 1 else 0 := by
  simp only [pendingWrites, hturn.queue, List.countP_cons]
  omega

theorem pendingWrites_after (hturn : Turn s s' r rest posted) :
    s'.pendingWrites = s'.link.writes.length + rest.countP Ready.isWrite := by
  simp [pendingWrites, hturn.queue']

theorem pendingWrites_le (hturn : Turn s s' r rest posted)
    (hwrites : s'.link.writes = s.link.writes) : s'.pendingWrites ≤ s.pendingWrites := by
  rw [pendingWrites_before hturn, pendingWrites_after hturn, hwrites]
  omega

theorem noConnect_after (hturn : Turn s s' r rest posted)
    (hnone : rest.countP Ready.isConnect = 0) : ∀ later ∈ s'.queue, later.isConnect = false := by
  intro later hlater
  by_contra hconnect
  rw [Bool.not_eq_false] at hconnect
  have hmem : later ∈ rest := by
    refine hturn.mem_of_not_posted hlater ?_
    rintro p rfl
    cases hconnect
  exact List.countP_eq_zero.mp hnone later hmem hconnect

theorem ConnectsApart.noConnect_of_running (hapart : ConnectsApart s)
    (hturn : Turn s s' r rest posted) (hrunning : s.link.stopped = false) :
    s.link.connects = 0 ∧ ∀ later ∈ s'.queue, later.isConnect = false := by
  have hnone := hapart.running hrunning
  rw [hturn.connecting_before] at hnone
  exact ⟨by omega, noConnect_after hturn (by omega)⟩

theorem ConnectsApart.noConnect_of_connect (hapart : ConnectsApart s)
    (hturn : Turn s s' r rest posted) (hconnect : r.isConnect = true) :
    s.link.connects = 0 ∧ ∀ later ∈ s'.queue, later.isConnect = false := by
  have hone := hapart.single
  rw [hturn.connecting_before, if_pos hconnect] at hone
  exact ⟨by omega, noConnect_after hturn (by omega)⟩

/-- When the handler of a connect runs, the queue of the session before it was dropped. -/
theorem WriteControl.empty_of_connect (h : WriteControl s) (hapart : ConnectsApart s)
    (hturn : Turn s s' r rest posted) (hconnect : r.isConnect = true) (hclose : r.isClose = false) :
    s.link.writeMsgs = [] := by
  by_contra hleft
  have hended : s.link.stopped = true := hapart.ended (by
    rw [hturn.connecting_before, if_pos hconnect]
    omega)
  have hleads := (h.leftover hended hleft).2
  rw [hturn.queue] at hleads
  exact hleads.not_head (by simp [hclose]) hconnect

theorem WriteControl.behind_after (h : WriteControl s) (hturn : Turn s s' r rest posted) :
    s'.queue.Pairwise fun r later => r.isConnect = true → later.isWrite = false := by
  have hbehind := h.behind
  rw [hturn.queue, List.pairwise_cons] at hbehind
  rw [hturn.queue']
  refine List.pairwise_append.mpr ⟨hbehind.2, ?_, ?_⟩
  · exact List.pairwise_of_forall_mem_list (by simp)
  · intro r _ later hlater _
    obtain ⟨p, -, rfl⟩ := List.mem_map.mp hlater
    rfl

theorem exists_connect_before (hturn : Turn s s' r rest posted)
    (h : ∃ later ∈ s'.queue, later.isConnect = true) :
    ∃ later ∈ s.queue, later.isConnect = true := by
  obtain ⟨later, hlater, hconnect⟩ := h
  have hmem : later ∈ rest := by
    refine hturn.mem_of_not_posted hlater ?_
    rintro p rfl
    cases hconnect
  refine ⟨later, ?_, hconnect⟩
  rw [hturn.queue]
  exact List.mem_cons_of_mem _ hmem

structure SameWriter (s s' : IoLoop σ) : Prop where
  accepted : s'.state.accepted = s.state.accepted
  started : s'.link.started = s.link.started
  connection : s'.link.connection = s.link.connection
  writes : s'.link.writes = s.link.writes

theorem sameWriter_of_turn (hturn : Turn s s' r rest posted)
    (haccepts : s.state.client.acceptedBy r = none) (hstarted : s'.link.started = s.link.started)
    (hconnection : s'.link.connection = s.link.connection)
    (hwrites : s'.link.writes = s.link.writes) : SameWriter s s' := by
  refine ⟨?_, hstarted, hconnection, hwrites⟩
  rw [hturn.accepted, haccepts]
  exact List.append_nil _

theorem WriteLog.ofStopped (h : WriteLog s) (hturn : Turn s s' r rest posted)
    (hsame : SameWriter s s') (hended : s'.link.stopped = true)
    (hopen : s'.link.isOpen = true → s.link.isOpen = true) : WriteLog s' := by
  refine h.ofSame hsame.accepted hsame.started hsame.connection (pendingWrites_le hturn hsame.writes)
    (fun hrunning => ?_) fun hconnect hopen' => ?_
  · rw [hended] at hrunning
    cases hrunning
  · exact ⟨exists_connect_before hturn hconnect, hopen hopen'⟩

theorem writer_begins (hcontrol : WriteControl s) (hlog : WriteLog s) (hapart : ConnectsApart s)
    (hturn : Turn s s' (.handleConnect false) rest posted) (hsame : SameWriter s s')
    (hopen : s.link.isOpen = true) (hstopped : s'.link.stopped = false)
    (hclosed : s'.link.closed = false) (hmsgs : s'.link.writeMsgs = s.link.writeMsgs)
    (hconnects : s'.link.connects = s.link.connects) : WriteControl s' ∧ WriteLog s' := by
  obtain ⟨hzero, hnone⟩ := hapart.noConnect_of_connect hturn rfl
  have hqueued : ∃ later ∈ s.queue, later.isConnect = true :=
    ⟨_, by rw [hturn.queue]; exact List.mem_cons_self, rfl⟩
  have hempty := hcontrol.empty_of_connect hapart hturn rfl rfl
  have hbehind := hcontrol.behind
  rw [hturn.queue, List.pairwise_cons] at hbehind
  have hrest : rest.countP Ready.isWrite = 0 :=
    List.countP_eq_zero.mpr fun later hlater => by simp [hbehind.1 later hlater rfl]
  obtain ⟨hon, hfrom⟩ := hlog.fresh hqueued hopen
  constructor
  · refine .ofNoConnect (fun hpos => ?_) (fun _ hclosed' => ?_) (fun hended => ?_) hnone
    · omega
    · rw [hclosed] at hclosed'
      cases hclosed'
    · rw [hstopped] at hended
      cases hended
  · refine hlog.ofSession [] [] ?_ ?_ hsame.connection nofun nofun hnone ?_ ?_
    · rw [hsame.accepted, List.append_nil]
    · rw [hsame.started, List.append_nil]
    · rw [pendingWrites_after hturn, hsame.writes, hcontrol.finished hqueued, hrest, hmsgs, hempty]
      rfl
    · unfold acceptedOn at hon ⊢
      unfold startedOn at hfrom ⊢
      rw [hsame.accepted, hsame.started, hon, hfrom, hmsgs, hempty]
      exact .empty

theorem writer_goesOn (hlog : WriteLog s) (hapart : ConnectsApart s)
    (hturn : Turn s s' r rest posted) (hsame : SameWriter s s') (hwrite : r.isWrite = false)
    (hrunning : s.link.stopped = false) (hstopped : s'.link.stopped = s.link.stopped)
    (hmsgs : s'.link.writeMsgs = s.link.writeMsgs) (hconnects : s'.link.connects = s.link.connects)
    (hclosing : s'.link.closed = true → ∃ later ∈ s'.queue, later.isClose = true) :
    WriteControl s' ∧ WriteLog s' := by
  obtain ⟨hzero, hnone⟩ := hapart.noConnect_of_running hturn hrunning
  have hpending : s'.pendingWrites = s.pendingWrites := by
    rw [pendingWrites_before hturn, pendingWrites_after hturn, hsame.writes, if_neg (by simp [hwrite])]
    omega
  constructor
  · refine .ofNoConnect (fun hpos => ?_) (fun _ => hclosing) (fun hended => ?_) hnone
    · omega
    · rw [hstopped, hrunning] at hended
      cases hended
  · refine hlog.ofSame hsame.accepted hsame.started hsame.connection hpending.le
      (fun _ => ⟨hrunning, hpending, hmsgs⟩) ?_
    rintro ⟨later, hlater, hconnect⟩
    rw [hnone later hlater] at hconnect
    cases hconnect

theorem writer_loses (hlog : WriteLog s) (hapart : ConnectsApart s)
    (hturn : Turn s s' r rest posted) (hsame : SameWriter s s') (hrunning : s.link.stopped = false)
    (hended : s'.link.stopped = true) (hconnects : s'.link.connects = s.link.connects)
    (hopen : s'.link.isOpen = s.link.isOpen) (hclose : ∃ later ∈ s'.queue, later.isClose = true) :
    WriteControl s' ∧ WriteLog s' := by
  obtain ⟨hzero, hnone⟩ := hapart.noConnect_of_running hturn hrunning
  refine ⟨.ofNoConnect (fun hpos => ?_) (fun _ _ => hclose) (fun _ _ => hclose) hnone,
    hlog.ofStopped hturn hsame hended hopen.symm.trans⟩
  omega

theorem writer_connectFails (hcontrol : WriteControl s) (hlog : WriteLog s)
    (hapart : ConnectsApart s) (hturn : Turn s s' r rest posted) (hconnect : r.isConnect = true)
    (hclose : r.isClose = false) (hsame : SameWriter s s') (hended : s'.link.stopped = true)
    (hmsgs : s'.link.writeMsgs = s.link.writeMsgs) (hopen : s'.link.isOpen = false) :
    WriteControl s' ∧ WriteLog s' := by
  obtain ⟨-, hnone⟩ := hapart.noConnect_of_connect hturn hconnect
  have hempty := hcontrol.empty_of_connect hapart hturn hconnect hclose
  refine ⟨.ofNoConnect (fun _ => hopen) (fun hrunning => ?_) (fun _ hleft => ?_) hnone,
    hlog.ofStopped hturn hsame hended fun hopen' => ?_⟩
  · rw [hended] at hrunning
    cases hrunning
  · exact absurd (hmsgs.trans hempty) hleft
  · rw [hopen] at hopen'
    cases hopen'

theorem writer_ignores (hcontrol : WriteControl s) (hlog : WriteLog s)
    (hturn : Turn s s' r rest posted) (hsame : SameWriter s s') (hneeds : r.needsSession = true)
    (hended : s.link.stopped = true) (hlink : s'.link = s.link) :
    WriteControl s' ∧ WriteLog s' := by
  refine ⟨⟨?_, fun hrunning => ?_, ?_, fun h => ?_, hcontrol.behind_after hturn⟩,
    hlog.ofStopped hturn hsame (by rw [hlink, hended]) (by rw [hlink]; exact id)⟩
  · rw [hlink]
    exact hcontrol.socket
  · rw [hlink, hended] at hrunning
    cases hrunning
  · rw [hlink]
    intro _ hleft
    obtain ⟨hclose, hleads⟩ := hcontrol.leftover hended hleft
    have hnot : ¬r.isClose = true := by simp [Ready.isClose_of_needsSession hneeds]
    obtain ⟨later, hlater, hclose⟩ := hturn.exists_isClose hneeds hclose
    rw [hturn.queue] at hleads
    rw [hturn.queue']
    exact ⟨⟨later, List.mem_append_left _ hlater, hclose⟩,
      (hleads.tail hnot).append ⟨later, hlater, hclose⟩⟩
  · rw [hlink]
    exact hcontrol.finished (exists_connect_before hturn h)

/-- `doClose` drops what was not sent. -/
theorem writer_closes (hcontrol : WriteControl s) (hlog : WriteLog s)
    (hturn : Turn s s' r rest posted) (hsame : SameWriter s s') (hended : s'.link.stopped = true)
    (hmsgs : s'.link.writeMsgs = []) (hopen : s'.link.isOpen = false) :
    WriteControl s' ∧ WriteLog s' := by
  refine ⟨⟨fun _ => hopen, fun hrunning => ?_, fun _ hleft => absurd hmsgs hleft, fun h => ?_,
    hcontrol.behind_after hturn⟩, hlog.ofStopped hturn hsame hended fun hopen' => ?_⟩
  · rw [hended] at hrunning
    cases hrunning
  · rw [hsame.writes]
    exact hcontrol.finished (exists_connect_before hturn h)
  · rw [hopen] at hopen'
    cases hopen'

/-- A connect is started: no session runs, and the `doClose` of the last one comes first. -/
theorem writer_connects (hcontrol : WriteControl s) (hlog : WriteLog s) (hapart' : ConnectsApart s')
    (hturn : Turn s s' .doReconnect rest posted) (hsame : SameWriter s s')
    (hstopped : s'.link.stopped = s.link.stopped) (hmsgs : s'.link.writeMsgs = s.link.writeMsgs)
    (hconnects : 0 < s'.link.connects) (hopen : s'.link.isOpen = false) :
    WriteControl s' ∧ WriteLog s' := by
  have hended : s'.link.stopped = true :=
    hapart'.ended (Nat.lt_of_lt_of_le hconnects (Nat.le_add_right _ _))
  have hone := hapart'.1
  rw [hturn.connecting_after] at hone
  refine ⟨.ofNoConnect (fun _ => hopen) (fun hrunning => ?_) (fun _ hleft => ?_)
    (noConnect_after hturn (by omega)), hlog.ofStopped hturn hsame hended fun hopen' => ?_⟩
  · rw [hended] at hrunning
    cases hrunning
  · rw [hmsgs] at hleft
    obtain ⟨⟨later, hlater, hclose⟩, -⟩ := hcontrol.leftover (hstopped.symm.trans hended) hleft
    refine ⟨later, hturn.mem_of_rest (hturn.mem_rest hlater ?_), hclose⟩
    rintro rfl
    cases hclose
  · rw [hopen] at hopen'
    cases hopen'

theorem writer_writes (hcontrol : WriteControl s) (hlog : WriteLog s) (hapart : ConnectsApart s)
    (hturn : Turn s s' r rest posted) (hneeds : r.needsSession = true)
    (hrunning : s.link.stopped = false) (acceptedNow : List (Nat × TcpMessage))
    (startedNow : List (Nat × Bytes))
    (hl : s'.link = { s.link with
      writeMsgs := s'.link.writeMsgs
      writes := s'.link.writes
      started := s.link.started ++ startedNow })
    (haccepted : s'.state.accepted = s.state.accepted ++ acceptedNow)
    (hacceptedNow : ∀ entry ∈ acceptedNow, entry.1 = s.link.connection)
    (hstartedNow : ∀ entry ∈ startedNow, entry.1 = s.link.connection)
    (hpending : s'.pendingWrites = (s'.link.writeMsgs.take 1).length)
    (hflight : InFlight ((s'.acceptedOn s.link.connection).map writeBuffer)
      (s'.startedOn s.link.connection) (s'.link.writeMsgs.map writeBuffer)) :
    WriteControl s' ∧ WriteLog s' := by
  obtain ⟨hzero, hnone⟩ := hapart.noConnect_of_running hturn hrunning
  have hconnects : s'.link.connects = s.link.connects := (congrArg Link.connects hl).trans rfl
  have hstopped : s'.link.stopped = s.link.stopped := (congrArg Link.stopped hl).trans rfl
  have hclosed : s'.link.closed = s.link.closed := (congrArg Link.closed hl).trans rfl
  refine ⟨.ofNoConnect (fun hpos => ?_) (fun _ hclosed' => ?_) (fun hended => ?_) hnone,
    hlog.ofSession _ _ haccepted ((congrArg Link.started hl).trans rfl)
      ((congrArg Link.connection hl).trans rfl) hacceptedNow hstartedNow hnone hpending hflight⟩
  · omega
  · rw [hclosed] at hclosed'
    obtain ⟨later, hlater, hclose⟩ :=
      hturn.exists_isClose hneeds (hcontrol.closing hrunning hclosed')
    exact ⟨later, hturn.mem_of_rest hlater, hclose⟩
  · rw [hstopped, hrunning] at hended
    cases hended

theorem writer_written (hcontrol : WriteControl s) (hlog : WriteLog s) (hapart : ConnectsApart s)
    {op : WriteOp} (hturn : Turn s s' (.handleWrite op false) rest posted)
    (hrunning : s.link.stopped = false) (hl : s'.link = s.link.written) :
    WriteControl s' ∧ WriteLog s' := by
  obtain ⟨hpending, hflight⟩ := hlog.session hrunning
  rw [pendingWrites_before hturn] at hpending
  simp only [Ready.isWrite, if_true] at hpending
  have haccepted : s'.state.accepted = s.state.accepted ++ [] := hturn.accepted
  have hon : s'.acceptedOn s.link.connection = s.acceptedOn s.link.connection := by
    unfold acceptedOn
    rw [haccepted, List.append_nil]
  have hcount := pendingWrites_after hturn
  unfold Link.written at hl
  cases hmsgs : s.link.writeMsgs with
  | nil =>
      rw [hmsgs] at hpending
      simp at hpending
  | cons msg msgs =>
      rw [hmsgs] at hpending hflight hl
      rw [List.take_succ_cons, List.take_zero, List.length_singleton] at hpending
      cases msgs with
      | nil =>
          have hl : s'.link = { s.link with writeMsgs := [] } := hl
          refine writer_writes hcontrol hlog hapart hturn rfl hrunning [] [] ?_ haccepted (by simp)
            (by simp) ?_ ?_
          · rw [hl, List.append_nil]
          · rw [hcount, hl]
            simp only [List.take_nil, List.length_nil]
            omega
          · unfold startedOn at hflight ⊢
            rw [hon, hl]
            exact hflight.pop_last
      | cons next msgs =>
          have hl : s'.link = { s.link with writeMsgs := next :: msgs }.doWrite next := hl
          refine writer_writes hcontrol hlog hapart hturn rfl hrunning []
            [(s.link.connection, writeBuffer next)] ?_ haccepted (by simp) (by simp)
            ?_ ?_
          · rw [hl]
            rfl
          · rw [hcount, hl]
            simp only [Link.doWrite, List.length_append, List.length_singleton, List.take_succ_cons,
              List.take_zero]
            omega
          · unfold startedOn at hflight ⊢
            rw [hon, hl]
            simp only [Link.doWrite, tagged_append, tagged_singleton]
            exact hflight.pop

theorem writer_accepts (hcontrol : WriteControl s) (hlog : WriteLog s) (hapart : ConnectsApart s)
    {msg : TcpMessage} (hturn : Turn s s' (.posted (.startWrite msg)) rest posted)
    (hrunning : s.link.stopped = false) (hl : s'.link = s.link.accept msg) :
    WriteControl s' ∧ WriteLog s' := by
  obtain ⟨hpending, hflight⟩ := hlog.session hrunning
  rw [pendingWrites_before hturn] at hpending
  simp only [Ready.isWrite_posted, Bool.false_eq_true, if_false] at hpending
  have haccepted : s'.state.accepted = s.state.accepted ++ [(s.link.connection, msg)] := by
    have hrunning' : s.state.client.stopped = false := hrunning
    rw [hturn.accepted, acceptedBy, hrunning']
    rfl
  have hon : s'.acceptedOn s.link.connection = s.acceptedOn s.link.connection ++ [msg] := by
    unfold acceptedOn
    rw [haccepted, tagged_append, tagged_singleton]
  have hcount := pendingWrites_after hturn
  unfold Link.accept at hl
  cases hmsgs : s.link.writeMsgs with
  | nil =>
      rw [hmsgs] at hpending hflight hl
      have hl : s'.link = { s.link with writeMsgs := [msg] }.doWrite msg := hl
      refine writer_writes hcontrol hlog hapart hturn rfl hrunning [(s.link.connection, msg)]
        [(s.link.connection, writeBuffer msg)] ?_ haccepted (by simp) (by simp) ?_ ?_
      · rw [hl]
        rfl
      · rw [hcount, hl]
        simp only [Link.doWrite, List.length_append, List.length_singleton, List.take_succ_cons,
          List.take_nil, List.length_nil] at hpending ⊢
        omega
      · unfold startedOn at hflight ⊢
        rw [hon, hl]
        simp only [Link.doWrite, tagged_append, tagged_singleton, List.map_append]
        exact hflight.push_empty
  | cons front msgs =>
      rw [hmsgs] at hpending hflight hl
      have hl : s'.link = { s.link with writeMsgs := front :: msgs ++ [msg] } := hl
      refine writer_writes hcontrol hlog hapart hturn rfl hrunning [(s.link.connection, msg)] [] ?_
        haccepted (by simp) (by simp) ?_ ?_
      · rw [hl, List.append_nil]
      · rw [hcount, hl]
        simpa using hpending
      · unfold startedOn at hflight ⊢
        rw [hon, hl]
        simp only [List.map_append, List.map_cons, List.map_nil, List.cons_append] at hflight ⊢
        exact hflight.push

end Handlers

theorem writer_ofOutcome {bus : Bus σ} (hcontrol : WriteControl s) (hlog : WriteLog s)
    (hapart : ConnectsApart s) (hapart' : ConnectsApart s')
    (hstep : step bus s .run = some s') : WriteControl s' ∧ WriteLog s' := by
  obtain ⟨r, rest, posted, hturn, houtcome⟩ := outcome_of_step hstep
  generalize hl : s'.link = l at houtcome
  have hkept {α : Type} (field : Link → α) (hsame : field l = field s.link) :
      field s'.link = field s.link := (congrArg field hl).trans hsame
  have hsame (haccepts : s.state.client.acceptedBy r = none) (hstarted : l.started = s.link.started)
      (hconnection : l.connection = s.link.connection) (hwrites : l.writes = s.link.writes) :
      SameWriter s s' :=
    sameWriter_of_turn hturn haccepts (hkept _ hstarted) (hkept _ hconnection) (hkept _ hwrites)
  have hclosing (hneeds : r.needsSession = true) (hrunning : s.link.stopped = false)
      (hclosed : s.link.closed = true) : ∃ later ∈ rest, later.isClose = true :=
    hturn.exists_isClose hneeds (hcontrol.closing hrunning hclosed)
  have hstays (hneeds : r.needsSession = true) (hrunning : s.link.stopped = false)
      (hsame : l.closed = s.link.closed) (hclosed : s'.link.closed = true) :
      ∃ later ∈ s'.queue, later.isClose = true := by
    rw [hkept Link.closed hsame] at hclosed
    obtain ⟨later, hlater, hclose⟩ := hclosing hneeds hrunning hclosed
    exact ⟨later, hturn.mem_of_rest hlater, hclose⟩
  cases houtcome with
  | connected op msgs hopen hop =>
      exact writer_begins hcontrol hlog hapart hturn (hsame rfl rfl rfl rfl) hopen
        ((congrArg Link.stopped hl).trans rfl) ((congrArg Link.closed hl).trans rfl) (hkept _ rfl)
        (hkept _ rfl)
  | connectFailed ec msgs hfailed =>
      obtain ⟨_, _, _, hlost⟩ :=
        Link.onlyReconnects_lost { s.state.client.link with isOpen := false }
      rw [hlost] at hl hkept hsame
      exact writer_connectFails hcontrol hlog hapart hturn rfl rfl (hsame rfl rfl rfl rfl)
        ((congrArg Link.stopped hl).trans rfl) (hkept _ rfl) ((congrArg Link.isOpen hl).trans rfl)
  | ignored r hneeds hstopped =>
      refine writer_ignores hcontrol hlog hturn (hsame ?_ rfl rfl rfl) hneeds hstopped hl
      cases r with
      | posted p =>
          cases p with
          | startWrite msg => exact if_pos hstopped
          | doClose => rfl
      | _ => rfl
  | lost r reads msgs hrunning hlost =>
      have hneeds := needsSession_of_losesSession hlost
      obtain ⟨_, _, _, hlink⟩ :=
        Link.onlyReconnects_lost { s.link with reads := s.state.client.io.reads ++ reads }
      have hl := hl.trans hlink
      have haccepts : s.state.client.acceptedBy r = none := by
        cases r with
        | posted p => cases hlost
        | _ => rfl
      refine writer_loses hlog hapart hturn (sameWriter_of_turn hturn haccepts
        ((congrArg Link.started hl).trans rfl) ((congrArg Link.connection hl).trans rfl)
        ((congrArg Link.writes hl).trans rfl)) hrunning ((congrArg Link.stopped hl).trans rfl)
        ((congrArg Link.connects hl).trans rfl) ((congrArg Link.isOpen hl).trans rfl) ?_
      rw [hturn.queue', List.map_append, ← List.append_assoc]
      refine Ready.exists_isClose fun hclosed => ?_
      obtain ⟨later, hlater, hclose⟩ := hclosing hneeds hrunning hclosed
      exact ⟨later, List.mem_append_left _ hlater, hclose⟩
  | heartbeatLost hrunning hmissed =>
      obtain ⟨_, _, _, hreconnect⟩ :=
        Link.onlyReconnects_startReconnect { s.link with closed := true }
      have hl := hl.trans hreconnect
      refine writer_goesOn hlog hapart hturn (sameWriter_of_turn hturn rfl
        ((congrArg Link.started hl).trans rfl) ((congrArg Link.connection hl).trans rfl)
        ((congrArg Link.writes hl).trans rfl)) rfl hrunning ((congrArg Link.stopped hl).trans rfl)
        ((congrArg Link.writeMsgs hl).trans rfl) ((congrArg Link.connects hl).trans rfl) fun _ => ?_
      rw [hturn.queue']
      exact Ready.exists_isClose (hclosing rfl hrunning)
  | beat msgs hrunning hmissed =>
      exact writer_goesOn hlog hapart hturn (hsame rfl rfl rfl rfl) rfl hrunning (hkept _ rfl)
        (hkept _ rfl) (hkept _ rfl) (hstays rfl hrunning rfl)
  | read op next msgs hrunning hlost hnext =>
      exact writer_goesOn hlog hapart hturn (hsame rfl rfl rfl rfl) rfl hrunning (hkept _ rfl)
        (hkept _ rfl) (hkept _ rfl) (hstays rfl hrunning rfl)
  | written op hrunning => exact writer_written hcontrol hlog hapart hturn hrunning hl
  | accepted msg hrunning => exact writer_accepts hcontrol hlog hapart hturn hrunning hl
  | closed msgs =>
      exact writer_closes hcontrol hlog hturn (hsame rfl rfl rfl rfl)
        ((congrArg Link.stopped hl).trans rfl) ((congrArg Link.writeMsgs hl).trans rfl)
        ((congrArg Link.isOpen hl).trans rfl)
  | reconnect =>
      have hconnects : s'.link.connects = s.link.connects + 1 :=
        (congrArg Link.connects hl).trans rfl
      exact writer_connects hcontrol hlog hapart' hturn (hsame rfl rfl rfl rfl) (hkept _ rfl)
        (hkept _ rfl) (by omega) ((congrArg Link.isOpen hl).trans rfl)

/-- Connects do not overlap, operations on a closed socket are over before the handlers that come
later, and no reconnect begins while a session runs: then at most one write is outstanding, in
every state that the client can reach and whatever completes in which order, and the frames
started on a connection are those of the first messages that `startWrite` accepted on that
connection, in order. -/
theorem started_prefix_accepted (bus : Bus σ) {cfg : ClientConfig} {sub : σ} {events : List Event}
    {s : IoLoop σ} (hrun : run (step bus) (start cfg sub) events = some s)
    (hsingle : ∀ before m, before <+: events → run (step bus) (start cfg sub) before = some m →
      m.connecting ≤ 1)
    (hprompt : AllSteps (step bus) ClosedSocketFirst (start cfg sub) events)
    (hreconnect : AllSteps (step bus) ReconnectsApart (start cfg sub) events) :
    s.pendingWrites ≤ 1 ∧
      ∀ connection, s.startedOn connection <+: (s.acceptedOn connection).map writeBuffer := by
  have hapart : ConnectsApart (start cfg sub) := ⟨le_rfl, nofun⟩
  have hcontrol : WriteControl (start cfg sub) :=
    ⟨fun _ => rfl, nofun, fun _ h => absurd rfl h, fun _ => rfl, .nil⟩
  have hlog : WriteLog (start cfg sub) :=
    ⟨Nat.zero_le 1, nofun, nofun, nofun, nofun, fun _ => List.nil_prefix⟩
  have hkeep : ∀ s e s', ConnectsApart s ∧ WriteControl s ∧ WriteLog s → s.connecting ≤ 1 →
      s'.connecting ≤ 1 → ClosedSocketFirst s e ∧ ReconnectsApart s e → step bus s e = some s' →
      ConnectsApart s' ∧ WriteControl s' ∧ WriteLog s' := by
    rintro s e s' ⟨hapart, hcontrol, hlog⟩ - hsingle' ⟨hprompt, hreconnect⟩ hstep
    have hapart' := hapart.next hsingle' hreconnect hstep
    refine ⟨hapart', ?_⟩
    cases e with
    | env e => exact writer_ofProgress hcontrol hlog hapart hprompt hstep
    | run => exact writer_ofOutcome hcontrol hlog hapart hapart' hstep
  obtain ⟨-, -, hlog⟩ := run_of_prefixes hkeep ⟨hapart, hcontrol, hlog⟩ hsingle
    (hprompt.and hreconnect) hrun
  exact ⟨hlog.single, hlog.prefixes⟩

/-! ## A session that is lost while it writes -/

/-- Two messages are accepted and the second is being written when the read fails; one message is
accepted on the next connection. -/
def lostWhileWriting : List Event :=
  [.env (.connectDone false), .run,
    .env (.write { body := [0x61] }), .env (.write { body := [0x62] }), .run, .run,
    .env (.writeDone 0 false), .run,
    .env (.readDone 0 true), .run, .run, .env (.writeDone 0 true), .run,
    .env (.tick 5000), .env (.reconnectDue 0), .run, .env (.connectDone false), .run,
    .env (.write { body := [0x63] }), .run]

theorem started_prefix_accepted_lostWhileWriting :
    ∃ s, run (step idleBus) (start sampleConfig ()) lostWhileWriting = some s ∧
      s.pendingWrites ≤ 1 ∧
        ∀ connection, s.startedOn connection <+: (s.acceptedOn connection).map writeBuffer := by
  have hsteps : (run (step idleBus) (start sampleConfig ()) lostWhileWriting).isSome ∧
      (∀ before ∈ lostWhileWriting.inits,
        ∀ m ∈ run (step idleBus) (start sampleConfig ()) before, m.connecting ≤ 1) ∧
      AllSteps (step idleBus) ClosedSocketFirst (start sampleConfig ()) lostWhileWriting ∧
      AllSteps (step idleBus) ReconnectsApart (start sampleConfig ()) lostWhileWriting := by
    decide +kernel
  obtain ⟨hsome, hsingle, hprompt, hreconnect⟩ := hsteps
  obtain ⟨s, hrun⟩ := Option.isSome_iff_exists.mp hsome
  refine ⟨s, hrun,
    started_prefix_accepted idleBus hrun (fun before m hbefore hm => ?_) hprompt hreconnect⟩
  exact hsingle before ((List.mem_inits _ _).mpr hbefore) m hm

/-- A lost heartbeat and a failed read start two reconnects; the second begins in the session that
the first has led to, when one message is written and the next is not. -/
def reconnectWhileWriting : List Event :=
  threePeriods ++ [.env (.tick 10000), .env (.heartbeatDue 0), .env (.readDone 0 true), .run,
    .env (.tick 5000), .run, .run, .env (.reconnectDue 0), .run, .env (.connectDone false), .run,
    .env (.write { body := [0x61] }), .env (.write { body := [0x62] }), .run, .run,
    .env (.tick 5000), .env (.reconnectDue 0), .env (.writeDone 0 false), .run,
    .env (.readDone 0 true), .env (.connectDone false), .run]

theorem started_on_later : ¬ ∀ (cfg : ClientConfig) (events : List Event) (s : IoLoop Unit),
    run (step idleBus) (start cfg ()) events = some s →
    (∀ before m, before <+: events → run (step idleBus) (start cfg ()) before = some m →
      m.connecting ≤ 1) →
    AllSteps (step idleBus) ClosedSocketFirst (start cfg ()) events →
    s.pendingWrites ≤ 1 ∧
      ∀ connection, s.startedOn connection <+: (s.acceptedOn connection).map writeBuffer := by
  intro h
  have hbad : ∃ s ∈ run (step idleBus) (start sampleConfig ()) reconnectWhileWriting,
      (s.startedOn 3).length = 1 ∧ s.acceptedOn 3 = [] := by
    decide +kernel
  have hsteps : (∀ before ∈ reconnectWhileWriting.inits,
        ∀ m ∈ run (step idleBus) (start sampleConfig ()) before, m.connecting ≤ 1) ∧
      AllSteps (step idleBus) ClosedSocketFirst (start sampleConfig ()) reconnectWhileWriting := by
    decide +kernel
  obtain ⟨s, hrun, hstarted, hnone⟩ := hbad
  obtain ⟨hsingle, hprompt⟩ := hsteps
  obtain ⟨-, hprefixes⟩ := h sampleConfig reconnectWhileWriting s hrun
    (fun before m hbefore hm => hsingle before ((List.mem_inits _ _).mpr hbefore) m hm) hprompt
  have hlength := (hprefixes 3).length_le
  rw [hstarted, hnone] at hlength
  cases hlength

end CloudEdgePush.Client.IoLoop
