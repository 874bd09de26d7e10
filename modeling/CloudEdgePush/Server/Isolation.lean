import Mathlib.Data.Set.Function
import CloudEdgePush.Server.Connections
import CloudEdgePush.Server.Turns

/-!
# Isolation of sessions

All sessions share three dictionaries, each under a key that is made of its address.  A turn of
a session changes the queues at its own key only (`Own`), and the map of the types at its own key
and at those that the full map drops (`dropped`); keys of different addresses are different
(`sessionid_inj`), as long as there is no underscore in an address: dots become underscores, and
underscores join the parts.
-/

namespace CloudEdgePush.Server

open CloudEdgePush.Lib.Transition
open CloudEdgePush.Server.MessagePacket CloudEdgePush.Server.MessageDef

/-! ## Session ids -/

theorem append_separator_inj {α : Type*} {sep : α} {front front' back back' : List α}
    (hback : sep ∉ back) (hback' : sep ∉ back')
    (h : front ++ sep :: back = front' ++ sep :: back') : front = front' ∧ back = back' := by
  rcases List.append_eq_append_iff.mp h with ⟨middle, hfront, hrest⟩ | ⟨middle, hfront, hrest⟩
  · cases middle with
    | nil =>
        rw [List.append_nil] at hfront
        exact ⟨hfront.symm, (List.cons.inj hrest).2⟩
    | cons x middle =>
        obtain ⟨-, htail⟩ := List.cons.inj hrest
        exact absurd (htail ▸ List.mem_append_right middle List.mem_cons_self) hback
  · cases middle with
    | nil =>
        rw [List.append_nil] at hfront
        exact ⟨hfront, (List.cons.inj hrest).2.symm⟩
    | cons x middle =>
        obtain ⟨-, htail⟩ := List.cons.inj hrest
        exact absurd (htail ▸ List.mem_append_right middle List.mem_cons_self) hback'

/-- `ngx.re.gsub(ip, "\\.", "_", "jo")`, for one character. -/
def undot (ch : Char) : Char := if ch = '.' then '_' else ch

theorem undot_inj {a b : Char} (ha : a ≠ '_') (hb : b ≠ '_') (h : undot a = undot b) : a = b := by
  unfold undot at h
  by_cases hadot : a = '.'
  · by_cases hbdot : b = '.'
    · exact hadot.trans hbdot.symm
    · rw [if_pos hadot, if_neg hbdot] at h
      exact absurd h.symm hb
  · by_cases hbdot : b = '.'
    · rw [if_neg hadot, if_pos hbdot] at h
      exact absurd h ha
    · rwa [if_neg hadot, if_neg hbdot] at h

theorem map_undot_inj {l l' : List Char} (hl : '_' ∉ l) (hl' : '_' ∉ l')
    (h : l.map undot = l'.map undot) : l = l' := by
  induction l generalizing l' with
  | nil => exact (List.map_eq_nil_iff.mp h.symm).symm
  | cons a l ih =>
      cases l' with
      | nil => cases h
      | cons b l' =>
          obtain ⟨hhead, htail⟩ := List.cons.inj h
          simp only [List.mem_cons, not_or] at hl hl'
          have hab : a = b := undot_inj (Ne.symm hl.1) (Ne.symm hl'.1) hhead
          rw [hab, ih hl.2 hl'.2 htail]

theorem toList_sessionid (ip port : String) :
    (sessionid ip port).toList =
      "client_".toList ++ (ip.toList.map undot ++ '_' :: port.toList) := by
  have hhead : "client_".toList = "client".toList ++ ['_'] := by decide
  have hseparator : "_".toList = ['_'] := by decide
  simp only [sessionid, String.toList_intercalate, List.map_cons, List.map_nil, String.toList_map,
    List.intercalate_cons_cons, List.intercalate_singleton, hhead, hseparator, List.append_assoc,
    List.singleton_append]
  rfl

def Plain (address : String × String) : Prop :=
  '_' ∉ address.1.toList ∧ '_' ∉ address.2.toList

theorem sessionid_inj {ip port ip' port' : String} (h : Plain (ip, port)) (h' : Plain (ip', port'))
    (hsame : sessionid ip port = sessionid ip' port') : (ip, port) = (ip', port') := by
  have hchars := congrArg String.toList hsame
  rw [toList_sessionid, toList_sessionid] at hchars
  obtain ⟨hip, hport⟩ := append_separator_inj h.2 h'.2 (List.append_cancel_left hchars)
  have hip' : ip = ip' := String.toList_inj.mp (map_undot_inj h.1 h'.1 hip)
  have hport' : port = port' := String.toList_inj.mp hport
  rw [hip', hport']

/-! ## What a turn changes -/

structure Shared.AgreeOutside (id : String) (shared shared' : Shared) : Prop where
  notifyMsgQueue : Set.EqOn shared'.notifyMsgQueue shared.notifyMsgQueue {id}ᶜ
  msgQueue : Set.EqOn shared'.msgQueue shared.msgQueue {id}ᶜ

theorem eqOn_update {α β : Type*} [DecidableEq α] (f : α → β) (a : α) (b : β) :
    Set.EqOn (Function.update f a b) f {a}ᶜ := fun _ hx => Function.update_of_ne hx b f

namespace Shared.AgreeOutside

theorem refl (id : String) (shared : Shared) : AgreeOutside id shared shared :=
  ⟨Set.eqOn_refl _ _, Set.eqOn_refl _ _⟩

theorem trans {id : String} {a b c : Shared} (hab : AgreeOutside id a b)
    (hbc : AgreeOutside id b c) : AgreeOutside id a c where
  notifyMsgQueue := hbc.notifyMsgQueue.trans hab.notifyMsgQueue
  msgQueue := hbc.msgQueue.trans hab.msgQueue

end Shared.AgreeOutside

namespace Conn

/-- From `c` to `c'` the session has only changed queues of its own. -/
structure Own (c c' : Conn) : Prop where
  sessionid : c'.session.sessionid = c.session.sessionid
  shared : c.shared.AgreeOutside c.session.sessionid c'.shared

namespace Own

theorem of_queues {c c' : Conn} (hid : c'.session.sessionid = c.session.sessionid)
    (hnotify : c'.shared.notifyMsgQueue = c.shared.notifyMsgQueue)
    (hmsg : c'.shared.msgQueue = c.shared.msgQueue) : Own c c' where
  sessionid := hid
  shared := ⟨hnotify ▸ Set.eqOn_refl _ _, hmsg ▸ Set.eqOn_refl _ _⟩

theorem trans {c c' c'' : Conn} (h : Own c c') (h' : Own c' c'') : Own c c'' where
  sessionid := h'.sessionid.trans h.sessionid
  shared := h.shared.trans (h.sessionid ▸ h'.shared)

theorem sessionBrokenClean (c : Conn) : Own c c.sessionBrokenClean where
  sessionid := rfl
  shared := ⟨eqOn_update _ _ _, Set.eqOn_refl _ _⟩

theorem sessionExit (c : Conn) : Own c c.sessionExit where
  sessionid := rfl
  shared := ⟨Set.eqOn_refl _ _, eqOn_update _ _ _⟩

theorem pushMsgToSendqueue (c : Conn) (typ : Int) (body : List UInt8) :
    Own c (c.pushMsgToSendqueue typ body) where
  sessionid := rfl
  shared := ⟨Set.eqOn_refl _ _, eqOn_update _ _ _⟩

theorem dealHeartBeat (c : Conn) (timerOk : Bool) : Own c (c.dealHeartBeat timerOk) := by
  have hcount : Own c c.countTick := by
    unfold countTick
    split
    · exact of_queues rfl rfl rfl
    · exact of_queues rfl rfl rfl
  unfold Conn.dealHeartBeat
  dsimp only
  split
  · exact (sessionBrokenClean c).trans (of_queues rfl rfl rfl)
  · split
    · exact hcount.trans (of_queues rfl rfl rfl)
    · exact hcount

theorem loop (c : Conn) : Own c c.loop := by
  rw [loop_eq]
  exact of_queues rfl rfl rfl

theorem notifyMsgProc (c : Conn) (thread : Nat) : Own c (c.notifyMsgProc thread) := by
  unfold Conn.notifyMsgProc
  split
  · exact of_queues rfl rfl rfl
  · split
    · exact of_queues rfl rfl rfl
    · rename_i message rest _
      have hpop : Own c { c with
          shared.notifyMsgQueue :=
            Function.update c.shared.notifyMsgQueue c.session.sessionid rest } :=
        ⟨rfl, eqOn_update _ _ _, Set.eqOn_refl _ _⟩
      exact hpop.trans (pushMsgToSendqueue _ _ _)

theorem sendMessage (c : Conn) (ok : Bool) : Own c (c.sendMessage ok) := by
  unfold Conn.sendMessage
  split
  · exact of_queues rfl rfl rfl
  · split
    · exact of_queues rfl rfl rfl
    · rename_i message rest _
      have hpop : Own c { c with
          shared.msgQueue := Function.update c.shared.msgQueue c.session.sessionid rest } :=
        ⟨rfl, Set.eqOn_refl _ _, eqOn_update _ _ _⟩
      cases ok with
      | true => exact hpop
      | false => exact hpop.trans ((sessionExit _).trans (of_queues rfl rfl rfl))

variable (cjson : Cjson)

theorem proc (c : Conn) (typ : Int) (body : List UInt8) (res : Resources) :
    Own c (c.proc cjson typ body res).2 :=
  have hkept := Kept.proc cjson c typ body res
  of_queues (logged_proc cjson c typ body res).sessionid hkept.notifyMsgQueue hkept.msgQueue

theorem mainProc (c : Conn) (received : RecvResult) (res : Resources) :
    Own c (c.mainProc cjson received res) := by
  cases received with
  | raised => exact of_queues rfl rfl rfl
  | err error =>
      have hclean := sessionBrokenClean c
      unfold Conn.mainProc
      dsimp only
      split
      · exact hclean.trans (of_queues rfl rfl rfl)
      · exact hclean.trans ((sessionExit _).trans (of_queues rfl rfl rfl))
  | packet syncBytes typ body binarydata =>
      let d : Conn := { c with session.syncBytes := syncBytes }
      have hset : Own c d := of_queues rfl rfl rfl
      have hproc : Own c (d.proc cjson typ body res).2 :=
        hset.trans (proc cjson d typ body res)
      have hturn := packetTurn_mainProc cjson c syncBytes typ body binarydata res
      generalize c.mainProc cjson _ res = c' at hturn ⊢
      cases hturn with
      | raised _ => exact hproc.trans (of_queues rfl rfl rfl)
      | silent _ => exact hproc.trans (loop _)
      | reply typ' body' _ => exact hproc.trans ((pushMsgToSendqueue _ typ' body').trans (loop _))

theorem step {c c' : Conn} {e : Event} (hstep : Conn.step cjson c e = some c') : Own c c' := by
  cases turn_of_step cjson hstep with
  | recv received res _ =>
      exact mainProc cjson c received res
  | joined _ _ =>
      have hset : Own c { c with session.notifyMsgThread := none } := of_queues rfl rfl rfl
      exact hset.trans ((sessionExit _).trans (of_queues rfl rfl rfl))
  | timer timerOk _ =>
      have hset : Own c { c with timers := c.timers - 1 } := of_queues rfl rfl rfl
      exact hset.trans (dealHeartBeat _ timerOk)
  | notify thread _ =>
      exact notifyMsgProc c thread
  | send ok _ =>
      exact sendMessage c ok

end Own

/-! ## The map of the types -/

def dropped (cjson : Cjson) (c : Conn) : Event → List String
  | .recv (.packet _ typ body _) res =>
      if (registers c.session.isLogin typ (cjson.decode body)).isSome then res.evicted else []
  | _ => []

variable (cjson : Cjson)

theorem entryAfter_of_ne (c : Conn) {key : String} (hkey : key ≠ c.session.sessionid) (e : Event) :
    c.entryAfter cjson key e =
      if key ∈ c.dropped cjson e then none else c.shared.clientTypes.lookup key := by
  cases e with
  | recv received res =>
      cases received with
      | raised => rfl
      | err error => exact if_neg hkey
      | packet syncBytes typ body binarydata =>
          cases hregisters : registers c.session.isLogin typ (cjson.decode body) with
          | none => simp [entryAfter, dropped, entryUnder, hregisters]
          | some type => simp [entryAfter, dropped, entryUnder, hregisters, hkey]
  | joined => rfl
  | timer timerOk => exact if_neg fun h => hkey h.2
  | notify thread => rfl
  | send ok => rfl

end Conn

/-! ## The connections of a run -/

namespace StreamServer

def Event.address : Event → Option (String × String)
  | .connect ip port => some (ip, port)
  | .turn _ _ => none
  | .publish _ _ => none

def addresses (events : List Event) : List (String × String) := events.filterMap Event.address

variable (cjson : Cjson)

theorem sessionids_step {s s' : StreamServer} {e : Event} (hstep : step cjson s e = some s') :
    s'.conns.map (·.session.sessionid) =
      s.conns.map (·.session.sessionid) ++
        e.address.toList.map fun address => sessionid address.1 address.2 := by
  cases e with
  | connect ip port =>
      obtain rfl := Option.some.inj hstep
      simp [connect, Event.address, Conn.connect]
  | publish sessionid msg =>
      obtain rfl := Option.some.inj hstep
      simp [publish, Event.address]
  | turn i e =>
      simp only [Event.address, Option.toList_none, List.map_nil, List.append_nil]
      cases hc : s.conns[i]? with
      | none => simp [step, hc] at hstep
      | some c =>
          obtain ⟨c', hturn, -, hconns⟩ := step_turn cjson hc hstep
          have hid : c'.session.sessionid = c.session.sessionid :=
            (Conn.sessionid_step cjson hturn).trans rfl
          have hsame : (s.conns.map (·.session.sessionid))[i]? = some c'.session.sessionid := by
            rw [List.getElem?_map, hc, Option.map_some, hid]
          obtain ⟨hlt, hget⟩ := List.getElem?_eq_some_iff.mp hsame
          rw [hconns, List.map_set, ← hget, List.set_getElem_self]

theorem sessionids_run {s s' : StreamServer} {events : List Event}
    (hrun : run (step cjson) s events = some s') :
    s'.conns.map (·.session.sessionid) =
      s.conns.map (·.session.sessionid) ++
        (addresses events).map fun address => sessionid address.1 address.2 := by
  induction events generalizing s with
  | nil =>
      obtain rfl : s = s' := by simpa using hrun
      simp [addresses]
  | cons e events ih =>
      obtain ⟨m, hm, hrest⟩ := run_cons_eq_some.mp hrun
      have haddresses : addresses (e :: events) = e.address.toList ++ addresses events := by
        unfold addresses
        rw [List.filterMap_cons]
        cases e.address with
        | none => rfl
        | some address => rfl
      rw [ih hrest, sessionids_step cjson hm, haddresses, List.map_append, List.append_assoc]

theorem conn_of_address {shared : Shared} {events : List Event} {s : StreamServer}
    (hrun : run (step cjson) (start shared) events = some s) {i : Nat} {address : String × String}
    (hi : (addresses events)[i]? = some address) :
    ∃ c, s.conns[i]? = some c ∧ c.session.sessionid = sessionid address.1 address.2 := by
  have hids := sessionids_run cjson hrun
  simp only [start, List.map_nil, List.nil_append] at hids
  have hid := congrArg (fun ids : List String => ids[i]?) hids
  simp only [List.getElem?_map, hi, Option.map_some] at hid
  obtain ⟨c, hc, hsame⟩ := Option.map_eq_some_iff.mp hid
  exact ⟨c, hc, hsame⟩

/-- The session of connection `i` has another id than that of connection `j`, and none of its turns
changes that session or what the dictionaries hold for it; only the registration goes when the
turn is one at which the map drops it. -/
def Isolated (s : StreamServer) (i j : Nat) : Prop :=
  ∃ c other, s.conns[i]? = some c ∧ s.conns[j]? = some other ∧
    c.session.sessionid ≠ other.session.sessionid ∧
    ∀ e s', step cjson s (.turn i e) = some s' →
      s'.conns[j]? = some other ∧
      s'.shared.clientTypes.lookup other.session.sessionid =
        (if other.session.sessionid ∈ c.dropped cjson e then none
        else s.shared.clientTypes.lookup other.session.sessionid) ∧
      s'.shared.notifyMsgQueue other.session.sessionid =
        s.shared.notifyMsgQueue other.session.sessionid ∧
      s'.shared.msgQueue other.session.sessionid = s.shared.msgQueue other.session.sessionid

theorem sessionid_ne {shared : Shared} {events : List Event} {s : StreamServer}
    (hrun : run (step cjson) (start shared) events = some s) {i j : Nat}
    {address address' : String × String} (hi : (addresses events)[i]? = some address)
    (hj : (addresses events)[j]? = some address') (hplain : Plain address)
    (hplain' : Plain address') (hne : address ≠ address') :
    ∃ c other, s.conns[i]? = some c ∧ s.conns[j]? = some other ∧
      c.session.sessionid ≠ other.session.sessionid := by
  obtain ⟨c, hc, hid⟩ := conn_of_address cjson hrun hi
  obtain ⟨other, hother, hid'⟩ := conn_of_address cjson hrun hj
  refine ⟨c, other, hc, hother, ?_⟩
  rw [hid, hid']
  exact fun hsame => hne (sessionid_inj hplain hplain' hsame)

/-- In every state that the server reaches, whatever the sessions did before: the sessions of two
addresses without underscores are isolated from each other. -/
theorem isolated {shared : Shared} {events : List Event} {s : StreamServer}
    (hrun : run (step cjson) (start shared) events = some s) {i j : Nat}
    {address address' : String × String} (hi : (addresses events)[i]? = some address)
    (hj : (addresses events)[j]? = some address') (hplain : Plain address)
    (hplain' : Plain address') (hne : address ≠ address') : s.Isolated cjson i j := by
  obtain ⟨c, other, hc, hother, hids⟩ := sessionid_ne cjson hrun hi hj hplain hplain' hne
  refine ⟨c, other, hc, hother, hids, ?_⟩
  intro e s' hstep
  obtain ⟨c', hturn, hshared, hconns⟩ := step_turn cjson hc hstep
  have hown : s.shared.AgreeOutside c.session.sessionid s'.shared := by
    rw [hshared]
    exact (Conn.Own.step cjson hturn).shared
  have hentry : s'.shared.clientTypes.lookup other.session.sessionid =
      if other.session.sessionid ∈ c.dropped cjson e then none
      else s.shared.clientTypes.lookup other.session.sessionid := by
    rw [hshared, Conn.lookup_step cjson hturn]
    exact Conn.entryAfter_of_ne cjson { c with shared := s.shared } hids.symm e
  have hij : i ≠ j := by
    rintro rfl
    rw [hc] at hother
    exact hids (congrArg (·.session.sessionid) (Option.some.inj hother))
  refine ⟨?_, hentry, hown.notifyMsgQueue hids.symm, hown.msgQueue hids.symm⟩
  rw [hconns, List.getElem?_set_ne hij]
  exact hother

def neighbours : List Event :=
  [.connect "10.0.0.7" "40000", .connect "10.0.0.7" "40001", .turn 1 (Conn.loginEvent "\"b\"")]

theorem isolated_neighbours :
    ∃ s, run (step Conn.sampleCjson) (start Conn.sampleShared) neighbours = some s ∧
      s.Isolated Conn.sampleCjson 0 1 := by
  have hsome : (run (step Conn.sampleCjson) (start Conn.sampleShared) neighbours).isSome := by
    decide +kernel
  obtain ⟨s, hrun⟩ := Option.isSome_iff_exists.mp hsome
  refine ⟨s, hrun, ?_⟩
  exact isolated Conn.sampleCjson hrun (i := 0) (j := 1) rfl rfl ⟨by decide, by decide⟩
    ⟨by decide, by decide⟩ (by decide)

/-- The first client logs in with a type for which the full map makes room by dropping the entry of
the second. -/
def crowdedLogin : Event :=
  .turn 0 (.recv (.packet 0x01010101 kLoginReq (Conn.loginBody "\"a\"") none)
    ⟨true, ["client_10_0_0_7_40001"]⟩)

theorem login_drops_neighbour : ¬ ∀ (cjson : Cjson) (shared : Shared) (events : List Event)
    (s s' : StreamServer) (i j : Nat) (address address' : String × String) (e : Conn.Event)
    (other : Conn),
    run (step cjson) (start shared) events = some s → (addresses events)[i]? = some address →
    (addresses events)[j]? = some address' → Plain address → Plain address' →
    address ≠ address' → s.conns[j]? = some other → step cjson s (.turn i e) = some s' →
    s'.shared.clientTypes.lookup other.session.sessionid =
      s.shared.clientTypes.lookup other.session.sessionid := by
  intro h
  have hbad : ∃ s ∈ run (step Conn.sampleCjson) (start Conn.sampleShared) neighbours,
      ∃ other ∈ s.conns[1]?, ∃ s' ∈ step Conn.sampleCjson s crowdedLogin,
        (s.shared.clientTypes.lookup other.session.sessionid).isSome ∧
          (s'.shared.clientTypes.lookup other.session.sessionid).isNone := by
    decide +kernel
  obtain ⟨s, hrun, other, hother, s', hstep, hbefore, hafter⟩ := hbad
  have hkept := h _ _ neighbours s s' 0 1 _ _ _ other hrun rfl rfl ⟨by decide, by decide⟩
    ⟨by decide, by decide⟩ (by decide) hother hstep
  rw [← hkept, Option.isNone_iff_eq_none.mp hafter] at hbefore
  cases hbefore

end StreamServer

end CloudEdgePush.Server
