import CloudEdgePush.Server.Acknowledged

/-!
# Sessions that are served

Beside the server runs a ledger of one connection: the type in the last login request that was
acknowledged.  While the connection is read, the map should hold this type for the session, and a
push for the type should get to its socket (`Serves`).  `Keeps` says which turns leave it so: turns
of the connection itself, and those of all the others.
-/

namespace CloudEdgePush.Server

open CloudEdgePush.Lib.Transition
open CloudEdgePush.Server.MessagePacket CloudEdgePush.Server.MessageDef

namespace Conn

variable (cjson : Cjson)

/-- The session is registered under the type, and a push for the type gets to its socket. -/
structure Serves (c : Conn) (type : Json) : Prop where
  storable : type.storable = true
  entry : c.shared.clientTypes.lookup c.session.sessionid = some type
  reaches : c.Reaches cjson type

structure Serving (c : Conn) (type : Json) : Prop where
  storable : type.storable = true
  entry : c.shared.clientTypes.lookup c.session.sessionid = some type
  live : c.Live

theorem Serving.serves {c : Conn} {type : Json} (h : c.Serving type) (hinv : c.ReadingInv) :
    c.Serves cjson type where
  storable := h.storable
  entry := h.entry
  reaches := h.live.reaches cjson h.entry (hinv.threads h.live.isLogin)

/-! ## Turns of the connection itself -/

/-- A turn of an acknowledged session that goes on serving it: a login request that is
acknowledged carries a type that is registered, or was already; the monitor does not expire, and
the sender does not fail. -/
def KeepsOwn (acked : Bool) (c : Conn) : Event → Prop
  | .recv (.packet _ typ body _) res =>
      c.session.exit = false →
      Acknowledges cjson c.session.isLogin typ (cjson.decode body) res.timerOk →
        ∃ type ∈ (requestedType (cjson.decode body)).join, type.storable = true ∧
          if c.session.isLogin then
            Json.luaEq (c.shared.clientTypes.lookup c.session.sessionid) (some type) = true
          else c.session.sessionid ∉ res.evicted
  | .timer _ =>
      acked = true → c.main = .reading → NO_HEART_BEAT_THRESHOLD ≠ c.session.noHeartTime
  | .send ok => acked = true → c.main = .reading → c.sendQueue ≠ [] → ok = true
  | _ => True

instance (acked : Bool) (c : Conn) : ∀ e, Decidable (KeepsOwn cjson acked c e)
  | .recv (.packet _ _ _ _) _ => inferInstanceAs (Decidable (_ → _ → ∃ _ ∈ _, _))
  | .recv .raised _ => isTrue trivial
  | .recv (.err _) _ => isTrue trivial
  | .joined => isTrue trivial
  | .timer _ => inferInstanceAs (Decidable (_ → _ → _))
  | .notify _ => isTrue trivial
  | .send _ => inferInstanceAs (Decidable (_ → _ → _ → _))

theorem serving_login {c c' : Conn} {syncBytes : Int} {body : List UInt8}
    {binarydata : Option (List UInt8)} {res : Resources} (hinv : c.ReadingInv)
    (hkeeps : KeepsOwn cjson true c (.recv (.packet syncBytes kLoginReq body binarydata) res))
    (hacked : Acknowledges cjson c.session.isLogin kLoginReq (cjson.decode body) res.timerOk)
    (hgoes : c.GoesOn kLoginReq c') (hid : c'.session.sessionid = c.session.sessionid)
    (hentry : ∀ key, c'.shared.clientTypes.lookup key = c.entryAfter cjson key
      (.recv (.packet syncBytes kLoginReq body binarydata) res)) :
    ∃ type, (requestedType (cjson.decode body)).join = some type ∧ c'.Serving type := by
  obtain ⟨type, htype, hstorable, hkept⟩ := hkeeps hgoes.exit.1 hacked
  refine ⟨type, htype, hstorable, ?_, ?_, ?_, hgoes.exit.2⟩
  · rw [hid, hentry]
    by_cases hlogin : c.session.isLogin = true
    · rw [if_pos hlogin] at hkept
      have hnone : registers c.session.isLogin kLoginReq (cjson.decode body) = none :=
        if_neg (by simp [hlogin])
      rw [entryAfter, hnone]
      exact Json.eq_of_luaEq hkept
    · rw [if_neg hlogin] at hkept
      have hsome : registers c.session.isLogin kLoginReq (cjson.decode body) = some type := by
        rw [registers, if_pos ⟨rfl, by simpa using hlogin⟩, Option.mem_def.mp htype]
        simp [Option.filter, hstorable]
      rw [entryAfter, hsome]
      simp [entryUnder, hkept]
  · rw [hgoes.isLogin]
    simp
  · exact hgoes.sender.trans (hinv.sender hgoes.exit.1)

theorem serving_keep {c c' : Conn} {e : Event} {type : Json} (h : c.Serving type)
    (hkeeps : KeepsOwn cjson true c e) (hstep : step cjson c e = some c')
    (hreading : c'.main = .reading) : c'.Serving type := by
  have hmain := main_of_step cjson hstep hreading
  have hid := sessionid_step cjson hstep
  have hentry : c'.shared.clientTypes.lookup c'.session.sessionid =
      c.entryAfter cjson c.session.sessionid e := by
    rw [hid]
    exact lookup_step cjson hstep c.session.sessionid
  cases turn_of_step cjson hstep with
  | recv received res _ =>
      obtain ⟨-, syncBytes, typ, body, binarydata, rfl⟩ := main_mainProc cjson hreading
      have hgoes := goesOn_mainProc cjson hreading
      have hnone : registers c.session.isLogin typ (cjson.decode body) = none :=
        if_neg (by simp [h.live.isLogin])
      rw [entryAfter, hnone] at hentry
      refine ⟨h.storable, hentry.trans h.entry, ?_, ?_, hgoes.exit.2⟩
      · rw [hgoes.isLogin, h.live.isLogin]
        rfl
      · exact hgoes.sender.trans h.live.sender
  | joined _ _ => cases hreading
  | timer timerOk _ =>
      have hgoes := hkeeps rfl hmain
      rw [entryAfter, if_neg fun hexpires => hgoes hexpires.1] at hentry
      refine ⟨h.storable, hentry.trans h.entry, ?_⟩
      have hcount : NO_HEART_BEAT_THRESHOLD ≠
          ({ c with timers := c.timers - 1 } : Conn).session.noHeartTime := hgoes
      rw [dealHeartBeat, if_neg hcount]
      unfold countTick
      dsimp only
      split
      all_goals
        split
        all_goals exact ⟨h.live.isLogin, h.live.sender, h.live.exit⟩
  | notify thread _ =>
      refine ⟨h.storable, hentry.trans h.entry, ?_⟩
      unfold notifyMsgProc
      split
      · exact ⟨h.live.isLogin, h.live.sender, h.live.exit⟩
      · split
        · exact h.live
        · exact ⟨h.live.isLogin, h.live.sender, h.live.exit⟩
  | send ok _ =>
      refine ⟨h.storable, hentry.trans h.entry, ?_⟩
      unfold sendMessage
      rw [if_neg (by simp [h.live.exit])]
      split
      · exact h.live
      · rename_i message rest hqueue
        have hne : c.sendQueue ≠ [] := by
          rw [sendQueue, hqueue]
          exact List.cons_ne_nil _ _
        obtain rfl := hkeeps rfl hmain hne
        exact ⟨h.live.isLogin, h.live.sender, h.live.exit⟩

theorem keepsOwn_of_serves {c c' : Conn} {e : Event} {acked : Option (Option Json)}
    (hserving : acked.isSome = true → c.main = .reading → c.Live)
    (hstep : step cjson c e = some c')
    (hserves : c'.main = .reading → ∀ type, (c.acknowledged cjson e).or acked = some type →
      ∃ t, type = some t ∧ c'.Serves cjson t) : KeepsOwn cjson acked.isSome c e := by
  have hentry := lookup_step cjson hstep c.session.sessionid
  have hid := sessionid_step cjson hstep
  cases turn_of_step cjson hstep with
  | recv received res hmain =>
      cases received with
      | raised => trivial
      | err error => trivial
      | packet syncBytes typ body binarydata =>
          intro hexit hacked
          obtain ⟨rfl, hreturns, -⟩ := id hacked
          have hreading : (c.mainProc cjson (.packet syncBytes kLoginReq body binarydata) res).main =
              .reading := by
            rw [goes_of_returns cjson c kLoginReq body res _ syncBytes binarydata, hexit]
            · exact hmain
            · rw [ne_eq, proc_raised_iff, hreturns]
              exact Bool.false_ne_true
          have hnew : (c.acknowledged cjson
              (.recv (.packet syncBytes kLoginReq body binarydata) res)).or acked =
                some (requestedType (cjson.decode body)).join := by
            rw [acknowledged_packet cjson hacked, Option.some_or]
          obtain ⟨type, htype, hserves⟩ := hserves hreading _ hnew
          refine ⟨type, htype, hserves.storable, ?_⟩
          have hkept := hserves.entry
          rw [hid, hentry] at hkept
          by_cases hlogin : c.session.isLogin = true
          · have hnone : registers c.session.isLogin kLoginReq (cjson.decode body) = none :=
              if_neg (by simp [hlogin])
            rw [entryAfter, hnone] at hkept
            rw [if_pos hlogin, show c.shared.clientTypes.lookup c.session.sessionid = some type
              from hkept]
            exact Json.luaEq_self hserves.storable
          · have hsome : registers c.session.isLogin kLoginReq (cjson.decode body) = some type := by
              rw [registers, if_pos ⟨rfl, by simpa using hlogin⟩, htype]
              simp [Option.filter, hserves.storable]
            rw [if_neg hlogin]
            intro hdropped
            rw [entryAfter, hsome] at hkept
            simp [entryUnder, hdropped] at hkept
  | joined _ _ => trivial
  | timer timerOk _ =>
      intro hacked hmain hexpires
      obtain ⟨type, rfl⟩ := Option.isSome_iff_exists.mp hacked
      have hreading : ({ c with timers := c.timers - 1 }.dealHeartBeat timerOk).main = .reading :=
        (logged_dealHeartBeat { c with timers := c.timers - 1 } timerOk).main.trans hmain
      obtain ⟨t, -, hserves⟩ := hserves hreading type rfl
      have hkept := hserves.entry
      rw [hid, hentry, entryAfter, if_pos ⟨hexpires, rfl⟩] at hkept
      cases hkept
  | notify thread _ => trivial
  | send ok _ =>
      intro hacked hmain hne
      have hlive := hserving hacked hmain
      obtain ⟨type, rfl⟩ := Option.isSome_iff_exists.mp hacked
      have hreading : (c.sendMessage ok).main = .reading :=
        (logged_sendMessage c ok).main.trans hmain
      obtain ⟨t, -, hserves⟩ := hserves hreading type rfl
      cases ok with
      | true => rfl
      | false =>
          obtain ⟨message, rest, hqueue⟩ := List.exists_cons_of_ne_nil hne
          have hhead : c.shared.msgQueue c.session.sessionid = message :: rest := hqueue
          have hended : (c.sendMessage false).sender = false := by
            rw [sendMessage, if_neg (by simp [hlive.exit]), hhead]
            rfl
          exact absurd hserves.reaches (not_reaches cjson hserves.storable hended)

/-! ## Turns of the others -/

/-- A turn that takes this entry away from the map: a cleanup of the same session id, or a login
that drops the entry or sets it to something else. -/
def Unregisters (c : Conn) (key : String) (type : Json) : Event → Prop
  | .recv (.err _) _ => key = c.session.sessionid
  | .recv (.packet _ typ body _) res =>
      ∃ new ∈ registers c.session.isLogin typ (cjson.decode body),
        key ∈ res.evicted ∨
          key = c.session.sessionid ∧ Json.luaEq (some new) (some type) = false
  | .timer _ => NO_HEART_BEAT_THRESHOLD = c.session.noHeartTime ∧ key = c.session.sessionid
  | _ => False

instance (c : Conn) (key : String) (type : Json) : ∀ e, Decidable (Unregisters cjson c key type e)
  | .recv (.packet _ _ _ _) _ => inferInstanceAs (Decidable (∃ _ ∈ _, _))
  | .recv .raised _ => isFalse id
  | .recv (.err _) _ => inferInstanceAs (Decidable (_ = _))
  | .joined => isFalse id
  | .timer _ => inferInstanceAs (Decidable (_ ∧ _))
  | .notify _ => isFalse id
  | .send _ => isFalse id

theorem entryAfter_eq_iff {c : Conn} {key : String} {type : Json} (hstorable : type.storable = true)
    (hentry : c.shared.clientTypes.lookup key = some type) (e : Event) :
    c.entryAfter cjson key e = some type ↔ ¬ Unregisters cjson c key type e := by
  cases e with
  | recv received res =>
      cases received with
      | raised => exact iff_of_true hentry id
      | err error =>
          by_cases hkey : key = c.session.sessionid
          · simp [entryAfter, Unregisters, hkey]
          · simp [entryAfter, Unregisters, hkey, hentry]
      | packet syncBytes typ body binarydata =>
          cases hregisters : registers c.session.isLogin typ (cjson.decode body) with
          | none => simp [entryAfter, Unregisters, entryUnder, hregisters, hentry]
          | some new =>
              have hsame : Json.luaEq (some new) (some type) = true ↔ new = type := by
                constructor
                · intro h
                  exact Option.some.inj (Json.eq_of_luaEq h)
                · rintro rfl
                  exact Json.luaEq_self hstorable
              by_cases hkey : key = c.session.sessionid
              · simp [entryAfter, Unregisters, entryUnder, hregisters, hkey,
                  ← Bool.not_eq_true, hsame]
              · simp [entryAfter, Unregisters, entryUnder, hregisters, hkey, hentry]
  | joined => exact iff_of_true hentry id
  | timer timerOk =>
      by_cases hexpires : NO_HEART_BEAT_THRESHOLD = c.session.noHeartTime ∧ key = c.session.sessionid
      · simp [entryAfter, Unregisters, hexpires]
      · simp [entryAfter, Unregisters, hexpires, hentry]
  | notify thread => exact iff_of_true hentry id
  | send ok => exact iff_of_true hentry id

end Conn

/-! ## Runs of the server -/

/-- The server, and the type in the last login request of one connection that was acknowledged;
the outer `none` is no such request. -/
structure Ledger where
  server : StreamServer
  type : Option (Option Json)

namespace Ledger

def start (shared : Shared) : Ledger := ⟨.start shared, none⟩

def conn (l : Ledger) (i : Nat) : Option Conn :=
  l.server.conns[i]?.map fun c => { c with shared := l.server.shared }

variable (cjson : Cjson)

def acknowledged (l : Ledger) (i : Nat) : StreamServer.Event → Option (Option Json)
  | .turn j e => if j = i then (l.conn i).bind fun c => c.acknowledged cjson e else none
  | _ => none

def step (i : Nat) (l : Ledger) (e : StreamServer.Event) : Option Ledger :=
  (StreamServer.step cjson l.server e).map fun server =>
    { server, type := (l.acknowledged cjson i e).or l.type }

/-- While connection `i` is read, it is served with the type that was acknowledged last. -/
def Served (i : Nat) (l : Ledger) : Prop :=
  ∀ c, l.conn i = some c → c.main = .reading → ∀ type, l.type = some type →
    ∃ t, type = some t ∧ c.Serves cjson t

def Keeps (i : Nat) (l : Ledger) : StreamServer.Event → Prop
  | .turn j e =>
      if j = i then ∀ c ∈ l.conn i, c.KeepsOwn cjson l.type.isSome e
      else ∀ c ∈ l.conn i, c.main = .reading → ∀ type ∈ l.type.join, ∀ other ∈ l.conn j,
        ¬ other.Unregisters cjson c.session.sessionid type e
  | _ => True

instance (i : Nat) (l : Ledger) : ∀ e, Decidable (Keeps cjson i l e)
  | .turn j e =>
      inferInstanceAs (Decidable (if j = i then ∀ c ∈ l.conn i, c.KeepsOwn cjson l.type.isSome e
        else ∀ c ∈ l.conn i, c.main = .reading → ∀ type ∈ l.type.join, ∀ other ∈ l.conn j,
          ¬ other.Unregisters cjson c.session.sessionid type e))
  | .connect _ _ => isTrue trivial
  | .publish _ _ => isTrue trivial

structure Inv (i : Nat) (l : Ledger) : Prop where
  fresh : l.conn i = none → l.type = none
  reading : ∀ c, l.conn i = some c → c.main = .reading → c.ReadingInv
  serving : ∀ c, l.conn i = some c → c.main = .reading → ∀ type, l.type = some type →
    ∃ t, type = some t ∧ c.Serving t

theorem Inv.served {i : Nat} {l : Ledger} (h : Inv i l) : l.Served cjson i := by
  intro c hc hreading type htype
  obtain ⟨t, rfl, hserving⟩ := h.serving c hc hreading type htype
  exact ⟨t, rfl, hserving.serves cjson (h.reading c hc hreading)⟩

theorem conn_of_conns {i : Nat} {l l' : Ledger}
    (hconns : l'.server.conns[i]? = l.server.conns[i]?) :
    l'.conn i = (l.conn i).map fun c => { c with shared := l'.server.shared } := by
  rw [conn, conn, hconns, Option.map_map]
  rfl

theorem Inv.shared {i : Nat} {l l' : Ledger} (h : Inv i l) (htype : l'.type = l.type)
    (hconns : l'.server.conns[i]? = l.server.conns[i]?)
    (hentry : ∀ c, l.conn i = some c → c.main = .reading → ∀ type, l.type = some (some type) →
      c.Serving type → l'.server.shared.clientTypes.lookup c.session.sessionid = some type) :
    Inv i l' := by
  have hconn := conn_of_conns hconns
  refine ⟨?_, ?_, ?_⟩
  · intro hnone
    rw [htype]
    exact h.fresh (Option.map_eq_none_iff.mp (hconn.symm.trans hnone))
  · intro c' hc' hreading
    obtain ⟨c, hc, rfl⟩ := Option.map_eq_some_iff.mp (hconn.symm.trans hc')
    have hinv := h.reading c hc hreading
    exact ⟨hinv.threads, hinv.sender⟩
  · intro c' hc' hreading type hacked
    obtain ⟨c, hc, rfl⟩ := Option.map_eq_some_iff.mp (hconn.symm.trans hc')
    obtain ⟨t, rfl, hserving⟩ := h.serving c hc hreading type (htype.symm.trans hacked)
    have hkept := hentry c hc hreading t (htype.symm.trans hacked) hserving
    have hlive := hserving.live
    exact ⟨t, rfl, hserving.storable, hkept, ⟨hlive.isLogin, hlive.sender, hlive.exit⟩⟩

theorem Inv.connect {i : Nat} {l : Ledger} (h : Inv i l) (ip port : String) :
    Inv i { l with server := l.server.connect ip port } := by
  have hold (hlt : i < l.server.conns.length) :
      Inv i { l with server := l.server.connect ip port } := by
    refine h.shared rfl (List.getElem?_append_left hlt) ?_
    intro c hc _ type _ hserving
    obtain ⟨c₀, -, rfl⟩ := Option.map_eq_some_iff.mp hc
    exact hserving.entry
  by_cases hlt : i < l.server.conns.length
  · exact hold hlt
  · have hnone : l.conn i = none := by
      rw [conn, List.getElem?_eq_none (by omega)]
      rfl
    have hfresh := h.fresh hnone
    refine ⟨fun _ => hfresh, ?_, ?_⟩
    · intro c hc _
      obtain ⟨c₀, hc₀, rfl⟩ := Option.map_eq_some_iff.mp hc
      have hnew : c₀ = Conn.connect (sessionid ip port) l.server.shared := by
        have happend : (l.server.conns ++ [Conn.connect (sessionid ip port) l.server.shared])[i]? =
            some c₀ := hc₀
        rw [List.getElem?_append_right (by omega)] at happend
        exact (List.mem_singleton.mp (List.mem_of_getElem? happend))
      subst hnew
      exact ⟨nofun, fun _ => rfl⟩
    · intro c _ _ type htype
      rw [show l.type = some type from htype] at hfresh
      cases hfresh

theorem Inv.publish {i : Nat} {l : Ledger} (h : Inv i l) (sessionid : String) (msg : List UInt8) :
    Inv i { l with server := l.server.publish sessionid msg } := by
  refine h.shared rfl rfl ?_
  intro c hc _ type _ hserving
  obtain ⟨c₀, -, rfl⟩ := Option.map_eq_some_iff.mp hc
  exact hserving.entry

theorem turn_of_step {i j : Nat} {l l' : Ledger} {e : Conn.Event}
    (hstep : step cjson i l (.turn j e) = some l') :
    ∃ c c', l.conn j = some c ∧ Conn.step cjson c e = some c' ∧ l'.server.shared = c'.shared ∧
      l'.server.conns = l.server.conns.set j c' ∧
      l'.type = (l.acknowledged cjson i (.turn j e)).or l.type := by
  obtain ⟨server, hserver, rfl⟩ := Option.map_eq_some_iff.mp hstep
  cases hc : l.server.conns[j]? with
  | none => simp [StreamServer.step, hc] at hserver
  | some c =>
      obtain ⟨c', hturn, hshared, hconns⟩ := StreamServer.step_turn cjson hc hserver
      exact ⟨_, c', by rw [conn, hc]; rfl, hturn, hshared, hconns, rfl⟩

theorem conn_own {i : Nat} {l l' : Ledger} {c c' : Conn} (hc : l.conn i = some c)
    (hshared : l'.server.shared = c'.shared) (hconns : l'.server.conns = l.server.conns.set i c') :
    l'.conn i = some c' := by
  obtain ⟨c₀, hc₀, -⟩ := Option.map_eq_some_iff.mp hc
  obtain ⟨hlt, -⟩ := List.getElem?_eq_some_iff.mp hc₀
  rw [conn, hconns, List.getElem?_set_self hlt, hshared]
  rfl

theorem Inv.own {i : Nat} {l l' : Ledger} {e : Conn.Event} (h : Inv i l)
    (hkeeps : Keeps cjson i l (.turn i e)) (hstep : step cjson i l (.turn i e) = some l') :
    Inv i l' := by
  obtain ⟨c, c', hc, hturn, hshared, hconns, htype⟩ := turn_of_step cjson hstep
  have hc' := conn_own hc hshared hconns
  have hacked : l.acknowledged cjson i (.turn i e) = c.acknowledged cjson e := by
    rw [acknowledged, if_pos rfl, hc]
    rfl
  rw [Keeps, if_pos rfl] at hkeeps
  have hkept := hkeeps c hc
  rw [hacked] at htype
  refine ⟨?_, ?_, ?_⟩
  · intro hnone
    rw [hc'] at hnone
    cases hnone
  · intro d hd hreading
    obtain rfl := Option.some.inj (hc'.symm.trans hd)
    exact Conn.step_readingInv cjson (h.reading c hc (Conn.main_of_step cjson hturn hreading))
      hturn hreading
  · intro d hd hreading type hnew
    obtain rfl := Option.some.inj (hc'.symm.trans hd)
    have hmain := Conn.main_of_step cjson hturn hreading
    rw [htype] at hnew
    cases hacknowledged : c.acknowledged cjson e with
    | none =>
        rw [hacknowledged, Option.none_or] at hnew
        obtain ⟨t, rfl, hserving⟩ := h.serving c hc hmain type hnew
        rw [hnew] at hkept
        exact ⟨t, rfl, Conn.serving_keep cjson hserving hkept hturn hreading⟩
    | some requested =>
        rw [hacknowledged, Option.some_or] at hnew
        obtain ⟨syncBytes, typ, body, binarydata, res, rfl, hacks, rfl⟩ :=
          Conn.acknowledges_of_acknowledged cjson hacknowledged
        obtain rfl : typ = kLoginReq := hacks.1
        have heq : c.mainProc cjson (.packet syncBytes kLoginReq body binarydata) res = c' :=
          (Option.ite_none_right_eq_some.mp hturn).2 |> Option.some.inj
        have hgoes := Conn.goesOn_mainProc cjson (heq ▸ hreading)
        rw [heq] at hgoes
        obtain ⟨t, ht, hserving⟩ := Conn.serving_login cjson (h.reading c hc hmain) hkept hacks
          hgoes (Conn.sessionid_step cjson hturn) (Conn.lookup_step cjson hturn)
        exact ⟨t, (Option.some.inj hnew).symm.trans ht, hserving⟩

/-- What a turn of another connection leaves of the entry of connection `i`. -/
theorem entry_other {i j : Nat} {l l' : Ledger} {e : Conn.Event} {other other' c : Conn}
    {type : Json} (hother : l.conn j = some other) (hturn : Conn.step cjson other e = some other')
    (hshared : l'.server.shared = other'.shared) (hc : l.conn i = some c)
    (hserving : c.Serving type) :
    l'.server.shared.clientTypes.lookup c.session.sessionid = some type ↔
      ¬ other.Unregisters cjson c.session.sessionid type e := by
  have hentry : other.shared.clientTypes.lookup c.session.sessionid = some type := by
    obtain ⟨other₀, -, rfl⟩ := Option.map_eq_some_iff.mp hother
    obtain ⟨c₀, -, rfl⟩ := Option.map_eq_some_iff.mp hc
    exact hserving.entry
  rw [hshared, Conn.lookup_step cjson hturn]
  exact Conn.entryAfter_eq_iff cjson hserving.storable hentry e

theorem Inv.other {i j : Nat} {l l' : Ledger} {e : Conn.Event} (h : Inv i l) (hij : j ≠ i)
    (hkeeps : Keeps cjson i l (.turn j e)) (hstep : step cjson i l (.turn j e) = some l') :
    Inv i l' := by
  obtain ⟨other, other', hother, hturn, hshared, hconns, htype⟩ := turn_of_step cjson hstep
  rw [Keeps, if_neg hij] at hkeeps
  have hsame : l'.type = l.type := by
    rw [htype, acknowledged, if_neg hij, Option.none_or]
  have hget : l'.server.conns[i]? = l.server.conns[i]? := by
    rw [hconns, List.getElem?_set_ne hij]
  refine h.shared hsame hget ?_
  intro c hc hreading type hacked hserving
  have hjoin : l.type.join = some type := by rw [hacked]; rfl
  exact (entry_other cjson hother hturn hshared hc hserving).mpr
    (hkeeps c hc hreading type hjoin other hother)

theorem Inv.step {i : Nat} {l l' : Ledger} {e : StreamServer.Event} (h : Inv i l)
    (hkeeps : Keeps cjson i l e) (hstep : step cjson i l e = some l') : Inv i l' := by
  cases e with
  | connect ip port =>
      obtain rfl := Option.some.inj hstep
      exact h.connect ip port
  | publish sessionid msg =>
      obtain rfl := Option.some.inj hstep
      exact h.publish sessionid msg
  | turn j e =>
      by_cases hij : j = i
      · subst hij
        exact h.own cjson hkeeps hstep
      · exact h.other cjson hij hkeeps hstep

theorem keeps_of_served {i : Nat} {l l' : Ledger} {e : StreamServer.Event} (h : Inv i l)
    (hstep : step cjson i l e = some l') (hserved : l'.Served cjson i) : Keeps cjson i l e := by
  cases e with
  | connect ip port => trivial
  | publish sessionid msg => trivial
  | turn j e =>
      obtain ⟨other, other', hother, hturn, hshared, hconns, htype⟩ := turn_of_step cjson hstep
      by_cases hij : j = i
      · subst hij
        rw [Keeps, if_pos rfl]
        intro c hc
        obtain rfl : other = c := Option.some.inj (hother.symm.trans hc)
        refine Conn.keepsOwn_of_serves cjson ?_ hturn ?_
        · intro hacked hreading
          obtain ⟨type, hsome⟩ := Option.isSome_iff_exists.mp hacked
          obtain ⟨t, -, hserving⟩ := h.serving other hother hreading type hsome
          exact hserving.live
        · intro hreading type hnew
          refine hserved other' (conn_own hother hshared hconns) hreading type ?_
          rw [htype, acknowledged, if_pos rfl, hother]
          exact hnew
      · rw [Keeps, if_neg hij]
        intro c hc hreading type hjoin d hd
        obtain rfl : other = d := Option.some.inj (hother.symm.trans hd)
        have hacked : l.type = some (some type) := Option.join_eq_some_iff.mp hjoin
        obtain ⟨t, ht, hserving⟩ := h.serving c hc hreading _ hacked
        obtain rfl := Option.some.inj ht
        have hget : l'.server.conns[i]? = l.server.conns[i]? := by
          rw [hconns, List.getElem?_set_ne hij]
        have hc' : l'.conn i = some { c with shared := l'.server.shared } := by
          rw [conn_of_conns hget, hc, Option.map_some]
        have hsame : l'.type = some (some type) := by
          rw [htype, acknowledged, if_neg hij, Option.none_or, hacked]
        obtain ⟨t, ht, hserves⟩ := hserved _ hc' hreading _ hsame
        obtain rfl := Option.some.inj ht
        exact (entry_other cjson hother hturn hshared hc hserving).mp hserves.entry

theorem inv_start (i : Nat) (shared : Shared) : Inv i (start shared) where
  fresh _ := rfl
  reading c hc := by cases hc
  serving c hc := by cases hc

/-- In every run of the server, with any number of connections, their turns in any order, and
publishers: in every state on the way connection `i`, while it is read, is registered under the
type of its last acknowledged login and gets the pushes for that type, if and only if every turn
keeps it so. -/
theorem served_iff {i : Nat} {shared : Shared} {events : List StreamServer.Event} {l : Ledger}
    (hrun : run (step cjson i) (start shared) events = some l) :
    (∀ before m, before <+: events → run (step cjson i) (start shared) before = some m →
        m.Served cjson i) ↔
      AllSteps (step cjson i) (Keeps cjson i) (start shared) events := by
  apply prefixes_iff_of_guarded _ _ _ (inv_start i shared) hrun
  · intro l e l' h hkeeps hstep
    exact h.step cjson hkeeps hstep
  · intro l h
    exact h.served cjson
  · intro l e l' h hstep hserved
    exact keeps_of_served cjson h hstep hserved

/-! ## Acknowledged, and not served -/

def loggedIn : List StreamServer.Event :=
  [.connect "10.0.0.7" "40000", .connect "10.0.0.8" "40000", .turn 0 (Conn.loginEvent "\"a\"")]

theorem served_after_tick :
    ∃ l, run (step Conn.sampleCjson 0) (start Conn.sampleShared)
        (loggedIn ++ [.turn 0 (.timer true), .turn 1 (Conn.loginEvent "\"b\"")]) = some l ∧
      ∀ before m,
        before <+: loggedIn ++ [.turn 0 (.timer true), .turn 1 (Conn.loginEvent "\"b\"")] →
        run (step Conn.sampleCjson 0) (start Conn.sampleShared) before = some m →
        m.Served Conn.sampleCjson 0 := by
  have hsome : (run (step Conn.sampleCjson 0) (start Conn.sampleShared)
      (loggedIn ++ [.turn 0 (.timer true), .turn 1 (Conn.loginEvent "\"b\"")])).isSome := by
    decide +kernel
  obtain ⟨l, hrun⟩ := Option.isSome_iff_exists.mp hsome
  refine ⟨l, hrun, (served_iff Conn.sampleCjson hrun).mpr ?_⟩
  decide +kernel

def loginAgain : List StreamServer.Event := [.turn 0 (Conn.loginEvent "\"b\"")]

/-- Six silent ticks, a heartbeat, and the next tick. -/
def lateHeartbeat : List StreamServer.Event :=
  List.replicate 6 (.turn 0 (.timer true)) ++
    [.turn 0 (.recv (.packet 0x01010101 kHeartReq (Conn.loginBody "\"a\"") none) ⟨true, []⟩),
      .turn 0 (.timer true)]

/-- The second connection logs in, and the full map drops the entry of the first one. -/
def crowdedOut : List StreamServer.Event :=
  [.turn 1 (.recv (.packet 0x01010101 kLoginReq (Conn.loginBody "\"b\"") none)
    ⟨true, ["client_10_0_0_7_40000"]⟩)]

theorem not_served {l : Ledger} {c : Conn} {type : Option Json} {cjson : Cjson}
    (hc : l.conn 0 = some c) (hreading : c.main = .reading) (htype : l.type = some type)
    (hentry : Json.luaEq (c.shared.clientTypes.lookup c.session.sessionid) type = false) :
    ¬ l.Served cjson 0 := by
  intro h
  obtain ⟨t, rfl, hserves⟩ := h c hc hreading type htype
  rw [hserves.entry, Json.luaEq_self hserves.storable] at hentry
  cases hentry

def tableLogin : List StreamServer.Event :=
  [.connect "10.0.0.7" "40000", .turn 0 (Conn.loginEvent "[]")]

/-- Behind these events the first connection is read, and not served as it was acknowledged. -/
def Unserved (events : List StreamServer.Event) : Prop :=
  ∃ l, run (step Conn.sampleCjson 0) (start Conn.sampleShared) events = some l ∧
    ¬ l.Served Conn.sampleCjson 0

theorem unserved_of_entry {events : List StreamServer.Event}
    (h : ∃ l ∈ run (step Conn.sampleCjson 0) (start Conn.sampleShared) events,
      ∃ c ∈ l.conn 0, c.main = .reading ∧ ∃ type ∈ l.type,
        Json.luaEq (c.shared.clientTypes.lookup c.session.sessionid) type = false) :
    Unserved events := by
  obtain ⟨l, hrun, c, hc, hreading, type, htype, hentry⟩ := h
  exact ⟨l, hrun, not_served hc hreading htype hentry⟩

theorem acknowledged_not_served :
    Unserved (loggedIn ++ loginAgain) ∧ Unserved (loggedIn ++ lateHeartbeat) ∧
      Unserved (loggedIn ++ crowdedOut) ∧ Unserved tableLogin := by
  refine ⟨unserved_of_entry ?_, unserved_of_entry ?_, unserved_of_entry ?_, unserved_of_entry ?_⟩
  · decide +kernel
  · decide +kernel
  · decide +kernel
  · decide +kernel

end Ledger

end CloudEdgePush.Server
