import CloudEdgePush.Server.Bodies
import CloudEdgePush.Server.Connections
import CloudEdgePush.Server.PushDelivery

/-!
# Sessions that have been acknowledged

Beside the server runs a ledger of one connection: the type in the last login request that was
answered with a `login_rsp`.  While the connection is read, the map should hold this type for the
session, and a push for the type should get to its socket (`Served`).  `Keeps` says which turns,
of the connection and of all the others, leave it so.
-/

namespace CloudEdgePush.Server

open CloudEdgePush.Lib.Transition
open CloudEdgePush.Server.MessagePacket CloudEdgePush.Server.MessageDef

namespace Conn

variable (cjson : Cjson)

/-! ## Acknowledgements -/

/-- The type in the login request that is acknowledged at a turn. -/
def acknowledged (c : Conn) : Event → Option (Option Json)
  | .recv (.packet syncBytes typ body binarydata) res =>
      match Pipeline.replyOf cjson c (.recv (.packet syncBytes typ body binarydata) res) with
      | some (_, replyTyp, _) =>
          if replyTyp = kLoginRsp then some (requestedType (cjson.decode body)).join else none
      | none => none
  | _ => none

def loginRsp (timestamp : Option Json) : Json :=
  .obj ([("msg_type", .str "login_rsp"), ("data", .obj [("code", .num "1000")])] ++
    timestamp.toList.map (Prod.mk "timestamp"))

/-- The login requests that are acknowledged: the handler does not raise, and the answer has an
encoding. -/
def Acknowledges (isLogin : Bool) (typ : Int) (tbl : Option Json) (timerOk : Bool) : Prop :=
  typ = kLoginReq ∧ raises isLogin typ tbl timerOk = false ∧
    (cjson.encode (loginRsp ((Json.index tbl "timestamp").getD none))).isSome = true

instance (isLogin : Bool) (typ : Int) (tbl : Option Json) (timerOk : Bool) :
    Decidable (Acknowledges cjson isLogin typ tbl timerOk) :=
  inferInstanceAs (Decidable (_ ∧ _ ∧ _))

theorem doLoginReq_returned {c : Conn} {tbl : Option Json} {res : Resources}
    (h : ¬((c.doLoginReq tbl res).1 = .raised ∨ (c.doLoginReq tbl res).1 = .returned none)) :
    (c.doLoginReq tbl res).1 = .returned (some ⟨"login_rsp", kLoginRsp, "1000"⟩) := by
  have hstart (d : Conn) (htimer : res.timerOk = true) : (d.startSession res.timerOk).1 =
      .returned (some ⟨"login_rsp", kLoginRsp, "1000"⟩) := by
    rw [startSession, if_pos htimer]
  rw [doLoginReq_raised_iff, not_and_or, not_or, Bool.not_eq_false, Bool.not_eq_false] at h
  unfold doLoginReq
  by_cases hlogin : c.session.isLogin = true
  · rw [if_pos hlogin]
  · rw [if_neg hlogin]
    obtain ⟨hrequested, htimer⟩ := h.resolve_left hlogin
    cases htype : requestedType tbl with
    | none => exact absurd htype hrequested
    | some type =>
        cases type with
        | none => exact hstart _ htimer
        | some type => exact hstart _ htimer

theorem proc_login {c : Conn} {body : List UInt8} {res : Resources}
    (h : raises c.session.isLogin kLoginReq (cjson.decode body) res.timerOk = false) :
    (c.proc cjson kLoginReq body res).1 = .returned ((cjson.encode
      (loginRsp ((Json.index (cjson.decode body) "timestamp").getD none))).map
        (Prod.mk kLoginRsp)) := by
  have hnot : (c.proc cjson kLoginReq body res).1 ≠ .raised := by
    rw [ne_eq, proc_raised_iff, h]
    exact Bool.false_ne_true
  rw [proc, if_pos rfl, ne_eq, finish_raised_iff, not_or, not_or, Bool.not_eq_false] at hnot
  obtain ⟨hraised, hnone, hindexable⟩ := hnot
  obtain ⟨timestamp, htimestamp⟩ := (indexable_iff "timestamp").mp hindexable
  have hreturned := doLoginReq_returned (not_or.mpr ⟨hraised, hnone⟩)
  rw [proc, if_pos rfl]
  generalize c.doLoginReq (cjson.decode body) res = result at hreturned
  obtain ⟨outcome, c'⟩ := result
  obtain rfl : outcome = _ := hreturned
  simp only [finish, encodeReply, htimestamp, Option.getD_some]
  rfl

theorem acknowledged_packet {c : Conn} {syncBytes typ : Int} {body : List UInt8}
    {binarydata : Option (List UInt8)} {res : Resources}
    (h : Acknowledges cjson c.session.isLogin typ (cjson.decode body) res.timerOk) :
    c.acknowledged cjson (.recv (.packet syncBytes typ body binarydata) res) =
      some (requestedType (cjson.decode body)).join := by
  obtain ⟨rfl, hreturns, hencodes⟩ := h
  obtain ⟨text, htext⟩ := Option.isSome_iff_exists.mp hencodes
  have hproc := proc_login cjson (c := { c with session.syncBytes := syncBytes }) hreturns
  rw [htext] at hproc
  simp [acknowledged, Pipeline.replyOf, hproc]

theorem acknowledges_of_replyOf {c : Conn} {syncBytes typ replySync : Int} {body text : List UInt8}
    {binarydata : Option (List UInt8)} {res : Resources}
    (h : Pipeline.replyOf cjson c (.recv (.packet syncBytes typ body binarydata) res) =
      some (replySync, kLoginRsp, text)) :
    Acknowledges cjson c.session.isLogin typ (cjson.decode body) res.timerOk := by
  let d : Conn := { c with session.syncBytes := syncBytes }
  obtain rfl : typ = kLoginReq := by
    have hanswer := (Pipeline.replyOf_eq_some h).2
    unfold answerOf at hanswer
    split at hanswer
    · assumption
    · split at hanswer
      · exact absurd (Option.some.inj hanswer) (by decide)
      · cases hanswer
  have hproc : (d.proc cjson kLoginReq body res).1 = .returned (some (kLoginRsp, text)) := by
    unfold Pipeline.replyOf at h
    dsimp only at h
    split at h
    · rename_i hreturned
      obtain ⟨-, heq⟩ := Prod.mk.inj (Option.some.inj h)
      obtain ⟨rfl, rfl⟩ := Prod.mk.inj heq
      exact hreturned
    · cases h
  have hreturns : raises c.session.isLogin kLoginReq (cjson.decode body) res.timerOk = false := by
    have hnot := (proc_raised_iff cjson d kLoginReq body res).not.mp (by rw [hproc]; nofun)
    exact Bool.not_eq_true _ ▸ hnot
  refine ⟨rfl, hreturns, ?_⟩
  have hencoded := (proc_login cjson (c := d) hreturns).symm.trans hproc
  obtain ⟨text', htext, -⟩ := Option.map_eq_some_iff.mp (Outcome.returned.inj hencoded)
  exact Option.isSome_iff_exists.mpr ⟨text', htext⟩

theorem acknowledges_of_acknowledged {c : Conn} {e : Event} {type : Option Json}
    (h : c.acknowledged cjson e = some type) :
    ∃ syncBytes typ body binarydata res, e = .recv (.packet syncBytes typ body binarydata) res ∧
      Acknowledges cjson c.session.isLogin typ (cjson.decode body) res.timerOk ∧
      type = (requestedType (cjson.decode body)).join := by
  cases e with
  | recv received res =>
      cases received with
      | raised => cases h
      | err error => cases h
      | packet syncBytes typ body binarydata =>
          refine ⟨syncBytes, typ, body, binarydata, res, rfl, ?_⟩
          cases hreply : Pipeline.replyOf cjson c
              (.recv (.packet syncBytes typ body binarydata) res) with
          | none => simp [acknowledged, hreply] at h
          | some reply =>
              obtain ⟨replySync, replyTyp, text⟩ := reply
              simp only [acknowledged, hreply, Option.ite_none_right_eq_some,
                Option.some.injEq] at h
              obtain ⟨rfl, rfl⟩ := h
              exact ⟨acknowledges_of_replyOf cjson hreply, rfl⟩
  | joined => cases h
  | timer timerOk => cases h
  | notify thread => cases h
  | send ok => cases h

/-! ## Turns of the connection -/

/-- What holds of a session while `_main_proc` reads. -/
structure ReadingInv (c : Conn) : Prop where
  threads : c.session.isLogin = true → c.notifyThreads ≠ []
  sender : c.session.exit = false → c.sender = true

theorem notifyThreads_proc (c : Conn) (typ : Int) (body : List UInt8) (res : Resources) :
    c.notifyThreads <+: (c.proc cjson typ body res).2.notifyThreads := by
  apply rel_proc cjson (fun c c' => c.notifyThreads <+: c'.notifyThreads) List.IsPrefix.trans
  · intro log isLogin heartBeatFlag
    exact List.prefix_rfl
  · intro c type
    unfold setType
    dsimp only
    split
    · exact List.prefix_rfl
    · exact List.prefix_rfl
  · intro c
    unfold startSession
    split
    · exact List.prefix_append _ _
    · exact List.prefix_append _ _

structure GoesOn (c : Conn) (typ : Int) (c' : Conn) : Prop where
  isLogin : c'.session.isLogin = (c.session.isLogin || typ = kLoginReq)
  exit : c.session.exit = false ∧ c'.session.exit = false
  sender : c'.sender = c.sender
  threads : c.notifyThreads <+: c'.notifyThreads
  whole : LoginWhole c c'

theorem goesOn_mainProc {c : Conn} {syncBytes typ : Int} {body : List UInt8}
    {binarydata : Option (List UInt8)} {res : Resources}
    (hreading : (c.mainProc cjson (.packet syncBytes typ body binarydata) res).main = .reading) :
    c.GoesOn typ (c.mainProc cjson (.packet syncBytes typ body binarydata) res) := by
  let d : Conn := { c with session.syncBytes := syncBytes }
  have hkept := Kept.proc cjson d typ body res
  have hgoes (d' : Conn) (hsession : d'.session = (d.proc cjson typ body res).2.session)
      (hsender : d'.sender = (d.proc cjson typ body res).2.sender)
      (hthreads : d'.notifyThreads = (d.proc cjson typ body res).2.notifyThreads)
      (htimers : d'.timers = (d.proc cjson typ body res).2.timers)
      (hreturns : (d.proc cjson typ body res).1 ≠ .raised) (hmain : d'.loop.main = .reading) :
      c.GoesOn typ d'.loop := by
    have hexit : d'.session.exit = false := by
      by_contra hexit
      rw [loop_eq] at hmain
      simp [hexit] at hmain
    have hbefore : c.session.exit = false := by
      rw [← hexit, hsession]
      exact hkept.exit.symm
    have hwhole := loginWhole_proc cjson d typ body res hreturns
    rw [loop_eq]
    refine ⟨?_, ⟨hbefore, hexit⟩, hsender.trans hkept.sender, ?_, ?_⟩
    · show d'.session.isLogin = _
      rw [hsession]
      exact isLogin_proc cjson d typ body res
    · show c.notifyThreads <+: d'.notifyThreads
      rw [hthreads]
      exact notifyThreads_proc cjson d typ body res
    · show d'.session.isLogin = _ ∨ d'.session.notifyMsgThread = _ ∧ _ ∈ d'.notifyThreads ∧
        d'.timers = _
      rw [hsession, hthreads, htimers]
      exact hwhole
  have hturn := packetTurn_mainProc cjson c syncBytes typ body binarydata res
  generalize c.mainProc cjson _ res = c' at hturn hreading ⊢
  cases hturn with
  | raised _ => cases hreading
  | silent h => exact hgoes _ rfl rfl rfl rfl (by rw [h]; nofun) hreading
  | reply typ' body' h => exact hgoes _ rfl rfl rfl rfl (by rw [h]; nofun) hreading

theorem ReadingInv.packet {c c' : Conn} {typ : Int} (h : ReadingInv c) (hgoes : c.GoesOn typ c') :
    ReadingInv c' where
  threads hlogin := by
    rcases hgoes.whole with hsame | ⟨-, hmem, -⟩
    · intro hnone
      have hbefore := List.prefix_nil.mp (hnone ▸ hgoes.threads)
      exact h.threads (hsame.symm.trans hlogin) hbefore
    · exact List.ne_nil_of_mem hmem
  sender _ := hgoes.sender.trans (h.sender hgoes.exit.1)

theorem step_readingInv {c c' : Conn} {e : Event} (h : ReadingInv c)
    (hstep : step cjson c e = some c') (hreading : c'.main = .reading) : ReadingInv c' := by
  cases turn_of_step cjson hstep with
  | recv received res _ =>
      obtain ⟨-, syncBytes, typ, body, binarydata, rfl⟩ := main_mainProc cjson hreading
      exact h.packet (goesOn_mainProc cjson hreading)
  | joined _ _ => cases hreading
  | timer timerOk _ =>
      unfold dealHeartBeat
      split
      · exact ⟨nofun, h.sender⟩
      · unfold countTick
        split
        all_goals
          split
          all_goals exact ⟨h.threads, h.sender⟩
  | notify thread _ =>
      unfold notifyMsgProc
      split
      · rename_i hout
        refine ⟨fun hlogin => ?_, h.sender⟩
        have hin : c.session.isLogin = true := hlogin
        simp [hin] at hout
      · split
        · exact h
        · exact ⟨h.threads, h.sender⟩
  | send ok _ =>
      unfold sendMessage
      split
      · rename_i hexit
        refine ⟨h.threads, fun hnot => ?_⟩
        have hgoes : c.session.exit = false := hnot
        rw [hexit] at hgoes
        cases hgoes
      · split
        · exact h
        · cases ok with
          | true => exact ⟨h.threads, h.sender⟩
          | false => exact ⟨h.threads, nofun⟩

end Conn

end CloudEdgePush.Server
