import CloudEdgePush.Server.Turns

/-!
# Bodies of any shape

A body decodes to any JSON value or to none.  The handlers guard their indexing by
`not tbl and not tbl.data`, which rejects no table without `data` and indexes a value that is
none.
-/

namespace CloudEdgePush.Server

open CloudEdgePush.Server.MessagePacket CloudEdgePush.Server.MessageDef

namespace Conn

variable (cjson : Cjson)

/-! ## What a message should do -/

def dataMissing (tbl : Option Json) : Bool :=
  match Json.index tbl "data" with
  | some (some _) => false
  | _ => true

def heartRsp (code : String) (timestamp : Option Json) : Json :=
  .obj ([("msg_type", .str "heart_rsp"), ("data", .obj [("code", .num code)])] ++
    timestamp.toList.map (Prod.mk "timestamp"))

/-- The answer that a heartbeat with this body should get. -/
def dueHeartRsp (tbl : Option Json) : Json :=
  heartRsp (if dataMissing tbl then "1006" else "1000") ((Json.index tbl "timestamp").getD none)

/-- The login flag is as it was, or the notify thread and the monitor have been started. -/
def LoginWhole (c c' : Conn) : Prop :=
  c'.session.isLogin = c.session.isLogin ∨
    c'.session.notifyMsgThread = some c.spawned ∧ c.spawned ∈ c'.notifyThreads ∧
      c'.timers = c.timers + 1

/-- What `proc` should do with a message, whatever its body. -/
structure Handled (c : Conn) (typ : Int) (body : List UInt8) (res : Resources) : Prop where
  returns : (c.proc cjson typ body res).1 ≠ .raised
  heart : typ = kHeartReq → ∃ text, cjson.encode (dueHeartRsp (cjson.decode body)) = some text ∧
    (c.proc cjson typ body res).1 = .returned (some (kHeartRsp, text))
  goes : ∀ syncBytes binarydata,
    (c.mainProc cjson (.packet syncBytes typ body binarydata) res).main =
      if c.session.exit then .ended else c.main
  login : LoginWhole c (c.proc cjson typ body res).2

/-- The bodies with which this is the case: a heartbeat has `data` and an answer that can be
encoded, a login can be indexed and, unless the session is logged in, so can its `data` if it is
true, and the `data` of file infos can be indexed. -/
def Fits (isLogin : Bool) (typ : Int) (tbl : Option Json) (timerOk : Bool) : Prop :=
  if typ = kHeartReq then
    dataMissing tbl = false ∧ (cjson.encode (dueHeartRsp tbl)).isSome = true
  else if typ = kLoginReq then
    ∃ data, Json.index tbl "data" = some data ∧
      (isLogin = true ∨ (Json.truthy data = true → Json.indexable data = true) ∧ timerOk = true)
  else if typ = kSendFileInfosNtf then
    ∃ data, Json.index tbl "data" = some data ∧ Json.indexable data = true
  else True

/-! ## Which messages raise -/

theorem indexable_iff {tbl : Option Json} (key : String) :
    Json.indexable tbl = true ↔ ∃ v, Json.index tbl key = some v := by
  rw [← Option.isSome_iff_exists, ← Bool.not_eq_false, ← Json.index_eq_none_iff tbl key]
  exact Option.ne_none_iff_isSome

theorem requestedType_isSome_iff {tbl data : Option Json} (hdata : Json.index tbl "data" = some data) :
    (requestedType tbl).isSome = true ↔
      (Json.truthy data = true → Json.indexable data = true) := by
  simp only [requestedType, hdata]
  cases htruthy : Json.truthy data with
  | false => simp
  | true =>
      rw [if_pos rfl, Option.isSome_map, indexable_iff "type", Option.isSome_iff_exists]
      simp

theorem raises_login_iff {isLogin timerOk : Bool} {tbl : Option Json} :
    raises isLogin kLoginReq tbl timerOk = false ↔ Fits cjson isLogin kLoginReq tbl timerOk := by
  rw [raises, Fits, if_pos rfl, if_neg (by decide), if_pos rfl]
  cases hdata : Json.index tbl "data" with
  | none =>
      have hindexable := (Json.index_eq_none_iff tbl "data").mp hdata
      simp [hindexable]
  | some data =>
      have hindexable := (indexable_iff "data").mpr ⟨data, hdata⟩
      have htype := requestedType_isSome_iff hdata
      cases isLogin <;> cases timerOk <;> simp [hindexable, ← htype]

theorem raises_infos_iff {isLogin timerOk : Bool} {tbl : Option Json} :
    raises isLogin kSendFileInfosNtf tbl timerOk = false ↔
      Fits cjson isLogin kSendFileInfosNtf tbl timerOk := by
  rw [raises, Fits, if_neg (by decide), if_neg (by decide), if_pos rfl, if_neg (by decide),
    if_neg (by decide), if_pos rfl]
  cases Json.index tbl "data" <;> simp

theorem raises_eq_false_iff {isLogin timerOk : Bool} {typ : Int} {tbl : Option Json}
    (hheart : typ ≠ kHeartReq) :
    raises isLogin typ tbl timerOk = false ↔ Fits cjson isLogin typ tbl timerOk := by
  by_cases hlogin : typ = kLoginReq
  · rw [hlogin]
    exact raises_login_iff cjson
  · by_cases hinfos : typ = kSendFileInfosNtf
    · rw [hinfos]
      exact raises_infos_iff cjson
    · simp [raises, Fits, hheart, hlogin, hinfos]

/-! ## What returns -/

theorem loginWhole_doLoginReq (c : Conn) (tbl : Option Json) (res : Resources)
    (hreturns : ¬((c.doLoginReq tbl res).1 = .raised ∨
      (c.doLoginReq tbl res).1 = .returned none)) :
    LoginWhole c (c.doLoginReq tbl res).2 := by
  rw [doLoginReq_raised_iff, not_and_or, not_or, Bool.not_eq_false, Bool.not_eq_false] at hreturns
  have hstart (d : Conn) (hspawned : d.spawned = c.spawned) (htimers : d.timers = c.timers)
      (htimer : res.timerOk = true) : LoginWhole c (d.startSession res.timerOk).2 := by
    rw [startSession, if_pos htimer, LoginWhole, ← hspawned, ← htimers]
    exact .inr ⟨rfl, List.mem_append_right _ (List.mem_singleton_self _), rfl⟩
  unfold doLoginReq
  by_cases hlogin : c.session.isLogin = true
  · rw [if_pos hlogin]
    exact .inl rfl
  · rw [if_neg hlogin]
    obtain ⟨hrequested, htimer⟩ := hreturns.resolve_left hlogin
    cases htype : requestedType tbl with
    | none => exact absurd htype hrequested
    | some type =>
        cases type with
        | none => exact hstart _ rfl rfl htimer
        | some type =>
            apply hstart _ _ _ htimer
            · simp only [setType]
              split <;> rfl
            · simp only [setType]
              split <;> rfl

theorem loginWhole_proc (c : Conn) (typ : Int) (body : List UInt8) (res : Resources)
    (hreturns : (c.proc cjson typ body res).1 ≠ .raised) :
    LoginWhole c (c.proc cjson typ body res).2 := by
  rw [proc_snd]
  by_cases hlogin : typ = kLoginReq
  · rw [if_pos hlogin]
    apply loginWhole_doLoginReq
    intro hraised
    apply hreturns
    rw [proc, if_pos hlogin, finish_raised_iff]
    exact hraised.elim .inl fun hnone => .inr (.inl hnone)
  · rw [if_neg hlogin]
    split
    · rw [doHeartReq_snd]
      exact .inl rfl
    · exact .inl rfl

theorem goes_of_returns (c : Conn) (typ : Int) (body : List UInt8) (res : Resources)
    (hreturns : (c.proc cjson typ body res).1 ≠ .raised) (syncBytes : Int)
    (binarydata : Option (List UInt8)) :
    (c.mainProc cjson (.packet syncBytes typ body binarydata) res).main =
      if c.session.exit then .ended else c.main := by
  let d : Conn := { c with session.syncBytes := syncBytes }
  have hsame : (d.proc cjson typ body res).1 ≠ .raised := by
    rw [ne_eq, proc_raised_iff] at hreturns ⊢
    exact hreturns
  have hexit : (d.proc cjson typ body res).2.session.exit = c.session.exit :=
    (Kept.proc cjson d typ body res).exit
  have hmain : (d.proc cjson typ body res).2.main = c.main :=
    (logged_proc cjson d typ body res).main
  have hloop (e : Conn) (hexit : e.session.exit = c.session.exit) (hmain : e.main = c.main) :
      e.loop.main = if c.session.exit then .ended else c.main := by
    rw [loop_eq]
    dsimp only
    rw [hexit, hmain]
  have hturn := packetTurn_mainProc cjson c syncBytes typ body binarydata res
  generalize c.mainProc cjson _ res = c' at hturn ⊢
  cases hturn with
  | raised hraised => exact absurd hraised hsame
  | silent _ => exact hloop _ hexit hmain
  | reply typ' body' _ => exact hloop _ hexit hmain

/-- Every heartbeat that can be indexed is answered with 1000. -/
theorem proc_heart (c : Conn) (body : List UInt8) (res : Resources)
    (hindexable : Json.indexable (cjson.decode body) = true) :
    (c.proc cjson kHeartReq body res).1 = .returned ((cjson.encode
      (heartRsp "1000" ((Json.index (cjson.decode body) "timestamp").getD none))).map
        (Prod.mk kHeartRsp)) := by
  obtain ⟨timestamp, htimestamp⟩ := (indexable_iff "timestamp").mp hindexable
  have htruthy : Json.truthy (cjson.decode body) = true := by
    cases htbl : cjson.decode body with
    | none => simp [htbl, Json.indexable] at hindexable
    | some v => cases v <;> simp_all [Json.indexable, Json.truthy]
  rw [proc, if_neg (by decide), if_pos rfl, doHeartReq, if_pos htruthy]
  simp only [finish, encodeReply, htimestamp, Option.getD_some]
  rfl

/-! ## The law -/

def CodesDiffer : Prop :=
  ∀ timestamp text, cjson.encode (heartRsp "1006" timestamp) = some text →
    cjson.encode (heartRsp "1000" timestamp) ≠ some text

theorem indexable_of_data {tbl : Option Json} (hdata : dataMissing tbl = false) :
    Json.indexable tbl = true := by
  apply (indexable_iff "data").mpr
  cases hindex : Json.index tbl "data" with
  | none => simp [dataMissing, hindex] at hdata
  | some data => exact ⟨data, rfl⟩

theorem indexable_of_returns {c : Conn} {body : List UInt8} {res : Resources}
    (hreturns : (c.proc cjson kHeartReq body res).1 ≠ .raised) :
    Json.indexable (cjson.decode body) = true := by
  rw [ne_eq, proc_raised_iff, raises, if_neg (by decide), if_pos rfl] at hreturns
  simpa using hreturns

theorem handled_heart_iff (hcodes : CodesDiffer cjson) (c : Conn) (body : List UInt8)
    (res : Resources) :
    Handled cjson c kHeartReq body res ↔ dataMissing (cjson.decode body) = false ∧
      (cjson.encode (dueHeartRsp (cjson.decode body))).isSome = true := by
  constructor
  · intro hhandled
    obtain ⟨text, hdue, hproc⟩ := hhandled.heart rfl
    refine ⟨?_, Option.isSome_iff_exists.mpr ⟨text, hdue⟩⟩
    rw [proc_heart cjson c body res (indexable_of_returns cjson hhandled.returns)] at hproc
    cases hmissing : dataMissing (cjson.decode body) with
    | false => rfl
    | true =>
        -- the answer has the other code
        rw [dueHeartRsp, hmissing, if_pos rfl] at hdue
        obtain ⟨found, hfound, hsame⟩ :=
          Option.map_eq_some_iff.mp (Outcome.returned.inj hproc)
        rw [(Prod.mk.inj hsame).2] at hfound
        exact absurd hfound (hcodes _ text hdue)
  · rintro ⟨hdata, hencode⟩
    obtain ⟨text, htext⟩ := Option.isSome_iff_exists.mp hencode
    have hproc := proc_heart cjson c body res (indexable_of_data hdata)
    have hreturns : (c.proc cjson kHeartReq body res).1 ≠ .raised := by
      rw [hproc]
      exact nofun
    refine ⟨hreturns, fun _ => ⟨text, htext, ?_⟩,
      goes_of_returns cjson c kHeartReq body res hreturns,
      loginWhole_proc cjson c kHeartReq body res hreturns⟩
    rw [dueHeartRsp, hdata, if_neg Bool.false_ne_true] at htext
    rw [hproc, htext, Option.map_some]

/-- `proc` does what it should with a message exactly if its body fits. -/
theorem handled_iff (hcodes : CodesDiffer cjson) (c : Conn) (typ : Int) (body : List UInt8)
    (res : Resources) :
    Handled cjson c typ body res ↔
      Fits cjson c.session.isLogin typ (cjson.decode body) res.timerOk := by
  by_cases hheart : typ = kHeartReq
  · subst hheart
    rw [Fits, if_pos rfl]
    exact handled_heart_iff cjson hcodes c body res
  · rw [← raises_eq_false_iff cjson hheart, ← Bool.not_eq_true, ← proc_raised_iff]
    constructor
    · intro hhandled
      exact hhandled.returns
    · intro hreturns
      exact ⟨hreturns, fun h => absurd h hheart, goes_of_returns cjson c typ body res hreturns,
        loginWhole_proc cjson c typ body res hreturns⟩

/-! ## Heartbeats with and without data -/

def heartCjson : Cjson where
  decode body :=
    if body = sampleText "\x7b\"data\":\x7b\x7d,\"timestamp\":1\x7d" then
      some (.obj [("data", .obj []), ("timestamp", .num "1")])
    else if body = sampleText "\x7b\x7d" then some (.obj [])
    else none
  encode
    | .obj [("msg_type", .str name), ("data", .obj [("code", .num code)])] =>
        some (sampleText ("\x7b\"msg_type\":\"" ++ name ++ "\",\"data\":\x7b\"code\":" ++ code) ++
          sampleText "\x7d\x7d")
    | .obj [("msg_type", .str name), ("data", .obj [("code", .num code)]),
        ("timestamp", .num timestamp)] =>
        some (sampleText ("\x7b\"msg_type\":\"" ++ name ++ "\",\"data\":\x7b\"code\":" ++ code) ++
          sampleText ("\x7d,\"timestamp\":" ++ timestamp ++ "\x7d"))
    | _ => none

theorem codesDiffer_heartCjson : CodesDiffer heartCjson := by
  have hdiffer : sampleText ("\x7b\"msg_type\":\"" ++ "heart_rsp" ++ "\",\"data\":\x7b\"code\":" ++ "1006") ≠
      sampleText ("\x7b\"msg_type\":\"" ++ "heart_rsp" ++ "\",\"data\":\x7b\"code\":" ++ "1000") := by
    decide +kernel
  intro timestamp text hother hthis
  cases timestamp with
  | none => exact hdiffer (List.append_cancel_right (Option.some.inj (hother.trans hthis.symm)))
  | some v =>
      cases v with
      | num n => exact hdiffer (List.append_cancel_right (Option.some.inj (hother.trans hthis.symm)))
      | null => cases hother
      | bool b => cases hother
      | str s => cases hother
      | arr elements => cases hother
      | obj members => cases hother

def heartConn : Conn := connect "client_127_0_0_1_9000" sampleShared

theorem handled_heartbeat : Handled heartCjson heartConn kHeartReq
    (sampleText "\x7b\"data\":\x7b\x7d,\"timestamp\":1\x7d") ⟨true, []⟩ := by
  apply (handled_iff heartCjson codesDiffer_heartCjson _ _ _ _).mpr
  rw [Fits, if_pos rfl]
  decide +kernel

/-- A heartbeat whose body is no JSON ends the loop without an answer. -/
theorem undecodable_heartbeat_raises : ¬ ∀ (cjson : Cjson), CodesDiffer cjson →
    ∀ (c : Conn) (typ : Int) (body : List UInt8),
      Handled cjson c typ body ⟨true, []⟩ := by
  intro hall
  apply (hall heartCjson codesDiffer_heartCjson heartConn kHeartReq (sampleText "x")).returns
  apply (proc_raised_iff heartCjson heartConn kHeartReq (sampleText "x") ⟨true, []⟩).mpr
  decide +kernel

end Conn

end CloudEdgePush.Server
