import CloudEdgePush.Server.ServiceQuery

/-!
# What `service_pushfile` pushes

Every requested entry that has a record gives one message to each session registered under the
record's type.  The two loops are left early in different places: the first at an entry without
a record, which ends the request before anything is pushed, the second at a record without
fields or without an encoding.
-/

namespace CloudEdgePush.Server.ServicePushfile

open CloudEdgePush.Lib

variable {ν : Type} (h : Host ν) (s : Store ν) (now : String)

/-! ## What the request asks for -/

def entries : Option Json → List Json
  | some (.arr ts) => ts
  | _ => []

def recordOf (t : Json) : Option Json := do
  let type ← Json.index (some t) "type"
  let filename ← Json.index (some t) "filename"
  if Json.truthy type && Json.truthy filename then infoOf h s type filename else none

def raises (t : Json) : Bool :=
  match Json.index (some t) "type", Json.index (some t) "filename" with
  | some type, some filename =>
      Json.truthy type && Json.truthy filename && (infoOf h s type filename).isNone
  | _, _ => true

def requested (tbl : Option Json) : List Json := (entries tbl).filterMap (recordOf h s)

def registered (types : ClientTypes) (sessionid : String) (f : Json) : Bool :=
  (types.lookup sessionid).any fun type =>
    Json.luaEq (some type) ((Json.index (some f) "type").getD none)

def message (f : Json) : Option (List UInt8) :=
  h.cjson.encode (.obj [("data", f), ("timestamp", .num now)])

/-- Every session got one message for each of the records of its type, in their order, and
nothing else changed. -/
def Pushed (infos : List Json) (s t : Store ν) : Prop :=
  ∃ pushed : String → List (List UInt8),
    t = { s with
      shared.notifyMsgQueue := fun sessionid =>
        s.shared.notifyMsgQueue sessionid ++ pushed sessionid } ∧
    ∀ sessionid, (infos.filter (registered s.shared.clientTypes sessionid)).map (message h now) =
      (pushed sessionid).map some

/-! ## The turns of the second loop -/

def turns (types : ClientTypes) (infos : List Json) : List (Json × String) :=
  infos.flatMap fun f => types.keys.map (Prod.mk f)

def goes (types : ClientTypes) (t : Json × String) : Bool :=
  (Json.index (some t.1) "type").isSome &&
    (!registered types t.2 t.1 || (h.cjson.encode t.1).isSome)

/-- The turns that are not taken: all of them when the first loop raises, and else those behind
the turn at which the second one raises. -/
def missed (tbl : Option Json) : List (Json × String) :=
  let all := turns s.shared.clientTypes (requested h s tbl)
  if (entries tbl).any (raises h s) then all else behind (goes h s.shared.clientTypes) all

def turn (shared : Shared) (t : Json × String) : Shared × Bool := pushTo h now t.1 shared t.2

def arriving (types : ClientTypes) (sessionid : String) (t : Json × String) :
    Option (List UInt8) :=
  if t.2 = sessionid ∧ registered types sessionid t.1 = true then message h now t.1 else none

def after (shared : Shared) (taken : List (Json × String)) : Shared :=
  { shared with
    notifyMsgQueue := fun sessionid =>
      shared.notifyMsgQueue sessionid ++
        taken.filterMap (arriving h now shared.clientTypes sessionid) }

section

variable {h s now} {types : ClientTypes} {infos : List Json} {f : Json} {sessionid : String}

theorem filesInfo_cons (t : Json) (ts : List Json) :
    filesInfo h s (t :: ts) =
      if raises h s t then none
      else (filesInfo h s ts).map ((recordOf h s t).toList ++ ·) := by
  rw [filesInfo, raises, recordOf]
  cases htype : Json.index (some t) "type" with
  | none => rfl
  | some type =>
      cases hfilename : Json.index (some t) "filename" with
      | none => rfl
      | some filename =>
          simp only [Option.bind_eq_bind, Option.bind_some]
          cases htruthy : Json.truthy type && Json.truthy filename with
          | false =>
              rw [if_neg Bool.false_ne_true, if_neg Bool.false_ne_true, Bool.false_and,
                if_neg Bool.false_ne_true]
              cases filesInfo h s ts <;> rfl
          | true =>
              cases hinfo : infoOf h s type filename with
              | none => rfl
              | some info => cases filesInfo h s ts <;> rfl

/-- The first loop finds the records in the order of the request, unless an entry raises. -/
theorem filesInfo_eq (ts : List Json) :
    filesInfo h s ts = if ts.any (raises h s) then none else some (ts.filterMap (recordOf h s)) := by
  induction ts with
  | nil => rfl
  | cons t ts ih =>
      rw [filesInfo_cons, ih, List.any_cons]
      cases raises h s t with
      | true => rfl
      | false =>
          rw [if_neg Bool.false_ne_true, Bool.false_or]
          by_cases hrest : ts.any (raises h s) = true
          · rw [if_pos hrest, if_pos hrest, Option.map_none]
          · rw [if_neg hrest, if_neg hrest, Option.map_some, List.filterMap_cons]
            cases recordOf h s t <;> rfl

theorem mem_turns {t : Json × String} (ht : t ∈ turns types infos) :
    t.1 ∈ infos ∧ t.2 ∈ types := by
  obtain ⟨f, hf, hmem⟩ := List.mem_flatMap.mp ht
  obtain ⟨sessionid, hsession, rfl⟩ := List.mem_map.mp hmem
  exact ⟨hf, AList.mem_keys.mpr hsession⟩

theorem mem_of_registered (hreg : registered types sessionid f = true) : sessionid ∈ types := by
  apply AList.lookup_isSome.mp
  cases hlookup : types.lookup sessionid with
  | none => simp [registered, hlookup] at hreg
  | some type => rfl

theorem luaEq_lookup (hmem : sessionid ∈ types) :
    Json.luaEq (types.lookup sessionid) ((Json.index (some f) "type").getD none) =
      registered types sessionid f := by
  obtain ⟨type, hlookup⟩ := Option.isSome_iff_exists.mp (AList.lookup_isSome.mpr hmem)
  simp [registered, hlookup]

theorem registered_of_index_none (hindex : Json.index (some f) "type" = none) :
    registered types sessionid f = false := by
  cases hlookup : types.lookup sessionid with
  | none => simp [registered, hlookup]
  | some type => cases type <;> simp [registered, hlookup, hindex, Json.luaEq]

/-! ## One turn -/

theorem publishMessage_eq {shared : Shared}
    (hreg : registered shared.clientTypes sessionid f = true) :
    ServiceUpload.publishMessage h now shared f sessionid =
      after h now shared [(f, sessionid)] := by
  rw [ServiceUpload.publishMessage, ← message, after]
  cases hmessage : message h now f with
  | none =>
      have hnone (id : String) : [(f, sessionid)].filterMap
          (arriving h now shared.clientTypes id) = [] := by
        simp [arriving, hmessage]
      simp only [hnone, List.append_nil]
  | some msg =>
      have hqueue : Function.update shared.notifyMsgQueue sessionid
          (shared.notifyMsgQueue sessionid ++ [msg]) = fun id => shared.notifyMsgQueue id ++
            [(f, sessionid)].filterMap (arriving h now shared.clientTypes id) := by
        funext id
        by_cases hid : id = sessionid
        · subst hid
          simp [arriving, hreg, hmessage]
        · simp [arriving, hid, Ne.symm hid]
      simp only [hqueue]

theorem after_nil (shared : Shared) : after h now shared [] = shared := by
  simp only [after, List.filterMap_nil, List.append_nil]

theorem after_append (shared : Shared) (taken behind : List (Json × String)) :
    after h now shared (taken ++ behind) = after h now (after h now shared taken) behind := by
  simp only [after, List.append_assoc, ← List.filterMap_append]

theorem after_of_not_registered {shared : Shared}
    (hreg : registered shared.clientTypes sessionid f = false) :
    after h now shared [(f, sessionid)] = shared := by
  have hnone (id : String) : arriving h now shared.clientTypes id (f, sessionid) = none := by
    apply if_neg
    rintro ⟨rfl, htrue⟩
    exact Bool.false_ne_true (hreg.symm.trans htrue)
  simp only [after, List.filterMap_cons, hnone, List.filterMap_nil, List.append_nil]

theorem turn_eq {shared : Shared} {t : Json × String} (hmem : t.2 ∈ shared.clientTypes) :
    turn h now shared t = (after h now shared [t], goes h shared.clientTypes t) := by
  obtain ⟨f, sessionid⟩ := t
  rw [turn, pushTo, goes]
  cases hindex : Json.index (some f) "type" with
  | none => rw [after_of_not_registered (registered_of_index_none hindex)]; rfl
  | some type =>
      have hsame := luaEq_lookup (f := f) hmem
      rw [hindex, Option.getD_some] at hsame
      simp only [hsame]
      cases hreg : registered shared.clientTypes sessionid f with
      | true => rw [if_pos rfl, publishMessage_eq hreg]; rfl
      | false => rw [if_neg Bool.false_ne_true, after_of_not_registered hreg]; rfl

theorem clientTypes_pushTo (shared : Shared) :
    (pushTo h now f shared sessionid).1.clientTypes = shared.clientTypes := by
  rw [pushTo]
  cases Json.index (some f) "type" with
  | none => rfl
  | some type =>
      dsimp only
      split
      · rw [ServiceUpload.publishMessage]
        split <;> rfl
      · rfl

/-! ## The second loop -/

theorem push_eq_forEach (shared : Shared) (infos : List Json) :
    push h now shared infos =
      forEach (turn h now) shared (turns shared.clientTypes infos) := by
  have hframe (after : Shared) (f : Json) (sessionid : String)
      (hafter : after.clientTypes = shared.clientTypes) :
      (pushTo h now f after sessionid).1.clientTypes = shared.clientTypes := by
    rw [clientTypes_pushTo, hafter]
  have hnested := forEach_flatMap
    (fun f after sessionid => pushTo h now f after sessionid) shared infos
    shared.clientTypes.keys
  rw [push, turns]
  apply Eq.trans _ hnested
  apply forEach_congr fun after => after.clientTypes = shared.clientTypes
  · intro after f hafter
    rw [hafter]
  · intro after f hafter
    exact forEach_invariant (fun after => after.clientTypes = shared.clientTypes)
      (fun after sessionid => hframe after f sessionid) _ hafter
  · rfl

theorem foldl_eq_after {step : Shared → Json × String → Shared}
    (hstep : ∀ shared t, t.2 ∈ shared.clientTypes → step shared t = after h now shared [t])
    (shared : Shared) (taken : List (Json × String))
    (hmem : ∀ t ∈ taken, t.2 ∈ shared.clientTypes) :
    taken.foldl step shared = after h now shared taken := by
  induction taken generalizing shared with
  | nil => rw [List.foldl_nil, after_nil]
  | cons t taken ih =>
      obtain ⟨hhead, htail⟩ := List.forall_mem_cons.mp hmem
      have hrest := ih (after h now shared [t]) htail
      rw [← after_append, List.singleton_append] at hrest
      rw [List.foldl_cons, hstep shared t hhead]
      exact hrest

/-- The second loop takes the turns up to the one at which it is left. -/
theorem push_eq (shared : Shared) (infos : List Json) :
    (push h now shared infos).1 = after h now shared
      (upTo (goes h shared.clientTypes) (turns shared.clientTypes infos)) := by
  have hframe (after : Shared) (t : Json × String)
      (hafter : after.clientTypes = shared.clientTypes) :
      (turn h now after t).1.clientTypes = shared.clientTypes := by
    rw [turn, clientTypes_pushTo, hafter]
  have hgoes (after : Shared) (t : Json × String) (ht : t ∈ turns shared.clientTypes infos)
      (hafter : after.clientTypes = shared.clientTypes) :
      (turn h now after t).2 = goes h shared.clientTypes t := by
    have hmem : t.2 ∈ after.clientTypes := hafter ▸ (mem_turns ht).2
    rw [turn_eq hmem, hafter]
  have hmem : ∀ t ∈ upTo (goes h shared.clientTypes) (turns shared.clientTypes infos),
      t.2 ∈ shared.clientTypes := by
    intro t ht
    apply And.right
    apply mem_turns
    rw [← upTo_append_behind (goes h shared.clientTypes) (turns shared.clientTypes infos)]
    exact List.mem_append_left _ ht
  rw [push_eq_forEach, forEach_eq_foldl _ hframe _ hgoes rfl]
  apply foldl_eq_after _ shared _ hmem
  intro shared t ht
  rw [turn_eq ht]

theorem filterMap_arriving_map (keys : List String) (hkeys : keys.Nodup) :
    (keys.map (Prod.mk f)).filterMap (arriving h now types sessionid) =
      if sessionid ∈ keys ∧ registered types sessionid f = true then (message h now f).toList
      else [] := by
  induction keys with
  | nil => simp
  | cons key keys ih =>
      obtain ⟨hnotin, hnodup⟩ := List.nodup_cons.mp hkeys
      rw [List.map_cons, List.filterMap_cons, ih hnodup, arriving]
      by_cases hkey : key = sessionid
      · subst hkey
        cases hreg : registered types key f with
        | false => simp
        | true => cases hmessage : message h now f <;> simp [hnotin]
      · simp [hkey, Ne.symm hkey]

theorem filterMap_arriving_turns :
    (turns types infos).filterMap (arriving h now types sessionid) =
      (infos.filter (registered types sessionid)).filterMap (message h now) := by
  induction infos with
  | nil => rfl
  | cons f infos ih =>
      have hturns : turns types (f :: infos) = types.keys.map (Prod.mk f) ++ turns types infos :=
        List.flatMap_cons
      rw [hturns, List.filterMap_append, ih, filterMap_arriving_map _ types.keys_nodup,
        List.filter_cons]
      cases hreg : registered types sessionid f with
      | false => simp
      | true =>
          have hmem : sessionid ∈ types.keys := AList.mem_keys.mp (mem_of_registered hreg)
          rw [if_pos ⟨hmem, rfl⟩, if_pos rfl, List.filterMap_cons]
          cases message h now f <;> rfl

end

/-! ## The request -/

theorem run_post (tbl : Option Json) :
    (run h s "POST" tbl now).2 =
      if (entries tbl).any (raises h s) then s
      else { s with shared := (push h now s.shared (requested h s tbl)).1 } := by
  cases tbl with
  | none => rfl
  | some tbl =>
      cases tbl with
      | arr ts =>
          have hinfos := filesInfo_eq (h := h) (s := s) ts
          rw [entries, requested, entries]
          cases hraises : ts.any (raises h s) with
          | true => simp [run, hinfos, hraises]
          | false => simp [run, hinfos, hraises]
      | _ => rfl

/-- What a request does: all turns of the second loop but the missed ones. -/
theorem run_eq (tbl : Option Json) : ∃ taken,
    taken ++ missed h s tbl = turns s.shared.clientTypes (requested h s tbl) ∧
      (run h s "POST" tbl now).2 = { s with shared := after h now s.shared taken } := by
  rw [run_post, missed]
  by_cases hraises : (entries tbl).any (raises h s) = true
  · rw [if_pos hraises, if_pos hraises]
    exact ⟨[], List.nil_append _, by rw [after_nil]⟩
  · rw [if_neg hraises, if_neg hraises, push_eq]
    exact ⟨_, upTo_append_behind _ _, rfl⟩

/-! ## When everything is pushed -/

theorem map_eq_map_some_filterMap {α β : Type} {g : α → Option β} {l : List α}
    (hsome : ∀ a ∈ l, (g a).isSome) : l.map g = (l.filterMap g).map some := by
  induction l with
  | nil => rfl
  | cons a l ih =>
      obtain ⟨hhead, htail⟩ := List.forall_mem_cons.mp hsome
      obtain ⟨b, hb⟩ := Option.isSome_iff_exists.mp hhead
      rw [List.map_cons, List.filterMap_cons, hb, ih htail, List.map_cons]

theorem filterMap_eq_of_map_eq_map_some {α β : Type} {g : α → Option β} {l : List α} {bs : List β}
    (h : l.map g = bs.map some) : l.filterMap g = bs := by
  calc l.filterMap g = (l.map g).filterMap id := by rw [List.filterMap_map, Function.id_comp]
    _ = (bs.map some).filterMap id := by rw [h]
    _ = bs := by rw [List.filterMap_map, Function.id_comp, List.filterMap_some]

theorem filterMap_arriving_eq_nil {types : ClientTypes} {sessionid : String}
    {ts : List (Json × String)} :
    ts.filterMap (arriving h now types sessionid) = [] ↔
      ∀ t ∈ ts, t.2 = sessionid → registered types t.2 t.1 = true → message h now t.1 = none := by
  rw [List.filterMap_eq_nil_iff]
  apply forall₂_congr
  intro t ht
  rw [arriving]
  constructor
  · rintro harriving rfl hreg
    rwa [if_pos ⟨rfl, hreg⟩] at harriving
  · intro hnone
    by_cases hand : t.2 = sessionid ∧ registered types sessionid t.1 = true
    · obtain ⟨rfl, hreg⟩ := hand
      rw [if_pos ⟨rfl, hreg⟩, hnone rfl hreg]
    · rw [if_neg hand]

variable {h s now}

theorem Pushed.encoded {infos : List Json} {t : Store ν} (hpushed : Pushed h now infos s t)
    {f : Json} (hf : f ∈ infos) {sessionid : String}
    (hreg : registered s.shared.clientTypes sessionid f = true) : (message h now f).isSome := by
  obtain ⟨pushed, -, hmessages⟩ := hpushed
  have hmem : message h now f ∈ (pushed sessionid).map some := by
    rw [← hmessages sessionid]
    exact List.mem_map_of_mem (List.mem_filter.mpr ⟨hf, hreg⟩)
  obtain ⟨msg, -, hmsg⟩ := List.mem_map.mp hmem
  rw [← hmsg, Option.isSome_some]

section

variable {infos : List Json} {taken missed : List (Json × String)}

variable (now) in
theorem filterMap_arriving_append (hturns : taken ++ missed = turns s.shared.clientTypes infos)
    (sessionid : String) :
    taken.filterMap (arriving h now s.shared.clientTypes sessionid) ++
        missed.filterMap (arriving h now s.shared.clientTypes sessionid) =
      (infos.filter (registered s.shared.clientTypes sessionid)).filterMap (message h now) := by
  rw [← List.filterMap_append, hturns, filterMap_arriving_turns]

theorem Pushed.not_registered_of_missed
    (hturns : taken ++ missed = turns s.shared.clientTypes infos)
    (hpushed : Pushed h now infos s { s with shared := after h now s.shared taken })
    {t : Json × String} (ht : t ∈ missed) : ¬ registered s.shared.clientTypes t.2 t.1 := by
  intro hreg
  have hturn : t ∈ turns s.shared.clientTypes infos := hturns ▸ List.mem_append_right taken ht
  have hsome : (message h now t.1).isSome := hpushed.encoded (mem_turns hturn).1 hreg
  obtain ⟨pushed, hqueue, hmessages⟩ := hpushed
  have htaken : taken.filterMap (arriving h now s.shared.clientTypes t.2) = pushed t.2 := by
    have hsame := congrFun (congrArg (fun s => s.shared.notifyMsgQueue) hqueue) t.2
    exact List.append_cancel_left hsame
  have hnone : missed.filterMap (arriving h now s.shared.clientTypes t.2) = [] := by
    have hall := filterMap_arriving_append (h := h) now hturns t.2
    rw [htaken, filterMap_eq_of_map_eq_map_some (hmessages t.2)] at hall
    exact List.append_right_eq_self.mp hall
  rw [(filterMap_arriving_eq_nil h now).mp hnone t ht rfl hreg] at hsome
  exact Bool.false_ne_true hsome

theorem pushed_of_not_registered
    (hturns : taken ++ missed = turns s.shared.clientTypes infos)
    (hencoded : ∀ f ∈ infos, ∀ sessionid,
      registered s.shared.clientTypes sessionid f → (message h now f).isSome)
    (hmissed : ∀ t ∈ missed, ¬ registered s.shared.clientTypes t.2 t.1) :
    Pushed h now infos s { s with shared := after h now s.shared taken } := by
  refine ⟨fun sessionid => taken.filterMap (arriving h now s.shared.clientTypes sessionid),
    rfl, ?_⟩
  intro sessionid
  have hnone : missed.filterMap (arriving h now s.shared.clientTypes sessionid) = [] :=
    (filterMap_arriving_eq_nil h now).mpr fun t ht _ hreg => absurd hreg (hmissed t ht)
  have hall := filterMap_arriving_append (h := h) now hturns sessionid
  rw [hnone, List.append_nil] at hall
  simp only [hall]
  apply map_eq_map_some_filterMap
  intro f hf
  obtain ⟨hmem, hreg⟩ := List.mem_filter.mp hf
  exact hencoded f hmem sessionid hreg

end

variable (h s now)

/-- The records of a request reach the sessions exactly when every one of them has an encoding
and no turn with a session of the record's type is missed. -/
theorem pushed_iff (tbl : Option Json) :
    Pushed h now (requested h s tbl) s (run h s "POST" tbl now).2 ↔
      (∀ f ∈ requested h s tbl, ∀ sessionid,
        registered s.shared.clientTypes sessionid f → (message h now f).isSome) ∧
      ∀ t ∈ missed h s tbl, ¬ registered s.shared.clientTypes t.2 t.1 := by
  obtain ⟨taken, hturns, hrun⟩ := run_eq h s now tbl
  rw [hrun]
  constructor
  · intro hpushed
    exact ⟨fun f hf sessionid hreg => hpushed.encoded hf hreg,
      fun t ht => hpushed.not_registered_of_missed hturns ht⟩
  · rintro ⟨hencoded, hmissed⟩
    exact pushed_of_not_registered hturns hencoded hmissed

/-! ## An entry without a record -/

def sampleInfo : Json := .obj [("type", .str "t"), ("filename", .str "a")]

def sampleInfoText : List UInt8 := sampleText "\x7b\"type\":\"t\",\"filename\":\"a\"\x7d"

def sampleHost : Host String where
  cjson :=
    { decode := fun text => if text = sampleInfoText then some sampleInfo else none
      encode := fun
        | .obj [("data", _), ("timestamp", .num now)] =>
            some (sampleText "\x7b\"data\":" ++ sampleInfoText ++
              sampleText (",\"timestamp\":" ++ now ++ "\x7d"))
        | _ => some sampleInfoText }
  canon := id
  md5 _ := ""
  execute _ disk := disk
  unqlite := ServiceUpload.sampleUnqlite

def sampleStore : Store String where
  disk := ⟨fun _ => none⟩
  uploadInfo := AList.insert "t_a" sampleInfoText ∅
  db := ∅
  shared := ⟨AList.insert "client" (.str "t") ∅, fun _ => [], fun _ => []⟩
  uploads := []

/-- The first of the two entries has no record, and the record of the second is not pushed. -/
theorem unknown_entry_stops_push : ¬ ∀ (h : Host String) (s : Store String) (tbl : Option Json)
    (now : String), Pushed h now (requested h s tbl) s (run h s "POST" tbl now).2 := by
  intro hall
  let tbl : Option Json :=
    some (.arr [.obj [("type", .str "t"), ("filename", .str "b")], sampleInfo])
  have hpushed := hall sampleHost sampleStore tbl "1"
  have hrun : (run sampleHost sampleStore "POST" tbl "1").2.shared.notifyMsgQueue "client" = [] := by
    decide +kernel
  have hdue : ((requested sampleHost sampleStore tbl).filter
      (registered sampleStore.shared.clientTypes "client")).length = 1 := by
    decide +kernel
  obtain ⟨pushed, hqueue, hmessages⟩ := hpushed
  rw [hqueue] at hrun
  have hnone : pushed "client" = [] := (List.append_eq_nil_iff.mp hrun).2
  have hlength := congrArg List.length (hmessages "client")
  rw [hnone, List.length_map, hdue] at hlength
  exact Nat.one_ne_zero hlength

end CloudEdgePush.Server.ServicePushfile
