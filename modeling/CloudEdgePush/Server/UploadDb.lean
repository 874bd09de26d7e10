import CloudEdgePush.Server.UploadHistory

/-!
# `upload_info` and `upload.db`

Every record is written twice: to `upload_info`, which `service_query` reads, and to
`upload.db`, which `service_api` reads and from which `load_upload_db` fills `upload_info` when
the worker starts.  The second write can fail, and nobody looks at its result.
-/

namespace CloudEdgePush.Server

open CloudEdgePush.Lib CloudEdgePush.Lib.Transition ServiceUpload

/-! ## `load_upload_db.lua` -/

namespace LoadUploadDb

/-- What worker 0 does when it starts, up to the listing for the log.  `found` is whether there
is an `upload.db`, `opens` whether `unqlite.open` does not return `nil`; `cur:first()` finds
nothing in an empty database. -/
def run {ν : Type} (found opens : Bool) (s : Store ν) : Outcome Unit × Store ν :=
  let s := { s with uploadInfo := ∅ }
  if !found then (.returned (), s)
  else if !opens || s.db.entries.isEmpty then (.raised, s)
  else
    let uploadInfo := s.db.entries.foldl (fun info entry => info.insert entry.1 entry.2) s.uploadInfo
    (.returned (), { s with uploadInfo })

end LoadUploadDb

/-! ## `service_api.lua` -/

namespace ServiceApi

/-- What goes out, up to the encoding.  The table of all records has a hole for each text that
does not decode. -/
inductive Answer
  | paramError
  | nothing
  | record (data : Json)
  | records (tbl : List (Option Json))

variable {ν : Type} (h : Host ν)

def getData (s : Store ν) (key : String) : Option Json := (s.db.lookup key).bind h.cjson.decode

def respond (data : Option Json) : Answer :=
  match data with
  | some data => if Json.truthy (some data) then .record data else .nothing
  | none => .nothing

def run (s : Store ν) (opens : Bool) (method : String) (param : List (String × Json)) :
    Outcome Answer :=
  if method = "GET" then
    if param.isEmpty then
      if !opens || s.db.entries.isEmpty then .raised
      else .returned (.records (s.db.entries.map fun entry => h.cjson.decode entry.2))
    else if Json.truthy (param.lookup "filename") && Json.truthy (param.lookup "type") then
      if !opens then .raised
      else
        match infoKey (param.lookup "type") (param.lookup "filename") with
        | none => .raised
        | some key => .returned (respond (getData h s key))
    else .returned .paramError
  else .returned .nothing

end ServiceApi

namespace UploadDb

variable {ν : Type} (h : Host ν)

/-! ## Agreement -/

/-- Both answer with the same data: `service_api` sends nothing where there is no data, and the
two list all records in different orders. -/
def SameAnswer : Outcome ServiceQuery.Answer → Outcome ServiceApi.Answer → Prop
  | .raised, .raised => True
  | .returned .paramError, .returned .paramError => True
  | .returned (.success none), .returned .nothing => True
  | .returned (.success (some data)), .returned (.record data') => data = data'
  | .returned (.success (some (.arr infos))), .returned (.records tbl) => (infos.map some).Perm tbl
  | _, _ => False

def Decodes (cjson : Cjson) : Prop :=
  ∀ members text, cjson.encode (.obj members) = some text →
    ∃ members', cjson.decode text = some (.obj members')

structure Agree (s : Store ν) : Prop where
  map : ∀ key, s.uploadInfo.lookup key = s.db.lookup key
  tables : ∀ key text, s.db.lookup key = some text →
    ∃ members, h.cjson.decode text = some (.obj members)

/-- The services answer alike, before and after the worker has started anew.  The exception is
the list of all records while there is none, on which `service_api` raises. -/
structure AnswersAlike (s : Store ν) : Prop where
  map : ∀ key, s.uploadInfo.lookup key = s.db.lookup key
  answers : ∀ method param, (param.isEmpty = true → s.db.entries ≠ []) →
    SameAnswer (ServiceQuery.run h s method param) (ServiceApi.run h s true method param)
  restarted : ∀ method param, (param.isEmpty = true → s.db.entries ≠ []) →
    SameAnswer (ServiceQuery.run h (LoadUploadDb.run true true s).2 method param)
      (ServiceApi.run h s true method param)

/-! ## A restart -/

theorem lookup_foldl_insert {info : AList fun _ : String => List UInt8}
    {entries : List (Sigma fun _ : String => List UInt8)} (hkeys : entries.NodupKeys) (key : String) :
    (entries.foldl (fun info entry => info.insert entry.1 entry.2) info).lookup key =
      (entries.dlookup key).or (info.lookup key) := by
  induction entries generalizing info with
  | nil => rfl
  | cons entry entries ih =>
      obtain ⟨hnotin, hrest⟩ := List.nodupKeys_cons.mp hkeys
      rw [List.foldl_cons, ih hrest]
      by_cases hkey : key = entry.1
      · subst hkey
        rw [List.dlookup_eq_none.mpr hnotin, AList.lookup_insert, List.dlookup_cons_eq]
        rfl
      · rw [AList.lookup_insert_ne hkey, List.dlookup_cons_ne _ _ hkey]

theorem lookup_restart {found opens : Bool} {s : Store ν}
    (hopens : found = true ∧ opens = true ∨ s.db.entries = []) (key : String) :
    (LoadUploadDb.run found opens s).2.uploadInfo.lookup key = s.db.lookup key := by
  by_cases hempty : s.db.entries = []
  · have hnone : s.db.lookup key = none := by
      rw [AList.lookup, hempty]
      rfl
    rw [hnone, LoadUploadDb.run]
    dsimp only
    rw [hempty]
    cases found <;> cases opens <;> exact AList.lookup_empty key
  · obtain ⟨rfl, rfl⟩ := hopens.resolve_right hempty
    have hrun : (LoadUploadDb.run true true s).2.uploadInfo =
        s.db.entries.foldl (fun info entry => info.insert entry.1 entry.2) ∅ := by
      cases hentries : s.db.entries with
      | nil => exact absurd hentries hempty
      | cons entry entries => simp [LoadUploadDb.run, hentries]
    rw [hrun, lookup_foldl_insert s.db.nodupKeys, AList.lookup_empty, Option.or_none]
    rfl

theorem db_restart (found opens : Bool) (s : Store ν) :
    (LoadUploadDb.run found opens s).2.db = s.db := by
  rw [LoadUploadDb.run]
  dsimp only
  split
  · rfl
  · split
    · rfl
    · rfl

/-! ## Answers of agreeing stores -/

theorem mapM_eq_some {α β : Type} {g : α → Option β} {l : List α}
    (hsome : ∀ a ∈ l, (g a).isSome = true) : ∃ bs, l.mapM g = some bs ∧ bs.map some = l.map g := by
  induction l with
  | nil => exact ⟨[], rfl, rfl⟩
  | cons a l ih =>
      obtain ⟨hhead, htail⟩ := List.forall_mem_cons.mp hsome
      obtain ⟨b, hb⟩ := Option.isSome_iff_exists.mp hhead
      obtain ⟨bs, hbs, hmap⟩ := ih htail
      refine ⟨b :: bs, ?_, ?_⟩
      · rw [List.mapM_cons, hb, hbs]
        rfl
      · rw [List.map_cons, List.map_cons, hmap, hb]

theorem map_entries {β : Type} (db : AList fun _ : String => List UInt8) (g : List UInt8 → Option β) :
    (db.entries.map fun entry => g entry.2) = db.keys.map fun key => (db.lookup key).bind g := by
  rw [AList.keys, List.keys, List.map_map]
  apply List.map_congr_left
  rintro ⟨key, text⟩ hentry
  have hlookup : db.lookup key = some text := List.mem_dlookup db.nodupKeys hentry
  rw [Function.comp_apply, hlookup, Option.bind_some]

theorem keys_perm {info db : AList fun _ : String => List UInt8}
    (hmap : ∀ key, info.lookup key = db.lookup key) : info.keys.Perm db.keys := by
  apply (List.perm_ext_iff_of_nodup info.keys_nodup db.keys_nodup).mpr
  intro key
  rw [← AList.mem_keys, ← AList.mem_keys, ← AList.lookup_isSome, ← AList.lookup_isSome, hmap key]

theorem allInfos_perm {s u : Store ν} (hmap : ∀ key, u.uploadInfo.lookup key = s.db.lookup key)
    (htables : ∀ key text, s.db.lookup key = some text →
      ∃ members, h.cjson.decode text = some (.obj members)) :
    ∃ infos, ServiceQuery.allInfos h u = some infos ∧
      (infos.map some).Perm (s.db.entries.map fun entry => h.cjson.decode entry.2) := by
  have hsome : ∀ key ∈ u.uploadInfo.keys, (getInfo h u key).isSome = true := by
    intro key hkey
    obtain ⟨text, hlookup⟩ := Option.isSome_iff_exists.mp
      (AList.lookup_isSome.mpr (AList.mem_keys.mpr hkey))
    obtain ⟨members, hdecode⟩ := htables key text ((hmap key).symm.trans hlookup)
    rw [getInfo, hlookup, Option.bind_some, hdecode]
    rfl
  obtain ⟨infos, hinfos, hsame⟩ := mapM_eq_some hsome
  refine ⟨infos, hinfos, ?_⟩
  have hget : getInfo h u = fun key => (s.db.lookup key).bind h.cjson.decode := by
    funext key
    rw [getInfo, hmap]
  rw [hsame, hget, map_entries]
  exact (keys_perm hmap).map _

/-- The services answer alike when one reads the map that the other one has. -/
theorem sameAnswer {s u : Store ν} (hmap : ∀ key, u.uploadInfo.lookup key = s.db.lookup key)
    (htables : ∀ key text, s.db.lookup key = some text →
      ∃ members, h.cjson.decode text = some (.obj members))
    (method : String) (param : List (String × Json))
    (hrecords : param.isEmpty = true → s.db.entries ≠ []) :
    SameAnswer (ServiceQuery.run h u method param) (ServiceApi.run h s true method param) := by
  have hget (key : String) : getInfo h u key = ServiceApi.getData h s key := by
    rw [getInfo, ServiceApi.getData, hmap]
  rw [ServiceQuery.run, ServiceApi.run]
  by_cases hmethod : method = "GET"
  · rw [if_pos hmethod, if_pos hmethod]
    by_cases hparam : param.isEmpty = true
    · obtain ⟨infos, hinfos, hperm⟩ := allInfos_perm h hmap htables
      have hempty : s.db.entries.isEmpty = false := by
        cases hentries : s.db.entries with
        | nil => exact absurd hentries (hrecords hparam)
        | cons entry entries => rfl
      rw [if_pos hparam, if_pos hparam, hinfos, hempty]
      exact hperm
    · rw [if_neg hparam, if_neg hparam]
      split
      · cases infoKey (param.lookup "type") (param.lookup "filename") with
        | none => trivial
        | some key =>
            dsimp only
            rw [hget, ServiceApi.getData]
            cases hlookup : s.db.lookup key with
            | none => trivial
            | some text =>
                obtain ⟨members, hdecode⟩ := htables key text hlookup
                rw [Option.bind_some, hdecode]
                rfl
      · trivial
  · rw [if_neg hmethod, if_neg hmethod]
    trivial

variable {h}

theorem Agree.answersAlike {s : Store ν} (hs : Agree h s) : AnswersAlike h s where
  map := hs.map
  answers := sameAnswer h hs.map hs.tables
  restarted := by
    intro method param hrecords
    by_cases hempty : s.db.entries = []
    · exact sameAnswer h (lookup_restart (.inr hempty)) hs.tables method param hrecords
    · exact sameAnswer h (lookup_restart (.inl ⟨rfl, rfl⟩)) hs.tables method param hrecords

theorem Agree.restart {found opens : Bool} {s : Store ν} (hs : Agree h s)
    (hopens : found = true ∧ opens = true ∨ s.db.entries = []) :
    Agree h (LoadUploadDb.run found opens s).2 where
  map key := by rw [lookup_restart hopens, db_restart]
  tables := by
    rw [db_restart]
    exact hs.tables

/-! ## An upload -/

variable (h)

/-- The entry's record gets into the database as it gets into the cache, or is there already. -/
def StoresBoth (r : Request) (env : Env) (s : Store ν) (key : String)
    (members : List (String × Json)) : Prop :=
  match h.cjson.encode (.obj members) with
  | none => s.db.lookup key = none
  | some text => r.dbOpen = true ∧ env.dbSet = true ∨ s.db.lookup key = some text

section

variable {h} {s : Store ν} {key : String}

theorem agree_iff (hs : Agree h s) (key : String) (info : AList fun _ : String => List UInt8)
    (hothers : ∀ other, other ≠ key → info.lookup other = s.uploadInfo.lookup other)
    (disk : Disk ν UInt8) (uploads : List Upload) :
    Agree h { s with disk := disk, uploadInfo := info, uploads := uploads } ↔
      s.db.lookup key = info.lookup key := by
  constructor
  · intro hagree
    exact (hagree.map key).symm
  · intro hkey
    refine ⟨?_, hs.tables⟩
    intro other
    by_cases hother : other = key
    · rw [hother, hkey]
    · exact (hothers other hother).trans (hs.map other)

theorem Agree.insert {disk : Disk ν UInt8} {uploads : List Upload} {text : List UInt8}
    (hs : Agree h s) (htext : ∃ members, h.cjson.decode text = some (.obj members)) :
    Agree h { s with
      disk := disk
      uploadInfo := s.uploadInfo.insert key text
      db := s.db.insert key text
      uploads := uploads } where
  map other := by
    by_cases hother : other = key
    · rw [hother, AList.lookup_insert, AList.lookup_insert]
    · rw [AList.lookup_insert_ne hother, AList.lookup_insert_ne hother, hs.map]
  tables other found hlookup := by
    by_cases hother : other = key
    · rw [hother, AList.lookup_insert] at hlookup
      exact Option.some.inj hlookup ▸ htext
    · rw [AList.lookup_insert_ne hother] at hlookup
      exact hs.tables other found hlookup

end

/-- Exactly then the cache and the database agree behind the two writes. -/
theorem agree_storeRecord (hcjson : Decodes h.cjson) {r : Request} {env : Env} {s : Store ν}
    {key filename : String} {members : List (String × Json)} (hs : Agree h s) :
    Agree h (storeRecord h r env s key filename members).2 ↔ StoresBoth h r env s key members := by
  rw [storeRecord, StoresBoth]
  cases hencode : h.cjson.encode (.obj members) with
  | none =>
      have herase := agree_iff hs key _ (fun other hother => AList.lookup_erase_ne hother) s.disk
        s.uploads
      rwa [AList.lookup_erase] at herase
  | some text =>
      have hinsert := agree_iff hs key (s.uploadInfo.insert key text)
        fun other hother => AList.lookup_insert_ne hother
      rw [AList.lookup_insert] at hinsert
      cases hopen : r.dbOpen with
      | false => simpa using hinsert s.disk _
      | true =>
          cases hset : env.dbSet with
          | false => simpa [dbCall] using hinsert (h.unqlite (.set key text) s.disk) _
          | true => simpa [dbCall] using hs.insert (hcjson members text hencode)

def TurnStored [DecidableEq ν] (r : Request) (env : Env) (s : Store ν) (f : Json) : Prop :=
  ∀ members filename v path tmpName updated key, f = .obj members →
    attachedTo r.form f = some (some (filename, v)) →
    filepath (members.lookup "type") = some path → v.tmpName = some tmpName →
    updateFileinfo h env (placed h env s path tmpName filename).disk filename (path ++ filename)
      (locate members (path ++ filename)) = some updated →
    fKey (updated.lookup "type") filename = some key → StoresBoth h r env s key updated

def LoopStored [DecidableEq ν] (r : Request) : Nat → Store ν → List Json → Prop
  | _, _, [] => True
  | i, s, f :: fs =>
      TurnStored h r (r.env i) s f ∧
        ∀ f' s', turn h r (r.env i) s f = (.returned f', s') → LoopStored r (i + 1) s' fs

variable [DecidableEq ν]

theorem agree_turn (hcjson : Decodes h.cjson) {r : Request} {env : Env} {s : Store ν} {f : Json}
    (hs : Agree h s) (hstored : TurnStored h r env s f) : Agree h (turn h r env s f).2 := by
  have hcase := turn_cases h r env s f
  generalize turn h r env s f = result at hcase ⊢
  cases hcase with
  | nothing outcome _ => exact hs
  | noFile _ _ _ _ => exact ⟨hs.map, hs.tables⟩
  | @placed members filename path tmpName v hf hattached hpath htmp =>
      have hplaced : Agree h (placed h env s path tmpName filename) := by
        rw [placed_eq]
        exact ⟨hs.map, hs.tables⟩
      have hdb : (placed h env s path tmpName filename).db = s.db := by rw [placed_eq]
      have hstep := recordStep_recordFile h r env (placed h env s path tmpName filename)
        (locate members (path ++ filename)) filename (path ++ filename)
      generalize recordFile h r env (placed h env s path tmpName filename)
        (locate members (path ++ filename)) filename (path ++ filename) = recorded at hstep ⊢
      cases hstep with
      | raised _ => exact hplaced
      | @stored updated key hupdate hkey =>
          apply (agree_storeRecord h hcjson hplaced).mpr
          rw [← lookup_updateFileinfo_of_ne (by decide) hupdate] at hkey
          have hboth := hstored members filename v path tmpName updated key hf hattached hpath htmp
            hupdate hkey
          rw [StoresBoth, hdb]
          exact hboth

theorem agree_loop (hcjson : Decodes h.cjson) {r : Request} {i : Nat} {s : Store ν}
    {fs : List Json} (hs : Agree h s) (hstored : LoopStored h r i s fs) :
    Agree h (loop h r i s fs).2 := by
  apply loop_invariant (G := LoopStored h r) _ _ hs hstored
  · intro i s f fs hs hstored
    exact agree_turn h hcjson hs hstored.1
  · intro i s f fs f' s' hstored hturn
    exact hstored.2 f' s' hturn

/-! ## Requests and restarts -/

inductive Event
  | upload (r : Request)
  | restart (found opens : Bool)

/-- The file that has records is found. -/
def step (s : Store ν) : Event → Option (Store ν)
  | .upload r => some (ServiceUpload.run h s r).2
  | .restart found opens =>
      if found || s.db.entries.isEmpty then some (LoadUploadDb.run found opens s).2 else none

/-- What gets into the cache gets into the database, and a worker that starts can open it. -/
def EventStored (s : Store ν) : Event → Prop
  | .upload r =>
      ∀ fs, r.form.filesInfo = some (.arr fs) → LoopStored h r 0 (prepare h s r.form) fs
  | .restart _ opens => opens = true ∨ s.db.entries = []

theorem agree_step (hcjson : Decodes h.cjson) {s s' : Store ν} {e : Event} (hs : Agree h s)
    (hstored : EventStored h s e) (hstep : step h s e = some s') : Agree h s' := by
  cases e with
  | upload r =>
      obtain rfl := Option.some.inj hstep
      have hprepare : Agree h (prepare h s r.form) := ⟨hs.map, hs.tables⟩
      apply invariant_of_loop _ hprepare
      · intro fs hfs
        exact agree_loop h hcjson hprepare (hstored fs hfs)
      · intro fs s' _ hs
        exact ⟨hs.map, hs.tables⟩
      · intro s shared hs
        exact ⟨hs.map, hs.tables⟩
  | restart found opens =>
      rw [step] at hstep
      split at hstep
      · rename_i hfound
        obtain rfl := Option.some.inj hstep
        apply hs.restart
        by_cases hempty : s.db.entries = []
        · exact .inr hempty
        · have hopens : opens = true := hstored.resolve_right hempty
          have hrecords : s.db.entries.isEmpty = false := by simpa using hempty
          rw [hrecords, Bool.or_false] at hfound
          exact .inl ⟨hfound, hopens⟩
      · cases hstep

/-- As long as every record gets into both, the cache and the database agree in every state. -/
theorem answersAlike_run (hcjson : Decodes h.cjson) {s t : Store ν} {events : List Event}
    (hs : Agree h s) (hrun : Transition.run (step h) s events = some t)
    (hstored : AllSteps (step h) (EventStored h) s events) : AnswersAlike h t := by
  apply Agree.answersAlike
  exact run_guarded (fun s e s' hs hstored hstep => agree_step h hcjson hs hstored hstep) hs
    hstored hrun

/-! ## A write that fails -/

namespace Written

open SharedKey

def request (dbSet : Bool) : Request :=
  { SharedKey.request "a_b" "c" 0x61 with env := fun _ => ⟨true, none, "1700000000", dbSet⟩ }

def entry : List (String × Json) := [("type", .str "a_b"), ("filename", .str "c")]

theorem decodes_host : Decodes host.cjson := by
  intro members text hencode
  obtain ⟨⟨found, known⟩, hfind, rfl⟩ := Option.map_eq_some_iff.mp hencode
  have hmem := List.mem_of_find?_eq_some hfind
  have hdecodes : ∀ row ∈ [recordText "a_b" "c" md5A, recordText "a" "b_c" md5B],
      (([(recordText "a_b" "c" md5A, record "a_b" "c" md5A),
        (recordText "a" "b_c" md5B, record "a" "b_c" md5B)].lookup row).isSome = true) := by
    decide +kernel
  have htext : found ∈ [recordText "a_b" "c" md5A, recordText "a" "b_c" md5B] := by
    have hfst := List.mem_map_of_mem (f := Prod.fst) hmem
    exact hfst
  obtain ⟨members', hlookup⟩ := Option.isSome_iff_exists.mp (hdecodes found htext)
  exact ⟨members', congrArg (Option.map Json.obj) hlookup⟩

theorem agree_store : Agree host store where
  map key := rfl
  tables key text hlookup := by cases hlookup

theorem loopStored : LoopStored host (request true) 0 (prepare host store (request true).form)
    [.obj entry] := by
  refine ⟨?_, fun f' s' _ => trivial⟩
  intro members filename v path tmpName updated key hf hattached hpath htmp hupdate hkey
  obtain rfl := Json.obj.inj hf
  have hfile : attachedTo (request true).form (.obj entry) =
      some (some ("c", ⟨some "1700000000.5"⟩)) := by
    rfl
  obtain ⟨rfl, rfl⟩ := Prod.mk.inj (Option.some.inj (Option.some.inj (hfile.symm.trans hattached)))
  have hplace : filepath (entry.lookup "type") = some "download/a_b/" := by
    decide +kernel
  obtain rfl := Option.some.inj (hplace.symm.trans hpath)
  obtain rfl := Option.some.inj htmp
  have hencode : ((updateFileinfo host ((request true).env 0) (placed host ((request true).env 0)
      (prepare host store (request true).form) "download/a_b/" "1700000000.5" "c").disk "c"
      "download/a_b/c" (locate entry "download/a_b/c")).all
        fun updated => (host.cjson.encode (.obj updated)).isSome) = true := by
    decide +kernel
  have hurl : "download/a_b/" ++ "c" = "download/a_b/c" := by decide +kernel
  rw [hurl] at hupdate
  rw [hupdate, Option.all_some] at hencode
  obtain ⟨text, htext⟩ := Option.isSome_iff_exists.mp hencode
  rw [StoresBoth, htext]
  exact .inl ⟨rfl, rfl⟩

end Written

open Written in
theorem answersAlike_two : ∃ t, Transition.run (step SharedKey.host) SharedKey.store
      [.upload (request true), .restart true true] = some t ∧
    (t.uploadInfo.lookup "a_b_c").isSome = true ∧ AnswersAlike SharedKey.host t := by
  have hends : ∃ t ∈ Transition.run (step SharedKey.host) SharedKey.store
      [.upload (request true), .restart true true],
      (t.uploadInfo.lookup "a_b_c").isSome = true := by
    decide +kernel
  obtain ⟨t, hrun, hfound⟩ := hends
  refine ⟨t, hrun, hfound, answersAlike_run _ decodes_host agree_store hrun ⟨?_, ?_⟩⟩
  · intro fs hfs
    obtain rfl : [Json.obj entry] = fs := Json.arr.inj (Option.some.inj hfs)
    exact loopStored
  · intro s' _
    exact ⟨.inl rfl, fun _ _ => trivial⟩

open Written in
/-- `db:set` fails for the only record of the request, which is in the cache already. -/
theorem failed_set_disagrees : ¬ ∀ (h : Host String) (s : Store String) (r : Request)
    (fs : List Json) (s' : Store String), Decodes h.cjson → Agree h s →
      ServiceUpload.run h s r = (.returned fs, s') → AnswersAlike h s' := by
  intro hall
  have hbad : ∃ s' ∈ upload SharedKey.host SharedKey.store (request false),
      (s'.uploadInfo.lookup "a_b_c").isSome = true ∧ s'.db.lookup "a_b_c" = none := by
    decide +kernel
  obtain ⟨s', hupload, hinfo, hdb⟩ := hbad
  cases hrun : ServiceUpload.run SharedKey.host SharedKey.store (request false) with
  | mk outcome s₁ =>
      rw [Option.mem_def, upload, hrun] at hupload
      cases outcome with
      | raised => cases hupload
      | returned fs =>
          obtain rfl := Option.some.inj hupload
          have halike := hall _ _ _ fs s₁ decodes_host agree_store hrun
          rw [halike.map, hdb] at hinfo
          cases hinfo

end UploadDb

end CloudEdgePush.Server
