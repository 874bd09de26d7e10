import CloudEdgePush.Server.Pushfile

/-!
# What `service_upload` pushes

The second loop takes every entry with `need_push`, whether or not the first one has found its
file.  An entry whose file was not part of the upload is pushed as the client wrote it, without
the members that a record has.
-/

namespace CloudEdgePush.Server.ServiceUpload

open CloudEdgePush.Lib ServicePushfile

/-! ## Entries and their notifications -/

def received (form : Form) (f : Json) : Bool :=
  match attachedTo form f with
  | some (some _) => true
  | _ => false

/-- What has become of the entries to push whose files were received. -/
def due (r : Request) (fs : List Json) : List Json :=
  (((entries r.form.filesInfo).zip fs).filter fun e =>
    needPush e.1 && received r.form e.1).map Prod.snd

/-- The entry has the members of a record, and one of the uploads stored its text. -/
structure Recorded {ν : Type} (h : Host ν) (uploads : List Upload) (f : Json) : Prop where
  members : ∀ key ∈ ["remotefile_url", "md5", "filesize"],
    ∃ v, Json.index (some f) key = some (some v)
  text : ∃ u ∈ uploads, h.cjson.encode f = some u.text

/-- What a request that has made `fs` of its entries has pushed.  Apart from the records, it
changed the queues of the sessions: by one message for each received entry to push and each
session of its type.  These entries are records that the request stored. -/
structure PushesReceived {ν : Type} (h : Host ν) (r : Request) (s : Store ν) (fs : List Json)
    (s' : Store ν) : Prop where
  pushed : Pushed h r.now (due r fs) { s' with shared := s.shared } s'
  recorded : ∀ f ∈ due r fs, Recorded h (s'.uploads.drop s.uploads.length) f

/-- An object with members of the given ones and with scalars can be sent if it can be stored:
it is not nested deeper than a decoded one, and a message adds one level. -/
def Wraps (cjson : Cjson) (members : List (String × Json)) : Prop :=
  ∀ updated, (∀ m ∈ updated, m ∈ members ∨ m.2.storable = true) →
    (cjson.encode (.obj updated)).isSome = true → ∀ now,
      (cjson.encode (.obj [("data", .obj updated), ("timestamp", .num now)])).isSome = true

/-! ## What a stored entry becomes -/

theorem mem_setMember {members : List (String × Json)} {key : String} {v : Option Json}
    {m : String × Json} (hm : m ∈ Json.setMember members key v) :
    m ∈ members ∨ v = some m.2 := by
  rw [Json.setMember, List.mem_append] at hm
  cases hm with
  | inl hold => exact .inl (List.mem_filter.mp hold).1
  | inr hnew =>
      obtain ⟨w, hw, rfl⟩ := List.mem_map.mp hnew
      exact .inr (Option.mem_toList.mp hw)

theorem mem_locate {members : List (String × Json)} {url : String} {m : String × Json}
    (hm : m ∈ locate members url) : m ∈ members ∨ m.2 = .str url := by
  have hset {members : List (String × Json)} {key : String}
      (hm : m ∈ Json.setMember members key (some (.str url))) :
      m ∈ members ∨ m.2 = .str url := by
    apply (mem_setMember hm).imp_right
    intro hurl
    exact (Option.some.inj hurl).symm
  rw [locate] at hm
  split at hm
  · exact hset hm
  · apply (hset hm).elim
    · exact hset
    · exact .inr

section

variable {ν : Type} {h : Host ν} {env : Env} {disk : Disk ν UInt8} {filename url : String}
  {members updated : List (String × Json)}

theorem updateFileinfo_eq_some
    (hupdate : updateFileinfo h env disk filename url members = some updated) :
    ∃ md5 size zipInfo, (∀ v, zipInfo = some v → v.storable = true) ∧
      updated = Json.setMember (Json.setMember (Json.setMember (Json.setMember members
        "md5" (some (.str md5))) "modify_time" (some (.num env.modification)))
        "filesize" (some (.num size))) "zip_info" zipInfo := by
  simp only [updateFileinfo, Option.bind_eq_bind] at hupdate
  obtain ⟨size, hsize, hupdate⟩ := Option.bind_eq_some_iff.mp hupdate
  obtain ⟨content, hcontent⟩ : ∃ content,
      (disk.file (h.canon url)).or (env.directory.map fun _ => []) = some content := by
    cases hfile : disk.file (h.canon url) with
    | some content => exact ⟨content, rfl⟩
    | none =>
        rw [hfile, Option.map_none, Option.none_or] at hsize
        exact ⟨[], by rw [hsize, Option.map_some, Option.none_or]⟩
  rw [hcontent, Option.map_some] at hupdate
  split at hupdate
  · obtain ⟨names, -, hupdated⟩ := Option.bind_eq_some_iff.mp hupdate
    refine ⟨_, _, _, ?_, (Option.some.inj hupdated).symm⟩
    intro v hv
    obtain ⟨text, -, rfl⟩ := Option.map_eq_some_iff.mp hv
    rfl
  · refine ⟨_, _, none, ?_, (Option.some.inj hupdate).symm⟩
    intro v hv
    cases hv

theorem mem_updateFileinfo {m : String × Json}
    (hupdate : updateFileinfo h env disk filename url members = some updated)
    (hm : m ∈ updated) : m ∈ members ∨ m.2.storable = true := by
  obtain ⟨md5, size, zipInfo, hzip, rfl⟩ := updateFileinfo_eq_some hupdate
  obtain hm | hv := mem_setMember hm
  · obtain hm | hv := mem_setMember hm
    · obtain hm | hv := mem_setMember hm
      · obtain hm | hv := mem_setMember hm
        · exact .inl hm
        · exact .inr (Option.some.inj hv ▸ rfl)
      · exact .inr (Option.some.inj hv ▸ rfl)
    · exact .inr (Option.some.inj hv ▸ rfl)
  · exact .inr (hzip m.2 hv)

theorem lookup_updateFileinfo_isSome
    (hupdate : updateFileinfo h env disk filename url members = some updated) :
    (∃ v, updated.lookup "md5" = some v) ∧ ∃ v, updated.lookup "filesize" = some v := by
  obtain ⟨md5, size, zipInfo, -, rfl⟩ := updateFileinfo_eq_some hupdate
  simp [Json.lookup_setMember_of_ne]

end

/-! ## The first loop -/

/-- An entry without a file stays as it is, one with a file becomes a record of the request. -/
inductive Entry {ν : Type} (h : Host ν) (r : Request) (uploads : List Upload) (f : Json) :
    Json → Prop
  | skipped (hreceived : received r.form f = false) : Entry h r uploads f f
  | stored {members updated : List (String × Json)} (hf : f = .obj members)
      (hreceived : received r.form f = true) (hpush : needPush (.obj updated) = needPush f)
      (hmembers : ∀ m ∈ updated, m ∈ members ∨ m.2.storable = true)
      (hrecorded : Recorded h uploads (.obj updated)) : Entry h r uploads f (.obj updated)

section

variable {ν : Type} [DecidableEq ν] {h : Host ν} {r : Request} {s s' : Store ν}
  {f f' : Json} {fs fs' : List Json}

omit [DecidableEq ν] in
theorem Entry.mono {uploads more : List Upload} (hentry : Entry h r uploads f f')
    (hsub : uploads ⊆ more) : Entry h r more f f' := by
  cases hentry with
  | skipped hreceived => exact .skipped hreceived
  | stored hf hreceived hpush hmembers hrecorded =>
      obtain ⟨u, hu, hencode⟩ := hrecorded.text
      exact .stored hf hreceived hpush hmembers ⟨hrecorded.members, u, hsub hu, hencode⟩

theorem entry_of_turned {env : Env} (hturned : Turned h r env s f f' s') :
    s'.shared = s.shared ∧ ∃ new, s'.uploads = s.uploads ++ new ∧ Entry h r new f f' := by
  cases hturned with
  | skipped hattached =>
      refine ⟨rfl, [], (List.append_nil _).symm, .skipped ?_⟩
      rw [received, hattached]
  | @stored members updated filename path tmpName key v text hf hattached hpath htmp hupdate hkey
      hencode =>
      have hreceived : received r.form f = true := by rw [received, hattached]
      have hurl : updated.lookup "remotefile_url" = some (.str (path ++ filename)) := by
        rw [lookup_updateFileinfo_of_ne (by decide) hupdate, lookup_locate_url]
      have hpush : updated.lookup "need_push" = members.lookup "need_push" := by
        rw [lookup_updateFileinfo_of_ne (by decide) hupdate, lookup_locate_of_ne (by decide)]
      obtain ⟨hmd5, hsize⟩ := lookup_updateFileinfo_isSome hupdate
      refine ⟨rfl, _, rfl,
        .stored hf hreceived ?_ ?_ ⟨?_, _, List.mem_singleton_self _, hencode⟩⟩
      · rw [hf, needPush, needPush, Json.index, Json.index, hpush]
      · intro m hm
        apply (mem_updateFileinfo hupdate hm).elim
        · intro hlocated
          apply (mem_locate hlocated).imp_right
          intro hstr
          rw [hstr]
          rfl
        · exact .inr
      · simpa [Json.index] using ⟨⟨_, hurl⟩, hmd5, hsize⟩

theorem entries_of_loop {i : Nat} (hloop : loop h r i s fs = (.returned fs', s')) :
    s'.shared = s.shared ∧ ∃ new, s'.uploads = s.uploads ++ new ∧
      List.Forall₂ (Entry h r new) fs fs' := by
  induction fs generalizing i s fs' with
  | nil =>
      obtain ⟨hfs, rfl⟩ := Prod.mk.inj hloop
      obtain rfl := Outcome.returned.inj hfs
      exact ⟨rfl, [], (List.append_nil _).symm, .nil⟩
  | cons f fs ih =>
      obtain ⟨f₁, fs₁, s₁, rfl, hturn, hrest⟩ := loop_returned_cons hloop
      obtain ⟨hshared, new, huploads, hentry⟩ := entry_of_turned (turned_of_turn hturn)
      obtain ⟨hshared', new', huploads', hentries⟩ := ih hrest
      refine ⟨hshared'.trans hshared, new ++ new', ?_, ?_⟩
      · rw [huploads', huploads, List.append_assoc]
      · apply List.Forall₂.cons
        · exact hentry.mono (List.subset_append_left _ _)
        · exact hentries.imp fun f f' hentry => hentry.mono (List.subset_append_right _ _)

/-! ## The second loop -/

omit [DecidableEq ν] in
theorem pushToClients_eq (now : String) (shared : Shared) :
    pushToClients h now shared f =
      after h now shared (shared.clientTypes.keys.map (Prod.mk f)) := by
  have hstep (shared : Shared) (t : Json × String) (hmem : t.2 ∈ shared.clientTypes) :
      (if Json.luaEq (shared.clientTypes.lookup t.2) ((Json.index (some t.1) "type").getD none) then
        publishMessage h now shared t.1 t.2 else shared) = after h now shared [t] := by
    rw [luaEq_lookup hmem]
    cases hreg : registered shared.clientTypes t.2 t.1 with
    | true => rw [if_pos rfl, publishMessage_eq hreg]
    | false => rw [if_neg Bool.false_ne_true, after_of_not_registered hreg]
  have hmem : ∀ t ∈ shared.clientTypes.keys.map (Prod.mk f), t.2 ∈ shared.clientTypes := by
    intro t ht
    obtain ⟨sessionid, hsession, rfl⟩ := List.mem_map.mp ht
    exact AList.mem_keys.mpr hsession
  rw [← foldl_eq_after hstep shared _ hmem, List.foldl_map]
  rfl

omit [DecidableEq ν] in
theorem foldl_pushToClients (now : String) (shared : Shared) :
    fs.foldl (pushToClients h now) shared =
      after h now shared (turns shared.clientTypes fs) := by
  induction fs generalizing shared with
  | nil => exact (after_nil shared).symm
  | cons f fs ih =>
      rw [List.foldl_cons, ih, pushToClients_eq, turns, turns, List.flatMap_cons, after_append]
      rfl

theorem returned_of_run (hrun : run h s r = (.returned fs, s')) :
    ∃ stored, loop h r 0 (prepare h s r.form) (entries r.form.filesInfo) =
        (.returned fs, stored) ∧
      s' = { dbCall h stored .closed with
        shared := (fs.filter needPush).foldl (pushToClients h r.now) stored.shared } := by
  unfold run at hrun
  cases hfiles : storeFiles h r (prepare h s r.form) with
  | mk outcome stored =>
      cases outcome with
      | raised => simp [hfiles] at hrun
      | returned stays =>
          cases hopen : r.dbOpen with
          | false => simp [hfiles, hopen] at hrun
          | true =>
              simp only [hfiles, hopen, Bool.not_true, Bool.false_eq_true, if_false, Prod.mk.injEq,
                Outcome.returned.injEq] at hrun
              obtain ⟨rfl, rfl⟩ := hrun
              refine ⟨stored, ?_, rfl⟩
              unfold storeFiles at hfiles
              split at hfiles
              · rename_i gs hgs
                rw [hgs]
                exact hfiles
              · rename_i members hmembers
                rw [hmembers]
                exact hfiles
              · cases hfiles

/-! ## What is due and what is pushed -/

theorem filterMap_filter_eq_iff {α β : Type} {q : α → Bool} {g : α → Option β} {l : List α} :
    (l.filter q).filterMap g = l.filterMap g ↔ ∀ a ∈ l, q a = false → g a = none := by
  induction l with
  | nil => simp
  | cons a l ih =>
      rw [List.forall_mem_cons, ← ih, List.filter_cons]
      cases hq : q a with
      | true =>
          rw [if_pos rfl, List.filterMap_cons, List.filterMap_cons]
          cases g a <;> simp
      | false =>
          rw [if_neg Bool.false_ne_true, List.filterMap_cons]
          cases hg : g a with
          | none => simp
          | some b =>
              have hle := ((List.filter_sublist (p := q) (l := l)).filterMap g).length_le
              constructor
              · intro hsame
                have hlength := congrArg List.length hsame
                rw [List.length_cons] at hlength
                omega
              · rintro ⟨hnone, -⟩
                cases hnone rfl

omit [DecidableEq ν] in
theorem pushed_after_iff {now : String} {infos : List Json} (s : Store ν) (fs : List Json)
    (hencoded : ∀ f ∈ infos, (message h now f).isSome = true) :
    Pushed h now infos s
        { s with shared := after h now s.shared (turns s.shared.clientTypes fs) } ↔
      ∀ sessionid,
        (infos.filter (registered s.shared.clientTypes sessionid)).filterMap (message h now) =
          (fs.filter (registered s.shared.clientTypes sessionid)).filterMap (message h now) := by
  have hqueue : after h now s.shared (turns s.shared.clientTypes fs) =
      { s.shared with
        notifyMsgQueue := fun sessionid => s.shared.notifyMsgQueue sessionid ++
          (fs.filter (registered s.shared.clientTypes sessionid)).filterMap (message h now) } := by
    simp only [after, filterMap_arriving_turns]
  rw [hqueue]
  constructor
  · rintro ⟨pushed, hsame, hmessages⟩ sessionid
    rw [filterMap_eq_of_map_eq_map_some (hmessages sessionid)]
    have happend := congrFun (congrArg (fun s => s.shared.notifyMsgQueue) hsame) sessionid
    exact (List.append_cancel_left happend).symm
  · intro hsame
    refine ⟨_, rfl, ?_⟩
    intro sessionid
    rw [← hsame sessionid]
    apply map_eq_map_some_filterMap
    intro f hf
    exact hencoded f (List.mem_filter.mp hf).1

omit [DecidableEq ν] in
theorem message_of_entry {uploads : List Upload} (now : String)
    (hwraps : ∀ members, f = .obj members → Wraps h.cjson members)
    (hentry : Entry h r uploads f f') (hreceived : received r.form f = true) :
    (message h now f').isSome = true := by
  cases hentry with
  | skipped hskipped => cases hskipped.symm.trans hreceived
  | stored hf _ _ hmembers hrecorded =>
      obtain ⟨u, -, hencode⟩ := hrecorded.text
      exact hwraps _ hf _ hmembers (by rw [hencode]; rfl) now

omit [DecidableEq ν] in
theorem needPush_of_entry {uploads : List Upload} (hentry : Entry h r uploads f f') :
    needPush f' = needPush f := by
  cases hentry with
  | skipped _ => rfl
  | stored _ _ hpush _ _ => exact hpush

omit [DecidableEq ν] in
theorem recorded_of_entry {uploads : List Upload} (hentry : Entry h r uploads f f')
    (hreceived : received r.form f = true) : Recorded h uploads f' := by
  cases hentry with
  | skipped hskipped => cases hskipped.symm.trans hreceived
  | stored _ _ _ _ hrecorded => exact hrecorded

omit [DecidableEq ν] in
theorem eq_of_entry {uploads : List Upload} (hentry : Entry h r uploads f f')
    (hreceived : received r.form f = false) : f' = f := by
  cases hentry with
  | skipped _ => rfl
  | stored _ hstored _ _ _ => cases hreceived.symm.trans hstored

def toPush (r : Request) (fs : List Json) : List (Json × Json) :=
  ((entries r.form.filesInfo).zip fs).filter fun e => needPush e.1

theorem due_eq (r : Request) (fs : List Json) :
    due r fs = ((toPush r fs).filter fun e => received r.form e.1).map Prod.snd := by
  rw [due, toPush, List.filter_filter]
  simp only [Bool.and_comm]

section

variable {uploads : List Upload}
  (hentries : List.Forall₂ (Entry h r uploads) (entries r.form.filesInfo) fs)

include hentries

omit [DecidableEq ν]

theorem filter_needPush : fs.filter needPush = (toPush r fs).map Prod.snd := by
  rw [toPush]
  generalize entries r.form.filesInfo = gs at hentries ⊢
  induction hentries with
  | nil => rfl
  | cons hentry _ ih =>
      rw [List.zip_cons_cons, List.filter_cons, List.filter_cons, ih, needPush_of_entry hentry]
      split <;> rfl

theorem entry_of_mem_toPush {e : Json × Json} (he : e ∈ toPush r fs) :
    e.1 ∈ entries r.form.filesInfo ∧ Entry h r uploads e.1 e.2 := by
  have hzip := (List.mem_filter.mp he).1
  exact ⟨(List.of_mem_zip hzip).1, (List.forall₂_iff_zip.mp hentries).2 hzip⟩

theorem mem_toPush (hmem : f ∈ entries r.form.filesInfo) (hpush : needPush f = true) :
    ∃ e ∈ toPush r fs, e.1 = f := by
  have hfst : ((entries r.form.filesInfo).zip fs).map Prod.fst = entries r.form.filesInfo :=
    List.map_fst_zip hentries.length_eq.le
  rw [← hfst] at hmem
  obtain ⟨e, he, rfl⟩ := List.mem_map.mp hmem
  exact ⟨e, List.mem_filter.mpr ⟨he, hpush⟩, rfl⟩

theorem forall_due {P : Json → Prop} (hP : ∀ f f', f ∈ entries r.form.filesInfo →
    Entry h r uploads f f' → received r.form f = true → P f') : ∀ f ∈ due r fs, P f := by
  intro f hf
  rw [due_eq] at hf
  obtain ⟨e, he, rfl⟩ := List.mem_map.mp hf
  obtain ⟨hmem, hreceived⟩ := List.mem_filter.mp he
  obtain ⟨hentries, hentry⟩ := entry_of_mem_toPush hentries hmem
  exact hP e.1 e.2 hentries hentry hreceived

end

def arrives {ν : Type} (h : Host ν) (now : String) (types : ClientTypes) (sessionid : String)
    (e : Json × Json) : Option (List UInt8) :=
  if registered types sessionid e.2 then message h now e.2 else none

omit [DecidableEq ν] in
theorem filterMap_arrives {now : String} {types : ClientTypes} {sessionid : String}
    (es : List (Json × Json)) :
    ((es.map Prod.snd).filter (registered types sessionid)).filterMap (message h now) =
      es.filterMap (arrives h now types sessionid) := by
  rw [List.filterMap_filter, List.filterMap_map]
  rfl

/-- When the records of a request that completes are pushed, and nothing else: no entry without
a file that has `need_push` and an encoding meets a session of its type. -/
theorem pushesReceived_iff
    (hwraps : ∀ members, .obj members ∈ entries r.form.filesInfo → Wraps h.cjson members)
    (hrun : run h s r = (.returned fs, s')) :
    PushesReceived h r s fs s' ↔ ∀ f ∈ entries r.form.filesInfo, needPush f = true →
      received r.form f = false → ∀ sessionid,
        registered s.shared.clientTypes sessionid f = true → message h r.now f = none := by
  obtain ⟨stored, hloop, rfl⟩ := returned_of_run hrun
  obtain ⟨hshared, new, huploads, hentries⟩ := entries_of_loop hloop
  have hencoded : ∀ f ∈ due r fs, (message h r.now f).isSome = true := by
    refine forall_due (P := fun f => (message h r.now f).isSome = true) hentries ?_
    intro f f' hf hentry hreceived
    apply message_of_entry r.now _ hentry hreceived
    rintro members rfl
    exact hwraps members hf
  have hnew : stored.uploads.drop s.uploads.length = new := by
    rw [huploads]
    exact List.drop_left
  have hrecorded : ∀ f ∈ due r fs, Recorded h (stored.uploads.drop s.uploads.length) f := by
    rw [hnew]
    exact forall_due hentries fun f f' _ hentry hreceived => recorded_of_entry hentry hreceived
  have hpushed := pushed_after_iff
    { dbCall h stored .closed with shared := s.shared } (fs.filter needPush) hencoded
  rw [foldl_pushToClients, hshared]
  constructor
  · intro hpushes f hf hpush hreceived sessionid hreg
    have hsame := hpushed.mp hpushes.pushed sessionid
    rw [filter_needPush hentries, due_eq, filterMap_arrives, filterMap_arrives,
      filterMap_filter_eq_iff] at hsame
    obtain ⟨e, he, rfl⟩ := mem_toPush hentries hf hpush
    have hnone := hsame e he hreceived
    rw [arrives, eq_of_entry (entry_of_mem_toPush hentries he).2 hreceived] at hnone
    rwa [if_pos hreg] at hnone
  · intro hnone
    refine ⟨hpushed.mpr ?_, hrecorded⟩
    intro sessionid
    rw [filter_needPush hentries, due_eq, filterMap_arrives, filterMap_arrives,
      filterMap_filter_eq_iff]
    intro e he hreceived
    obtain ⟨hf, hentry⟩ := entry_of_mem_toPush hentries he
    rw [arrives, eq_of_entry hentry hreceived]
    split
    · rename_i hreg
      exact hnone e.1 hf (List.mem_filter.mp he).2 hreceived sessionid hreg
    · rfl

end

/-! ## An entry without a file -/

namespace Push

def entry : List (String × Json) :=
  [("type", .str "t"), ("filename", .str "a"), ("need_push", .bool true)]

def entryText : List UInt8 :=
  sampleText "\x7b\"type\":\"t\",\"filename\":\"a\",\"need_push\":true\x7d"

def md5 : String := "0cc175b9c0f1b6a831c399e269772661"

def record : List (String × Json) :=
  entry ++ [("remotefile_url", .str "download/t/a"), ("save_path", .str "download/t/a"),
    ("md5", .str md5), ("modify_time", .num "1700000000"), ("filesize", .num "1")]

def recordText : List UInt8 :=
  ["\x7b\"type\":\"t\",\"filename\":\"a\",\"need_push\":true,", "\"remotefile_url\":",
    "\"download\\/t\\/a\",", "\"save_path\":", "\"download\\/t\\/a\",",
    "\"md5\":\"" ++ md5 ++ "\",", "\"modify_time\":1700000000,",
    "\"filesize\":1\x7d"].flatMap sampleText

def stored : Cjson := Cjson.ofTable [(entryText, entry), (recordText, record)]

def cjson : Cjson where
  decode := stored.decode
  encode
    | .obj [("data", f), ("timestamp", .num now)] =>
        (stored.encode f).map fun text =>
          sampleText "\x7b\"data\":" ++ text ++ sampleText (",\"timestamp\":" ++ now ++ "\x7d")
    | v => stored.encode v

def host : Host String := ⟨cjson, id, fun _ => md5, fun _ disk => disk, sampleUnqlite⟩

def store : Store String :=
  ⟨⟨fun _ => none⟩, ∅, ∅, ⟨AList.insert "client" (.str "t") ∅, fun _ => [], fun _ => []⟩, []⟩

def request (parts : List Part) : Request where
  form := multipart parts 0 (some (.arr [.obj entry]))
  dbOpen := true
  env _ := ⟨true, none, "1700000000", true⟩
  now := "1700000000000"

theorem wraps_entry : Wraps cjson entry := by
  intro updated hmembers hencode now
  have hstored : (stored.encode (.obj updated)).isSome = true := by
    unfold cjson at hencode
    dsimp only at hencode
    split at hencode
    · rename_i f time hmessage
      -- scalars have no text of their own, and the entry has no member of this name
      obtain rfl := Json.obj.inj hmessage
      have hf := hmembers ("data", f) List.mem_cons_self
      rw [Option.isSome_map] at hencode
      cases f <;> simp_all [entry, stored, Cjson.ofTable, Json.storable]
    · exact hencode
  show ((stored.encode (.obj updated)).map _).isSome = true
  rw [Option.isSome_map]
  exact hstored

theorem run_request (parts : List Part)
    (hdone : (match (run host store (request parts)).1 with
      | .returned _ => true
      | .raised => false) = true) :
    ∃ fs s', run host store (request parts) = (.returned fs, s') := by
  cases hrun : run host store (request parts) with
  | mk outcome s' =>
      cases outcome with
      | raised => simp [hrun] at hdone
      | returned fs => exact ⟨fs, s', rfl⟩

end Push

open Push in
theorem pushesReceived_one : ∃ fs s',
    run host store (request [⟨"a", "1700000000.5", [0x61]⟩]) = (.returned fs, s') ∧
      (s'.shared.notifyMsgQueue "client").length = 1 ∧
      PushesReceived host (request [⟨"a", "1700000000.5", [0x61]⟩]) store fs s' := by
  obtain ⟨fs, s', hrun⟩ := run_request [⟨"a", "1700000000.5", [0x61]⟩] (by decide +kernel)
  have hqueue : ((run host store (request [⟨"a", "1700000000.5", [0x61]⟩])).2.shared.notifyMsgQueue
      "client").length = 1 := by decide +kernel
  rw [hrun] at hqueue
  refine ⟨fs, s', hrun, hqueue, (pushesReceived_iff ?_ hrun).mpr ?_⟩
  · intro members hmem
    obtain rfl : members = entry := by simpa [request, multipart, entries] using hmem
    exact wraps_entry
  · intro f hf _ hreceived
    obtain rfl : f = .obj entry := by simpa [request, multipart, entries] using hf
    exact absurd hreceived (by decide +kernel)

open Push in
/-- No part of the upload has the entry's file, and the entry is pushed. -/
theorem entry_without_file_is_pushed : ¬ ∀ (h : Host String) (s : Store String) (r : Request)
    (fs : List Json) (s' : Store String), run h s r = (.returned fs, s') →
      PushesReceived h r s fs s' := by
  intro hall
  obtain ⟨fs, s', hrun⟩ := run_request [] (by decide +kernel)
  have hqueue : ((run host store (request [])).2.shared.notifyMsgQueue "client").length = 1 := by
    decide +kernel
  rw [hrun] at hqueue
  obtain ⟨pushed, hsame, hmessages⟩ := (hall host store (request []) fs s' hrun).pushed
  have hreceived : received (request []).form (.obj entry) = false := by decide +kernel
  have hnothing : due (request []) fs = [] := by
    cases fs with
    | nil => rfl
    | cons f fs => simp [due, show entries (request []).form.filesInfo = [.obj entry] from rfl,
        hreceived]
  have hnone : pushed "client" = [] := by
    have hmap := hmessages "client"
    rw [hnothing] at hmap
    exact List.map_eq_nil_iff.mp hmap.symm
  have hclient : s'.shared.notifyMsgQueue "client" = pushed "client" :=
    congrFun (congrArg (fun t => t.shared.notifyMsgQueue) hsame) "client"
  rw [hclient, hnone] at hqueue
  exact absurd hqueue (by decide)

end CloudEdgePush.Server.ServiceUpload
