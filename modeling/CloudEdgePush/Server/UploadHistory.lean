import CloudEdgePush.Lib.History
import CloudEdgePush.Lib.Transition
import CloudEdgePush.Server.ServiceQuery

/-!
# Looking up uploads

`upload_info` holds under a key the last upload with that key.  A key is the concatenation of
type and filename, which other types and filenames can share: a lookup finds the last upload
of its own type and filename exactly if that is also the last one under the key.
-/

namespace CloudEdgePush.Server

open CloudEdgePush.Lib CloudEdgePush.Lib.Transition ServiceUpload

/-! ## Uploads of the history -/

namespace Upload

def key (u : Upload) : Option String := fKey u.type u.filename

def isOf (type filename : String) (u : Upload) : Bool :=
  Json.luaEq u.type (some (.str type)) && u.filename == filename

theorem isOf_iff {type filename : String} {u : Upload} :
    u.isOf type filename = true ↔ u.type = some (.str type) ∧ u.filename = filename := by
  simp only [isOf, Bool.and_eq_true, beq_iff_eq]
  constructor
  · rintro ⟨htype, hfilename⟩
    exact ⟨Json.eq_of_luaEq htype, hfilename⟩
  · rintro ⟨htype, hfilename⟩
    rw [htype]
    exact ⟨beq_self_eq_true type, hfilename⟩

theorem key_of_isOf {type filename : String} {u : Upload} (h : u.isOf type filename = true) :
    u.key = some (type ++ "_" ++ filename) := by
  obtain ⟨htype, hfilename⟩ := isOf_iff.mp h
  rw [key, htype, hfilename]
  rfl

end Upload

variable {ν : Type} (h : Host ν)

def lastUpload (s : Store ν) (type filename : String) : Option Upload :=
  History.last (Upload.isOf type filename) s.uploads

/-- Its record; `none` if there was no such upload. -/
def lastRecord (s : Store ν) (type filename : String) : Option Json :=
  (lastUpload s type filename).bind fun u => h.cjson.decode u.text

def lastUnder (s : Store ν) (key : String) : Option Upload :=
  History.last (fun u => u.key == some key) s.uploads

structure Named (u : Upload) : Prop where
  type : h.cjson.field u.text "type" = u.type
  filename : h.cjson.field u.text "filename" = some (.str u.filename)

structure Follows (s : Store ν) : Prop where
  info : ∀ key, s.uploadInfo.lookup key = (lastUnder s key).map Upload.text
  named : ∀ u ∈ s.uploads, Named h u

/-! ## One entry -/

inductive TurnStep (s s' : Store ν) : Prop
  | skipped (hinfo : s'.uploadInfo = s.uploadInfo) (huploads : s'.uploads = s.uploads)
  | stored (u : Upload) (key : String) (hkey : u.key = some key) (hnamed : Named h u)
      (hinfo : s'.uploadInfo = s.uploadInfo.insert key u.text)
      (huploads : s'.uploads = s.uploads ++ [u])

theorem TurnStep.follows {s s' : Store ν} (hstep : TurnStep h s s') (hs : Follows h s) :
    Follows h s' := by
  cases hstep with
  | skipped hinfo huploads =>
      refine ⟨?_, by rw [huploads]; exact hs.named⟩
      intro key
      rw [hinfo, lastUnder, huploads]
      exact hs.info key
  | stored u key hkey hnamed hinfo huploads =>
      refine ⟨?_, ?_⟩
      · intro other
        rw [hinfo, lastUnder, huploads, History.last_concat, hkey]
        by_cases hother : other = key
        · subst hother
          simp
        · have hne : (some key == some other) = false := by simpa using Ne.symm hother
          rw [AList.lookup_insert_ne hother, hne, hs.info other]
          rfl
      · rw [huploads]
        intro v hv
        obtain hv | rfl := by simpa using hv
        · exact hs.named v hv
        · exact hnamed

theorem storable_of_fKey {type : Option Json} {filename key : String}
    (hkey : fKey type filename = some key) : ∃ v, type = some v ∧ v.storable = true := by
  cases type with
  | none => cases hkey
  | some v =>
      cases v with
      | str s => exact ⟨_, rfl, rfl⟩
      | num text => exact ⟨_, rfl, rfl⟩
      | null => cases hkey
      | bool b => cases hkey
      | arr elements => cases hkey
      | obj members => cases hkey

theorem named_of_encode (hcjson : h.cjson.ReadsBack) {members : List (String × Json)}
    {filename key : String} {text : List UInt8}
    (hkey : fKey (members.lookup "type") filename = some key)
    (hfilename : members.lookup "filename" = some (.str filename))
    (hencode : h.cjson.encode (.obj members) = some text) :
    Named h ⟨members.lookup "type", filename, text⟩ := by
  obtain ⟨type, htype, hstorable⟩ := storable_of_fKey hkey
  have hread := hcjson members text hencode
  exact ⟨(hread _ _ htype hstorable).trans htype.symm, hread _ _ hfilename rfl⟩

theorem filename_of_attachedTo {form : Form} {members : List (String × Json)}
    {filename tmpName : String} {v : Attached}
    (h : attachedTo form (.obj members) = some (some (filename, v))) (htmp : v.tmpName = some tmpName) :
    members.lookup "filename" = some (.str filename) := by
  simp only [attachedTo, Json.index, Option.bind_eq_bind, Option.bind_some] at h
  obtain ⟨files, -, h⟩ := Option.bind_eq_some_iff.mp h
  split at h
  · rename_i name hname
    obtain ⟨found, -, hfound⟩ := Option.map_eq_some_iff.mp (Option.some.inj h)
    rw [hname, (Prod.mk.inj hfound).1]
  · obtain ⟨-, htext⟩ := Option.ite_none_right_eq_some.mp (Option.some.inj h)
    obtain rfl := (Prod.mk.inj (Option.some.inj htext)).2
    cases htmp
  · cases h

variable [DecidableEq ν]

theorem turnStep_turn (hcjson : h.cjson.ReadsBack) {r : Request} {env : Env} {s s' : Store ν}
    {f f' : Json} (hturn : turn h r env s f = (.returned f', s')) : TurnStep h s s' := by
  cases turned_of_turn hturn with
  | skipped _ => exact .skipped rfl rfl
  | @stored members updated filename path tmpName key v text hf hattached hpath htmp hupdate hkey
      hencode =>
      have hfilename : updated.lookup "filename" = some (.str filename) := by
        rw [lookup_updateFileinfo_of_ne (by decide) hupdate, lookup_locate_of_ne (by decide)]
        rw [hf] at hattached
        exact filename_of_attachedTo hattached htmp
      exact .stored ⟨updated.lookup "type", filename, text⟩ key hkey
        (named_of_encode h hcjson hkey hfilename hencode) rfl rfl

/-! ## Requests -/

theorem follows_loop (hcjson : h.cjson.ReadsBack) {r : Request} {i : Nat} {s s' : Store ν}
    {fs fs' : List Json} (hs : Follows h s) (hloop : loop h r i s fs = (.returned fs', s')) :
    Follows h s' := by
  induction fs generalizing i s fs' with
  | nil =>
      obtain ⟨-, rfl⟩ := Prod.mk.inj hloop
      exact hs
  | cons f fs ih =>
      obtain ⟨f₁, fs₁, s₁, -, hturn, hrest⟩ := loop_returned_cons hloop
      exact ih ((turnStep_turn h hcjson hturn).follows h hs) hrest

def upload (s : Store ν) (r : Request) : Option (Store ν) :=
  match ServiceUpload.run h s r with
  | (.raised, _) => none
  | (.returned _, s') => some s'

theorem follows_upload (hcjson : h.cjson.ReadsBack) {s s' : Store ν} {r : Request}
    (hs : Follows h s) (hupload : upload h s r = some s') : Follows h s' := by
  have hprepare : Follows h (prepare h s r.form) := ⟨hs.info, hs.named⟩
  unfold upload ServiceUpload.run at hupload
  cases hfiles : storeFiles h r (prepare h s r.form) with
  | mk outcome s₁ =>
      rw [hfiles] at hupload
      cases outcome with
      | raised => cases hupload
      | returned fs =>
          have hs₁ : Follows h s₁ := by
            unfold storeFiles at hfiles
            split at hfiles
            · exact follows_loop h hcjson hprepare hfiles
            · obtain ⟨-, rfl⟩ := Prod.mk.inj hfiles
              exact hprepare
            · cases hfiles
          cases hopen : r.dbOpen with
          | false => simp [hopen] at hupload
          | true =>
              simp only [hopen, Bool.not_true, Bool.false_eq_true, if_false,
                Option.some.injEq] at hupload
              obtain rfl := hupload
              exact ⟨hs₁.info, hs₁.named⟩

/-! ## Lookups -/

section Lookups

omit [DecidableEq ν]

def queryFinds (s : Store ν) (type filename : String) : Option Json :=
  match ServiceQuery.run h s "GET" [("type", .str type), ("filename", .str filename)] with
  | .returned (.success data) => data
  | _ => none

def pushfileFinds (s : Store ν) (type filename : String) : Option Json :=
  match ServicePushfile.filesInfo h s
      [.obj [("type", .str type), ("filename", .str filename)]] with
  | some [info] => some info
  | _ => none

theorem queryFinds_eq (s : Store ν) (type filename : String) :
    queryFinds h s type filename = getInfo h s (type ++ "_" ++ filename) := rfl

theorem pushfileFinds_eq (s : Store ν) (type filename : String) :
    pushfileFinds h s type filename = getInfo h s (type ++ "_" ++ filename) := by
  have hinfos : ServicePushfile.filesInfo h s
      [.obj [("type", .str type), ("filename", .str filename)]] =
        (getInfo h s (type ++ "_" ++ filename)).map fun info => [info] := by
    show (getInfo h s (type ++ "_" ++ filename)).bind _ = _
    cases getInfo h s (type ++ "_" ++ filename) with
    | none => rfl
    | some info => rfl
  rw [pushfileFinds, hinfos]
  cases getInfo h s (type ++ "_" ++ filename) with
  | none => rfl
  | some info => rfl

theorem named_unique {u v : Upload} (hu : Named h u) (hv : Named h v)
    (hsame : h.cjson.decode u.text = h.cjson.decode v.text) :
    u.type = v.type ∧ u.filename = v.filename := by
  have hfield (key : String) : h.cjson.field u.text key = h.cjson.field v.text key := by
    rw [Cjson.field, Cjson.field, hsame]
  refine ⟨hu.type.symm.trans ((hfield "type").trans hv.type), ?_⟩
  have hfilename := hu.filename.symm.trans ((hfield "filename").trans hv.filename)
  exact Json.str.inj (Option.some.inj hfilename)

theorem decode_of_named {u : Upload} (hu : Named h u) : ∃ info, h.cjson.decode u.text = some info := by
  have hfilename := hu.filename
  cases hdecode : h.cjson.decode u.text with
  | none =>
      rw [Cjson.field, hdecode] at hfilename
      cases hfilename
  | some info => exact ⟨info, rfl⟩

/-- A lookup is exact when the last upload under the key is one of its type and filename. -/
theorem getInfo_exact_iff {s : Store ν} (hs : Follows h s) (type filename : String) :
    getInfo h s (type ++ "_" ++ filename) = lastRecord h s type filename ↔
      ∀ u, lastUnder s (type ++ "_" ++ filename) = some u → u.isOf type filename = true := by
  have himp (u : Upload) (hu : u.isOf type filename = true) :
      (u.key == some (type ++ "_" ++ filename)) = true := by
    rw [Upload.key_of_isOf hu]
    exact beq_self_eq_true _
  rw [getInfo, hs.info, lastRecord]
  cases hunder : lastUnder s (type ++ "_" ++ filename) with
  | none =>
      have hnone : lastUpload s type filename = none := by
        refine History.last_eq_none.mpr ?_
        intro u hu
        have hkey := History.last_eq_none.mp hunder u hu
        cases hof : u.isOf type filename with
        | false => rfl
        | true => exact (himp u hof).symm.trans hkey
      simp [hnone]
  | some u =>
      have hu := hs.named u (History.last_mem hunder)
      constructor
      · rintro hexact _ ⟨⟩
        obtain ⟨info, hinfo⟩ := decode_of_named h hu
        rw [Option.map_some, Option.bind_some, hinfo] at hexact
        obtain ⟨v, hlast, hv⟩ := Option.bind_eq_some_iff.mp hexact.symm
        obtain ⟨htype, hname⟩ := named_unique h hu (hs.named v (History.last_mem hlast))
          (hinfo.trans hv.symm)
        have hof := Upload.isOf_iff.mp (History.last_holds hlast)
        exact Upload.isOf_iff.mpr ⟨htype.trans hof.1, hname.trans hof.2⟩
      · intro hexact
        have hlast : lastUpload s type filename = some u :=
          History.last_of_imp himp hunder (hexact u rfl)
        rw [hlast]
        rfl

end Lookups

def Fresh (s : Store ν) : Prop := s.uploadInfo = ∅ ∧ s.uploads = []

omit [DecidableEq ν] in
theorem follows_fresh {s : Store ν} (hs : Fresh s) : Follows h s where
  info key := by
    rw [hs.1, lastUnder, hs.2]
    rfl
  named u hu := by
    rw [hs.2] at hu
    cases hu

/-- Both services find the last upload of exactly this type and filename if and only if no other
pair with the same concatenation was uploaded behind it. -/
theorem lookups_exact_iff (hcjson : h.cjson.ReadsBack) {s t : Store ν} {requests : List Request}
    (hs : Fresh s) (hrun : Transition.run (upload h) s requests = some t)
    (type filename : String) :
    (queryFinds h t type filename = lastRecord h t type filename ∧
        pushfileFinds h t type filename = lastRecord h t type filename) ↔
      ∀ u, lastUnder t (type ++ "_" ++ filename) = some u → u.isOf type filename = true := by
  have hupload : ∀ s r s', Follows h s → upload h s r = some s' → Follows h s' := by
    intro s r s' hs hstep
    exact follows_upload h hcjson hs hstep
  have hfollows := run_invariant hupload (follows_fresh h hs) hrun
  rw [← getInfo_exact_iff h hfollows, queryFinds_eq, pushfileFinds_eq, and_self]

/-! ## Two pairs with one key -/

namespace SharedKey

def record (type filename md5 : String) : List (String × Json) :=
  let url := "download/" ++ type ++ "/" ++ filename
  [("type", .str type), ("filename", .str filename), ("remotefile_url", .str url),
    ("save_path", .str url), ("md5", .str md5), ("modify_time", .num "1700000000"),
    ("filesize", .num "1")]

def recordText (type filename md5 : String) : List UInt8 :=
  let url := "\"download\\/" ++ type ++ "\\/" ++ filename ++ "\","
  ["\x7b\"type\":\"" ++ type ++ "\",", "\"filename\":\"" ++ filename ++ "\",",
    "\"remotefile_url\":", url, "\"save_path\":", url, "\"md5\":", "\"" ++ md5 ++ "\",",
    "\"modify_time\":1700000000,", "\"filesize\":1\x7d"].flatMap sampleText

def md5A : String := "0cc175b9c0f1b6a831c399e269772661"
def md5B : String := "92eb5ffee6ae2fec3ad71c777531578f"

def host : Host String where
  cjson := Cjson.ofTable
    [(recordText "a_b" "c" md5A, record "a_b" "c" md5A),
      (recordText "a" "b_c" md5B, record "a" "b_c" md5B)]
  canon := id
  md5 content := if content = [0x61] then md5A else md5B
  execute _ disk := disk
  unqlite := sampleUnqlite

theorem readsBack_host : host.cjson.ReadsBack := Cjson.readsBack_ofTable (by decide +kernel)

def store : Store String := ⟨⟨fun _ => none⟩, ∅, ∅, ⟨∅, fun _ => [], fun _ => []⟩, []⟩

def request (type filename : String) (content : UInt8) : Request where
  form := multipart [⟨filename, "1700000000.5", [content]⟩] 0
    (some (.arr [.obj [("type", .str type), ("filename", .str filename)]]))
  dbOpen := true
  env _ := ⟨true, none, "1700000000", true⟩
  now := "1700000000000"

def member (info : Option Json) (key : String) : Option Json := (Json.index info key).getD none

end SharedKey

open SharedKey in
theorem lookups_exact_one :
    ∃ t, Transition.run (upload host) store [request "a_b" "c" 0x61] = some t ∧
      (lastRecord host t "a_b" "c").isSome = true ∧
      queryFinds host t "a_b" "c" = lastRecord host t "a_b" "c" ∧
      pushfileFinds host t "a_b" "c" = lastRecord host t "a_b" "c" := by
  have hone : ∃ t ∈ Transition.run (upload host) store [request "a_b" "c" 0x61],
      (lastRecord host t "a_b" "c").isSome = true ∧
        (lastUnder t ("a_b" ++ "_" ++ "c")).all (Upload.isOf "a_b" "c") = true := by
    decide +kernel
  obtain ⟨t, hrun, hfound, hexact⟩ := hone
  refine ⟨t, hrun, hfound, (lookups_exact_iff host readsBack_host ⟨rfl, rfl⟩ hrun _ _).mpr ?_⟩
  intro u hu
  rw [hu] at hexact
  exact hexact

open SharedKey in
/-- The upload of `b_c` under the type `a` answers for `c` under the type `a_b`. -/
theorem lookup_finds_other : ¬ ∀ (h : Host String), h.cjson.ReadsBack →
    ∀ (s t : Store String) (requests : List Request), Fresh s →
      Transition.run (upload h) s requests = some t → ∀ type filename, type ≠ "" → filename ≠ "" →
        queryFinds h t type filename = lastRecord h t type filename ∧
          pushfileFinds h t type filename = lastRecord h t type filename := by
  intro hall
  have hbad : ∃ t ∈ Transition.run (upload host) store
      [request "a_b" "c" 0x61, request "a" "b_c" 0x62],
      Json.luaEq (member (queryFinds host t "a_b" "c") "type") (some (.str "a")) = true ∧
        Json.luaEq (member (lastRecord host t "a_b" "c") "type") (some (.str "a_b")) = true := by
    decide +kernel
  obtain ⟨t, hrun, hfound, hlast⟩ := hbad
  have hsame := (hall host readsBack_host store t _ ⟨rfl, rfl⟩ hrun "a_b" "c" (by decide)
    (by decide)).1
  rw [hsame, Json.eq_of_luaEq hlast] at hfound
  exact absurd hfound (by decide)

end CloudEdgePush.Server
