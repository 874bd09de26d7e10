import CloudEdgePush.Lib.Transition
import CloudEdgePush.Server.ServiceUpload

/-!
# Records and stored files

A record of `upload_info` describes the file at its `remotefile_url`.  The file is replaced
before the record, the key of a record is not the path of its file, and the type of an entry
goes to the shell: `RequestSafe` says what a request must leave alone so that all records go
on to describe their files.
-/

namespace CloudEdgePush.Server.ServiceUpload

open CloudEdgePush.Lib CloudEdgePush.Lib.Transition

variable {ν : Type} (h : Host ν)

def leadsTo (text : List UInt8) : Option ν :=
  match h.cjson.field text "remotefile_url" with
  | some (.str url) => some (h.canon url)
  | _ => none

def Fits (text content : List UInt8) : Prop :=
  h.cjson.field text "md5" = some (.str (h.md5 content)) ∧
    h.cjson.field text "filesize" = some (.num (toString content.length))

def Describes (disk : Disk ν UInt8) (text : List UInt8) : Prop :=
  ∃ n, leadsTo h text = some n ∧ disk.Holds n (Fits h text)

def Consistent (s : Store ν) : Prop :=
  ∀ key text, s.uploadInfo.lookup key = some text → Describes h s.disk text

/-- The change leaves the files alone that records lead to. -/
def Spares (s : Store ν) (change : Disk ν UInt8 → Disk ν UInt8) : Prop :=
  ∀ key text n, s.uploadInfo.lookup key = some text → leadsTo h text = some n →
    (change s.disk).file n = s.disk.file n

/-- So does `db:set`, and with the file at `url`. -/
def SetSpares (s : Store ν) (url : String) : Prop :=
  ∀ key text, Spares h s (h.unqlite (.set key text)) ∧
    (h.unqlite (.set key text) s.disk).file (h.canon url) = s.disk.file (h.canon url)

/-- The key that is set when the entry's file has this content: none, if the listing of the
archive or the concatenation of the key raises. -/
def replacedKey (members : List (String × Json)) (filename : String) (content : List UInt8) :
    Option String :=
  if getExtension filename = some "zip" ∧ Zzlib.filelist content = none then none
  else fKey (members.lookup "type") filename

variable {h} in
theorem Describes.of_file {disk disk' : Disk ν UInt8} {text : List UInt8}
    (hdescribes : Describes h disk text)
    (hsame : ∀ n, leadsTo h text = some n → disk'.file n = disk.file n) :
    Describes h disk' text := by
  obtain ⟨n, hn, content, hcontent, hfits⟩ := hdescribes
  exact ⟨n, hn, content, (hsame n hn).trans hcontent, hfits⟩

variable {h} in
theorem Consistent.of_spares {s : Store ν} {change : Disk ν UInt8 → Disk ν UInt8}
    (hs : Consistent h s) (hspares : Spares h s change) :
    Consistent h { s with disk := change s.disk } := by
  intro key text hlookup
  exact (hs key text hlookup).of_file fun n hn => hspares key text n hlookup hn

/-! ## Recording a file -/

theorem consistent_storeRecord {r : Request} {env : Env} {s : Store ν} {key filename : String}
    {members : List (String × Json)}
    (hothers : ∀ other text, other ≠ key → s.uploadInfo.lookup other = some text →
      Describes h s.disk text)
    (hnew : ∀ text, h.cjson.encode (.obj members) = some text → Describes h s.disk text)
    (hset : ∀ text, h.cjson.encode (.obj members) = some text →
      Spares h { s with uploadInfo := s.uploadInfo.insert key text } (h.unqlite (.set key text))) :
    Consistent h (storeRecord h r env s key filename members).2 := by
  obtain ⟨hdisk, hinfo⟩ := storeRecord_snd h r env s key filename members
  cases hencode : h.cjson.encode (.obj members) with
  | none =>
      simp only [hencode] at hdisk hinfo
      intro other text hlookup
      rw [hinfo] at hlookup
      rw [hdisk]
      by_cases hother : other = key
      · rw [hother, AList.lookup_erase] at hlookup
        cases hlookup
      · rw [AList.lookup_erase_ne hother] at hlookup
        exact hothers other text hother hlookup
  | some new =>
      simp only [hencode] at hdisk hinfo
      have hinserted : Consistent h { s with uploadInfo := s.uploadInfo.insert key new } := by
        intro other text hlookup
        by_cases hother : other = key
        · rw [hother, AList.lookup_insert] at hlookup
          obtain rfl := Option.some.inj hlookup
          exact hnew new hencode
        · rw [AList.lookup_insert_ne hother] at hlookup
          exact hothers other text hother hlookup
      intro other text hlookup
      rw [hinfo] at hlookup
      rw [hdisk]
      split
      · exact hinserted.of_spares (hset new hencode) other text hlookup
      · exact hinserted other text hlookup

/-- Behind `os.rename`: the record that goes in describes the file, and the others do already. -/
theorem consistent_recordFile (hcjson : h.cjson.ReadsBack) {r : Request} {env : Env} {s : Store ν}
    {members : List (String × Json)} {filename url : String}
    (hkept : ∀ key text, s.uploadInfo.lookup key = some text →
      some key ≠ (s.disk.file (h.canon url)).bind (replacedKey members filename) →
        Describes h s.disk text)
    (hurl : members.lookup "remotefile_url" = some (.str url)) (hset : SetSpares h s url)
    (hdir : s.disk.file (h.canon url) = none → env.directory = none ∨
      getExtension filename = some "zip" ∨ fKey (members.lookup "type") filename = none) :
    Consistent h (recordFile h r env s members filename url).2 := by
  have hstep := recordStep_recordFile h r env s members filename url
  generalize recordFile h r env s members filename url = result at hstep ⊢
  cases hstep with
  | raised hraised =>
      -- nothing is recorded, and no record is exempt
      have hnone : (s.disk.file (h.canon url)).bind (replacedKey members filename) = none := by
        cases hcontent : s.disk.file (h.canon url) with
        | none => rfl
        | some content =>
            obtain hupdate | hkey := hraised
            · exact if_pos (filelist_of_raised hcontent hupdate)
            · rw [Option.bind_some, replacedKey, hkey]
              exact ite_self none
      intro key text hlookup
      exact hkept key text hlookup (by simp [hnone])
  | @stored updated key hupdate hkey =>
      obtain ⟨content, hcontent⟩ : ∃ content, s.disk.file (h.canon url) = some content := by
        cases hcontent : s.disk.file (h.canon url) with
        | some content => exact ⟨content, rfl⟩
        | none =>
            have hstop : updateFileinfo h env s.disk filename url members = none := by
              apply updateFileinfo_of_none hcontent
              obtain hdirectory | hzip | hnokey := hdir hcontent
              · exact .inl hdirectory
              · exact .inr hzip
              · cases hkey.symm.trans hnokey
            cases hupdate.symm.trans hstop
      have hleads : ∀ text, h.cjson.encode (.obj updated) = some text →
          leadsTo h text = some (h.canon url) := by
        intro text hencode
        have hpath := lookup_updateFileinfo_of_ne (show "remotefile_url" ∉ _ by decide) hupdate
        rw [leadsTo, hcjson updated text hencode _ _ (hpath.trans hurl) rfl]
      refine consistent_storeRecord h ?_ ?_ ?_
      · intro other text hother hlookup
        refine hkept other text hlookup ?_
        rw [hcontent, Option.bind_some, replacedKey, hkey]
        split
        · simp
        · simpa using hother
      · intro text hencode
        obtain ⟨hmd5, hsize⟩ := lookup_updateFileinfo hcontent hupdate
        have hread := hcjson updated text hencode
        exact ⟨_, hleads text hencode, content, hcontent, hread _ _ hmd5 rfl, hread _ _ hsize rfl⟩
      · intro new hencode other text n hlookup hn
        by_cases hother : other = key
        · rw [hother, AList.lookup_insert] at hlookup
          obtain rfl := Option.some.inj hlookup
          obtain rfl := Option.some.inj ((hleads _ hencode).symm.trans hn)
          exact (hset key _).2
        · rw [AList.lookup_insert_ne hother] at hlookup
          exact (hset key new).1 other text n hlookup hn

variable [DecidableEq ν]

/-! ## Safe requests -/

def Moves (s : Store ν) (env : Env) (tmp url : String) (content : List UInt8) : Prop :=
  env.renames = true ∧ h.canon tmp ≠ h.canon url ∧ s.disk.file (h.canon tmp) = some content

/-- What an entry must leave alone, `tmp` and `url` being the paths of its rename. -/
structure MoveSafe (s : Store ν) (env : Env) (members : List (String × Json))
    (filename tmp url : String) : Prop where
  /-- Records other than the replaced one do not lead to the temporary file, and have digest and
  size of the new content if they lead to the target. -/
  moved : ∀ content, Moves h s env tmp url content → ∀ key text,
    s.uploadInfo.lookup key = some text → some key ≠ replacedKey members filename content →
      leadsTo h text ≠ some (h.canon tmp) ∧
        (leadsTo h text = some (h.canon url) → Fits h text content)
  /-- Where nothing is moved, no directory is recorded. -/
  unmoved : (∀ content, ¬Moves h s env tmp url content) → s.disk.file (h.canon url) = none →
    env.directory = none ∨ getExtension filename = some "zip" ∨
      fKey (members.lookup "type") filename = none

structure GoesTo (r : Request) (f : Json) (members : List (String × Json)) (filename : String)
    (v : Attached) (path : String) : Prop where
  entry : f = .obj members
  attached : attachedTo r.form f = some (some (filename, v))
  directory : filepath (members.lookup "type") = some path

/-- The shell, the rename and the database leave the records alone. -/
structure TurnSafe (r : Request) (env : Env) (s : Store ν) (f : Json) : Prop where
  shell : ∀ members filename v path, GoesTo r f members filename v path →
    Spares h s (h.execute ("mkdir -p " ++ path))
  move : ∀ members filename v path tmpName, GoesTo r f members filename v path →
    v.tmpName = some tmpName →
      MoveSafe h (mkdir h s path) env members filename (tmpRoot ++ tmpName) (path ++ filename)
  dbSet : ∀ members filename v path tmpName, GoesTo r f members filename v path →
    v.tmpName = some tmpName →
      SetSpares h (placed h env s path tmpName filename) (path ++ filename)

def LoopSafe (r : Request) : Nat → Store ν → List Json → Prop
  | _, _, [] => True
  | i, s, f :: fs =>
      TurnSafe h r (r.env i) s f ∧
        ∀ f' s', turn h r (r.env i) s f = (.returned f', s') → LoopSafe r (i + 1) s' fs

/-- The temporary files, every entry up to the one that raises, and what the shell and the
database do around them leave the records alone. -/
structure RequestSafe (s : Store ν) (r : Request) : Prop where
  tmpDir : Spares h s (h.execute ("mkdir -p " ++ tmpRoot))
  downloadDir : Spares h (mkdir h s tmpRoot) (h.execute ("mkdir -p " ++ downloadRoot))
  written : ∀ file ∈ r.form.written, ∀ key text, s.uploadInfo.lookup key = some text →
    leadsTo h text = some (h.canon (tmpRoot ++ file.1)) → Fits h text file.2
  opened : Spares h (post h (mkdir h (mkdir h s tmpRoot) downloadRoot) r.form) (h.unqlite .opened)
  entries : ∀ fs, r.form.filesInfo = some (.arr fs) → LoopSafe h r 0 (prepare h s r.form) fs
  closed : ∀ fs s', storeFiles h r (prepare h s r.form) = (.returned fs, s') →
    Spares h s' (h.unqlite .closed)

/-! ## One entry -/

theorem moveFile_of_moves {s : Store ν} {env : Env} {tmp url : String} {content : List UInt8}
    (hmoves : Moves h s env tmp url content) :
    moveFile h s env tmp url =
      { s with disk := s.disk.rename (h.canon tmp) (h.canon url) } := if_pos hmoves.1

theorem moveFile_of_not_moves {s : Store ν} {env : Env} {tmp url : String}
    (hstays : ∀ content, ¬Moves h s env tmp url content) : moveFile h s env tmp url = s := by
  unfold moveFile
  by_cases hrenames : env.renames = true
  · rw [if_pos hrenames]
    by_cases heq : h.canon tmp = h.canon url
    · rw [heq, Disk.rename_self]
    · cases hsrc : s.disk.file (h.canon tmp) with
      | none => rw [Disk.rename_of_none hsrc]
      | some content => exact absurd ⟨hrenames, heq, hsrc⟩ (hstays content)
  · rw [if_neg hrenames]

/-- After `os.rename` every record describes its file, but for the one to be replaced. -/
theorem describes_moveFile {s : Store ν} {env : Env} {members : List (String × Json)}
    {filename tmp url : String} (hs : Consistent h s)
    (hsafe : MoveSafe h s env members filename tmp url) {key : String} {text : List UInt8}
    (hlookup : (moveFile h s env tmp url).uploadInfo.lookup key = some text)
    (hkey : some key ≠ ((moveFile h s env tmp url).disk.file (h.canon url)).bind
      (replacedKey members filename)) :
    Describes h (moveFile h s env tmp url).disk text := by
  by_cases hmoves : ∃ content, Moves h s env tmp url content
  · obtain ⟨content, hmoves⟩ := hmoves
    rw [moveFile_of_moves h hmoves] at hlookup hkey ⊢
    rw [Disk.rename_target hmoves.2.2] at hkey
    obtain ⟨htmp, hurl⟩ := hsafe.moved content hmoves key text hlookup hkey
    obtain ⟨n, hn, hholds⟩ := hs key text hlookup
    refine ⟨n, hn, hholds.rename hmoves.2.2 ?_ ?_⟩
    · rintro rfl
      exact htmp hn
    · rintro rfl
      exact hurl hn
  · rw [moveFile_of_not_moves h (not_exists.mp hmoves)] at hlookup ⊢
    exact hs key text hlookup

theorem moved_of_file_none {s : Store ν} {env : Env} {tmp url : String}
    (hnone : (moveFile h s env tmp url).disk.file (h.canon url) = none) :
    (∀ content, ¬Moves h s env tmp url content) ∧ s.disk.file (h.canon url) = none := by
  have hstays : ∀ content, ¬Moves h s env tmp url content := by
    intro content hmoves
    rw [moveFile_of_moves h hmoves, Disk.rename_target hmoves.2.2] at hnone
    cases hnone
  rw [moveFile_of_not_moves h hstays] at hnone
  exact ⟨hstays, hnone⟩

theorem consistent_turn (hcjson : h.cjson.ReadsBack) {r : Request} {env : Env} {s : Store ν}
    {f : Json} (hs : Consistent h s) (hsafe : TurnSafe h r env s f) :
    Consistent h (turn h r env s f).2 := by
  have hcase := turn_cases h r env s f
  generalize turn h r env s f = result at hcase ⊢
  cases hcase with
  | nothing outcome _ => exact hs
  | @noFile members filename path v hf hattached hpath htmp =>
      exact hs.of_spares (hsafe.shell members filename v path ⟨hf, hattached, hpath⟩)
  | @placed members filename path tmpName v hf hattached hpath htmp =>
      have hgoes : GoesTo r f members filename v path := ⟨hf, hattached, hpath⟩
      have hmade : Consistent h (mkdir h s path) :=
        hs.of_spares (hsafe.shell members filename v path hgoes)
      have hmove := hsafe.move members filename v path tmpName hgoes htmp
      have hset := hsafe.dbSet members filename v path tmpName hgoes htmp
      have htype := lookup_locate_of_ne (show "type" ∉ _ by decide) members (path ++ filename)
      have hreplaced : replacedKey (locate members (path ++ filename)) filename =
          replacedKey members filename := by
        funext content
        rw [replacedKey, replacedKey, htype]
      refine consistent_recordFile h hcjson ?_ (lookup_locate_url members _) hset ?_
      · intro key text hlookup hkey
        rw [hreplaced] at hkey
        exact describes_moveFile h hmade hmove hlookup hkey
      · intro hnone
        rw [htype]
        obtain ⟨hstays, hfile⟩ := moved_of_file_none h hnone
        exact hmove.unmoved hstays hfile

/-! ## Requests -/

theorem consistent_loop (hcjson : h.cjson.ReadsBack) {r : Request} {i : Nat} {s : Store ν}
    {fs : List Json} (hs : Consistent h s) (hsafe : LoopSafe h r i s fs) :
    Consistent h (loop h r i s fs).2 := by
  apply loop_invariant (G := LoopSafe h r) _ _ hs hsafe
  · intro i s f fs hs hsafe
    exact consistent_turn h hcjson hs hsafe.1
  · intro i s f fs f' s' hsafe hturn
    exact hsafe.2 f' s' hturn

theorem consistent_post {s : Store ν} {form : Form} (hs : Consistent h s)
    (hsafe : ∀ file ∈ form.written, ∀ key text, s.uploadInfo.lookup key = some text →
      leadsTo h text = some (h.canon (tmpRoot ++ file.1)) → Fits h text file.2) :
    Consistent h (post h s form) := by
  intro key text hlookup
  have hdescribes := hs key text hlookup
  have hfits : ∀ file ∈ form.written, leadsTo h text = some (h.canon (tmpRoot ++ file.1)) →
      Fits h text file.2 := fun file hfile => hsafe file hfile key text hlookup
  show Describes h (form.written.foldl _ s.disk) text
  generalize s.disk = disk at hdescribes
  generalize form.written = files at hfits
  induction files generalizing disk with
  | nil => exact hdescribes
  | cons file files ih =>
      obtain ⟨n, hn, hholds⟩ := hdescribes
      have hfile := hfits file List.mem_cons_self
      refine ih _ ⟨n, hn, hholds.write ?_⟩ ?_
      · rintro rfl
        exact hfile hn
      · intro other hother
        exact hfits other (List.mem_cons_of_mem _ hother)

theorem consistent_prepare {s : Store ν} {r : Request} (hs : Consistent h s)
    (hsafe : RequestSafe h s r) : Consistent h (prepare h s r.form) := by
  have hroots := (hs.of_spares hsafe.tmpDir).of_spares hsafe.downloadDir
  have hpost := consistent_post h hroots hsafe.written
  exact hpost.of_spares hsafe.opened

theorem consistent_run (hcjson : h.cjson.ReadsBack) {s : Store ν} {r : Request}
    (hs : Consistent h s) (hsafe : RequestSafe h s r) : Consistent h (run h s r).2 := by
  have hprepare := consistent_prepare h hs hsafe
  apply invariant_of_loop _ hprepare
  · intro fs hfs
    exact consistent_loop h hcjson hprepare (hsafe.entries fs hfs)
  · intro fs s' hfiles hs
    exact hs.of_spares (hsafe.closed fs s' hfiles)
  · intro s shared hs
    exact hs

/-- The requests, one after the other; one that raises leaves behind what it has done. -/
def step (s : Store ν) (r : Request) : Option (Store ν) := some (run h s r).2

/-- As long as every request is safe, the records describe their files. -/
theorem uploads_consistent (hcjson : h.cjson.ReadsBack) {s t : Store ν} {requests : List Request}
    (hs : Consistent h s) (hrun : Transition.run (step h) s requests = some t)
    (hsafe : AllSteps (step h) (RequestSafe h) s requests) : Consistent h t := by
  have hrequest : ∀ s r s', Consistent h s → RequestSafe h s r → step h s r = some s' →
      Consistent h s' := by
    intro s r s' hs hsafe hstep
    obtain rfl := Option.some.inj hstep
    exact consistent_run h hcjson hs hsafe
  exact run_guarded hrequest hs hsafe hrun

/-! ## An upload that fails on the way -/

def sampleZip : List UInt8 := [0x50, 0x4b, 0x05, 0x06]

def sampleRecord : List (String × Json) :=
  [("type", .str "t"), ("filename", .str "a.zip"), ("remotefile_url", .str "download/t/a.zip"),
    ("save_path", .str "download/t/a.zip"), ("md5", .str "ff6987182889f8bd1c5c721317f3827c"),
    ("modify_time", .num "1700000000"), ("filesize", .num "4"), ("zip_info", .str "\x7b\x7d")]

def sampleRecordText : List UInt8 :=
  ["\x7b\"type\":\"t\",", "\"filename\":\"a.zip\",", "\"remotefile_url\":", "\"download\\/t\\/a.zip\",",
    "\"save_path\":", "\"download\\/t\\/a.zip\",", "\"md5\":", "\"ff6987182889f8bd1c5c721317f3827c\",",
    "\"modify_time\":1700000000,", "\"filesize\":4,", "\"zip_info\":\"\x7b\x7d\"\x7d"].flatMap sampleText

def sampleHost : Host String where
  cjson := Cjson.ofTable [(sampleRecordText, sampleRecord)]
  canon := id
  md5 content :=
    if content = sampleZip then "ff6987182889f8bd1c5c721317f3827c"
    else "d41d8cd98f00b204e9800998ecf8427e"
  execute _ disk := disk
  unqlite := sampleUnqlite

def sampleStore : Store String := ⟨⟨fun _ => none⟩, ∅, ∅, ⟨∅, fun _ => [], fun _ => []⟩, []⟩

def sampleRequest (content : List UInt8) : Request where
  form := multipart [⟨"a.zip", "1700000000.5", content⟩] 0
    (some (.arr [.obj [("type", .str "t"), ("filename", .str "a.zip")]]))
  dbOpen := true
  env _ := ⟨true, none, "1700000000", true⟩
  now := "1700000000000"

theorem uploads_consistent_sample :
    ∃ t, Transition.run (step sampleHost) sampleStore [sampleRequest sampleZip] = some t ∧
      t.uploadInfo.lookup "t_a.zip" = some sampleRecordText ∧ Consistent sampleHost t := by
  have hstored : ∃ t ∈ Transition.run (step sampleHost) sampleStore [sampleRequest sampleZip],
      t.uploadInfo.lookup "t_a.zip" = some sampleRecordText := by
    decide +kernel
  obtain ⟨t, hrun, hrecord⟩ := hstored
  refine ⟨t, hrun, hrecord, uploads_consistent sampleHost
    (Cjson.readsBack_ofTable (List.nodup_singleton _)) ?_ hrun ?_⟩
  · intro key text hlookup
    cases hlookup
  · have hnone {s : Store String} {change : Disk String UInt8 → Disk String UInt8}
        (hempty : s.uploadInfo = ∅) : Spares sampleHost s change := by
      intro key text n hlookup
      rw [hempty] at hlookup
      cases hlookup
    refine ⟨⟨hnone rfl, hnone rfl, ?_, hnone rfl, ?_, fun _ _ _ _ _ _ _ _ => rfl⟩,
      fun _ _ => trivial⟩
    · intro file hfile key text hlookup
      cases hlookup
    · rintro fs hfs
      obtain rfl := Json.arr.inj (Option.some.inj hfs)
      refine ⟨⟨fun _ _ _ _ _ => hnone rfl, ?_, ?_⟩, fun _ _ _ => trivial⟩
      · intro members filename v path tmpName _ _
        refine ⟨?_, fun _ _ => .inl rfl⟩
        intro content _ key text hlookup
        cases hlookup
      · intro members filename v path tmpName hgoes _ key text
        obtain rfl := Json.obj.inj hgoes.entry
        obtain rfl : "download/t/" = path :=
          Option.some.inj ((by decide +kernel : some "download/t/" = _).trans hgoes.directory)
        have hattached : some (some ("a.zip", ⟨some "1700000000.5"⟩)) = some (some (filename, v)) :=
          hgoes.attached
        obtain ⟨rfl, rfl⟩ := Prod.mk.inj (Option.some.inj (Option.some.inj hattached))
        exact ⟨hnone rfl, Disk.append_of_ne _ (by decide +kernel) _⟩

/-- The second archive is empty: its listing raises when it is already in place. -/
theorem record_of_replaced_file : ¬ ∀ (h : Host String), h.cjson.ReadsBack →
    ∀ (s t : Store String) (requests : List Request), Consistent h s →
      Transition.run (step h) s requests = some t → Consistent h t := by
  intro hall
  have hbad : ∃ t ∈ Transition.run (step sampleHost) sampleStore
      [sampleRequest sampleZip, sampleRequest []],
      t.uploadInfo.lookup "t_a.zip" = some sampleRecordText ∧
        t.disk.file "download/t/a.zip" = some [] := by
    decide +kernel
  obtain ⟨t, hrun, hrecord, hfile⟩ := hbad
  have hconsistent := hall sampleHost (Cjson.readsBack_ofTable (List.nodup_singleton _))
    sampleStore t _ (fun key text hlookup => by cases hlookup) hrun
  have hfield (key : String) : sampleHost.cjson.field sampleRecordText key =
      sampleRecord.lookup key := by
    simp [Cjson.field, sampleHost, Cjson.ofTable, Json.index]
  obtain ⟨n, hn, content, hcontent, -, hsize⟩ := hconsistent "t_a.zip" sampleRecordText hrecord
  have hurl : sampleRecord.lookup "remotefile_url" = some (.str "download/t/a.zip") := rfl
  rw [leadsTo, hfield, hurl] at hn
  obtain rfl : "download/t/a.zip" = n := Option.some.inj hn
  obtain rfl : [] = content := Option.some.inj (hfile.symm.trans hcontent)
  have hfour : sampleRecord.lookup "filesize" = some (.num "4") := rfl
  have hzero : toString ([] : List UInt8).length = "0" := rfl
  rw [hfield, hfour, hzero] at hsize
  simp at hsize

end CloudEdgePush.Server.ServiceUpload
