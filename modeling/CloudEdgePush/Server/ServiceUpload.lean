import CloudEdgePush.Lib.Disk
import CloudEdgePush.Server.Session
import CloudEdgePush.Server.Zzlib

/-!
# `service_upload.lua`

An upload request: `resty.post` writes the attached files to temporary files, and for every
entry of `files_info` with a file of its name the service moves the temporary file to its
place under `download/`, and stores a record of it in `upload_info` and `upload.db`.

Paths are resolved by `canon`: two paths with one image lead to one file.  A text that is
stored or sent is one that `cjson` wrote.  Files that exist can be opened.  What a shell command
and a call of `unqlite` make of the disk is left to the host: the command has the type of the
entry in it, and the database is a file too.
-/

namespace CloudEdgePush.Server

open CloudEdgePush.Lib

inductive DbCall
  | opened
  | set (key : String) (text : List UInt8)
  | closed

structure Host (ν : Type) where
  cjson : Cjson
  canon : String → ν
  /-- `ngx.md5`. -/
  md5 : List UInt8 → String
  /-- `os.execute`. -/
  execute : String → Disk ν UInt8 → Disk ν UInt8
  unqlite : DbCall → Disk ν UInt8 → Disk ν UInt8

/-- An upload whose record was stored: its type and filename, and the text of the record. -/
structure Upload where
  type : Option Json
  filename : String
  text : List UInt8

/-- The disk, `upload_info`, `upload.db` and the dictionaries of the stream server.  `uploads`
is not stored anywhere: the uploads so far, in order. -/
structure Store (ν : Type) where
  disk : Disk ν UInt8
  uploadInfo : AList fun _ : String => List UInt8
  db : AList fun _ : String => List UInt8
  shared : Shared
  uploads : List Upload

namespace ServiceUpload

def tmpRoot : String := "tmp/"
def downloadRoot : String := "download/"

/-! ## `resty.post` -/

/-- A part of a multipart body with a filename; its temporary file can be opened. -/
structure Part where
  key : String
  tmpName : String
  content : List UInt8

/-- What `m.files` has for a key.  An array of several files has no `tmp_name`, nor has a text. -/
structure Attached where
  tmpName : Option String

/-- What `post:read` leaves behind: the temporary files it wrote, and the form.  `positional` is
how many texts a field named `files` has put into `m.files`, at 1, 2 and so on. -/
structure Form where
  written : List (String × List UInt8)
  files : Option (List (String × Attached))
  positional : Nat
  filesInfo : Option Json

def addFile (files : List (String × Attached)) (part : Part) : List (String × Attached) :=
  match files.lookup part.key with
  | none => files ++ [(part.key, ⟨some part.tmpName⟩)]
  | some _ => files.map fun file => if file.1 = part.key then (file.1, ⟨none⟩) else file

/-- `multipart`; `filesInfo` is what `cjson` makes of the field `files_info`. -/
def multipart (parts : List Part) (positional : Nat) (filesInfo : Option Json) : Form where
  written := parts.map fun part => (part.tmpName, part.content)
  files := some (parts.foldl addFile [])
  positional := positional
  filesInfo := filesInfo

/-! ## Requests -/

/-- What happens to one entry: whether `os.rename` can move a file, the size of a directory
that is found in place of a file, the modification time and the result of `db:set`. -/
structure Env where
  renames : Bool
  directory : Option Nat
  modification : String
  dbSet : Bool

structure Request where
  form : Form
  /-- `unqlite.open` does not return `nil`. -/
  dbOpen : Bool
  env : Nat → Env
  now : String

variable {ν : Type} [DecidableEq ν] (h : Host ν)

/-- `mkdir`; `util.fileExists` is never `nil`. -/
def mkdir (s : Store ν) (p : String) : Store ν :=
  { s with disk := h.execute ("mkdir -p " ++ p) s.disk }

def dbCall (s : Store ν) (call : DbCall) : Store ν := { s with disk := h.unqlite call s.disk }

def post (s : Store ν) (form : Form) : Store ν :=
  { s with
    disk := form.written.foldl
      (fun disk file => disk.write (h.canon (tmpRoot ++ file.1)) file.2) s.disk }

/-! ## `update_fileinfo` -/

/-- `str:match(".+%.(%w+)$")`. -/
def getExtension (str : String) : Option String :=
  let reversed := str.toList.reverse
  let ext := (reversed.takeWhile (· != '.')).reverse
  let stem := (reversed.dropWhile (· != '.')).drop 1
  if stem ≠ [] ∧ ext ≠ [] ∧ ext.all Char.isAlphanum then some (String.ofList ext) else none

def decompress (disk : Disk ν UInt8) (srcPath : String) : Option (List (List UInt8)) :=
  (disk.file (h.canon srcPath)).bind Zzlib.filelist

/-- `update_fileinfo`; `none` is a Lua error. -/
def updateFileinfo (env : Env) (disk : Disk ν UInt8) (filename url : String)
    (members : List (String × Json)) : Option (List (String × Json)) := do
  let content := disk.file (h.canon url)
  let md5 := (content.or (env.directory.map fun _ => [])).map h.md5
  let members := Json.setMember members "md5" (md5.map .str)
  let size ← (content.map List.length).or env.directory
  let members := Json.setMember members "modify_time" (some (.num env.modification))
  let members := Json.setMember members "filesize" (some (.num (toString size)))
  if getExtension filename = some "zip" then
    let names ← decompress h disk url
    let zipInfo := h.cjson.encode (.arr (names.map Json.ofBytes))
    return Json.setMember members "zip_info" (zipInfo.map Json.ofBytes)
  else return Json.setMember members "zip_info" none

/-! ## `run` -/

/-- `m.files[f.filename]`; the outer `none` is a Lua error. -/
def attachedTo (form : Form) (f : Json) : Option (Option (String × Attached)) := do
  let filename ← Json.index (some f) "filename"
  let files ← form.files
  match filename with
  | some (.str filename) => return (files.lookup filename).map (Prod.mk filename)
  | some (.num text) =>
      return if ∃ i < form.positional, text = toString (i + 1) then some (text, ⟨none⟩) else none
  | _ => return none

def filepath (type : Option Json) : Option String :=
  if Json.truthy type then (Json.concatText type).map fun t => downloadRoot ++ t ++ "/"
  else some downloadRoot

/-- `f.remotefile_url` and the default of `f.save_path`. -/
def locate (members : List (String × Json)) (url : String) : List (String × Json) :=
  let members := Json.setMember members "remotefile_url" (some (.str url))
  if Json.truthy (members.lookup "save_path") then members
  else Json.setMember members "save_path" (some (.str url))

def moveFile (s : Store ν) (env : Env) (tmp url : String) : Store ν :=
  if env.renames then { s with disk := s.disk.rename (h.canon tmp) (h.canon url) } else s

def fKey (type : Option Json) (filename : String) : Option String :=
  (Json.concatText type).map fun t => t ++ "_" ++ filename

/-- `upload_info:set` and `db:set`.  Setting `nil` removes the key of a dictionary, and `db:set`
raises on it. -/
def storeRecord (r : Request) (env : Env) (s : Store ν) (key filename : String)
    (members : List (String × Json)) : Outcome Json × Store ν :=
  match h.cjson.encode (.obj members) with
  | none => (.raised, { s with uploadInfo := s.uploadInfo.erase key })
  | some text =>
      let s := { s with
        uploadInfo := s.uploadInfo.insert key text
        uploads := s.uploads ++ [⟨members.lookup "type", filename, text⟩] }
      if !r.dbOpen then (.raised, s)
      else
        let s := dbCall h s (.set key text)
        (.returned (.obj members), if env.dbSet then { s with db := s.db.insert key text } else s)

/-- The body of the loop behind `os.rename`. -/
def recordFile (r : Request) (env : Env) (s : Store ν) (members : List (String × Json))
    (filename url : String) : Outcome Json × Store ν :=
  match updateFileinfo h env s.disk filename url members with
  | none => (.raised, s)
  | some members =>
      match fKey (members.lookup "type") filename with
      | none => (.raised, s)
      | some key => storeRecord h r env s key filename members

def uploadFile (r : Request) (env : Env) (s : Store ν) (members : List (String × Json))
    (filename : String) (v : Attached) : Outcome Json × Store ν :=
  match filepath (members.lookup "type") with
  | none => (.raised, s)
  | some path =>
      let s := mkdir h s path
      match v.tmpName with
      | none => (.raised, s)
      | some tmpName =>
          let url := path ++ filename
          recordFile h r env (moveFile h s env (tmpRoot ++ tmpName) url) (locate members url)
            filename url

def turn (r : Request) (env : Env) (s : Store ν) (f : Json) : Outcome Json × Store ν :=
  match f, attachedTo r.form f with
  | _, none => (.raised, s)
  | .obj members, some (some (filename, v)) => uploadFile h r env s members filename v
  | _, some _ => (.returned f, s)

def loop (r : Request) : Nat → Store ν → List Json → Outcome (List Json) × Store ν
  | _, s, [] => (.returned [], s)
  | i, s, f :: fs =>
      match turn h r (r.env i) s f with
      | (.raised, s) => (.raised, s)
      | (.returned f, s) =>
          match loop r (i + 1) s fs with
          | (.raised, s) => (.raised, s)
          | (.returned fs, s) => (.returned (f :: fs), s)

def publishMessage (now : String) (shared : Shared) (tbl : Json) (sessionid : String) : Shared :=
  match h.cjson.encode (.obj [("data", tbl), ("timestamp", .num now)]) with
  | none => shared
  | some msg =>
      { shared with
        notifyMsgQueue := Function.update shared.notifyMsgQueue sessionid
          (shared.notifyMsgQueue sessionid ++ [msg]) }

def pushToClients (now : String) (shared : Shared) (f : Json) : Shared :=
  shared.clientTypes.keys.foldl (fun shared sessionid =>
    let type := (Json.index (some f) "type").getD none
    if Json.luaEq (shared.clientTypes.lookup sessionid) type then
      publishMessage h now shared f sessionid
    else shared) shared

def needPush (f : Json) : Bool := Json.truthy ((Json.index (some f) "need_push").getD none)

/-- The loop over `files_info`: `ipairs` finds nothing in an object, and raises on all but
tables. -/
def storeFiles (r : Request) (s : Store ν) : Outcome (List Json) × Store ν :=
  match r.form.filesInfo with
  | some (.arr fs) => loop h r 0 s fs
  | some (.obj _) => (.returned [], s)
  | _ => (.raised, s)

/-- The part of `run` in front of the loop. -/
def prepare (s : Store ν) (form : Form) : Store ν :=
  dbCall h (post h (mkdir h (mkdir h s tmpRoot) downloadRoot) form) .opened

/-- `run`, up to the response, which carries the entries. -/
def run (s : Store ν) (r : Request) : Outcome (List Json) × Store ν :=
  match storeFiles h r (prepare h s r.form) with
  | (.raised, s) => (.raised, s)
  | (.returned fs, s) =>
      if !r.dbOpen then (.raised, s)
      else
        let s := dbCall h s .closed
        let shared := (fs.filter needPush).foldl (pushToClients h r.now) s.shared
        (.returned fs, { s with shared })

def sampleUnqlite : DbCall → Disk String UInt8 → Disk String UInt8
  | .opened, disk => disk
  | .set _ text, disk => disk.append "upload.db" text
  | .closed, disk => disk

/-! ## What the parts of a turn do -/

section

variable {ν : Type} {h : Host ν} {env : Env} {disk : Disk ν UInt8} {filename url : String}
  {members updated : List (String × Json)}

theorem lookup_updateFileinfo {content : List UInt8}
    (hcontent : disk.file (h.canon url) = some content)
    (hupdate : updateFileinfo h env disk filename url members = some updated) :
    updated.lookup "md5" = some (.str (h.md5 content)) ∧
      updated.lookup "filesize" = some (.num (toString content.length)) := by
  have hset (zipInfo : Option Json) (hzip : updated = Json.setMember (Json.setMember
      (Json.setMember (Json.setMember members "md5" (some (.str (h.md5 content)))) "modify_time"
        (some (.num env.modification))) "filesize" (some (.num (toString content.length))))
      "zip_info" zipInfo) :
      updated.lookup "md5" = some (.str (h.md5 content)) ∧
        updated.lookup "filesize" = some (.num (toString content.length)) := by
    subst hzip
    simp [Json.lookup_setMember_of_ne]
  simp only [updateFileinfo, hcontent, Option.some_or, Option.map_some, Option.bind_eq_bind,
    Option.bind_some] at hupdate
  split at hupdate
  · obtain ⟨names, -, hnames⟩ := Option.bind_eq_some_iff.mp hupdate
    exact hset _ (Option.some.inj hnames).symm
  · exact hset none (Option.some.inj hupdate).symm

theorem lookup_updateFileinfo_of_ne {key : String}
    (hkey : key ∉ ["md5", "modify_time", "filesize", "zip_info"])
    (hupdate : updateFileinfo h env disk filename url members = some updated) :
    updated.lookup key = members.lookup key := by
  simp only [List.mem_cons, List.not_mem_nil, or_false, not_or] at hkey
  obtain ⟨hmd5, htime, hsize, hzip⟩ := hkey
  simp only [updateFileinfo, Option.bind_eq_bind] at hupdate
  obtain ⟨size, -, hupdate⟩ := Option.bind_eq_some_iff.mp hupdate
  split at hupdate
  · obtain ⟨names, -, hnames⟩ := Option.bind_eq_some_iff.mp hupdate
    obtain rfl := Option.some.inj hnames
    simp only [Json.lookup_setMember_of_ne hmd5, Json.lookup_setMember_of_ne htime,
      Json.lookup_setMember_of_ne hsize, Json.lookup_setMember_of_ne hzip]
  · obtain rfl := Option.some.inj hupdate
    simp only [Json.lookup_setMember_of_ne hmd5, Json.lookup_setMember_of_ne htime,
      Json.lookup_setMember_of_ne hsize, Json.lookup_setMember_of_ne hzip]

/-- Only the listing of an archive raises on a file. -/
theorem filelist_of_raised {content : List UInt8}
    (hcontent : disk.file (h.canon url) = some content)
    (hraised : updateFileinfo h env disk filename url members = none) :
    getExtension filename = some "zip" ∧ Zzlib.filelist content = none := by
  simp only [updateFileinfo, hcontent, Option.some_or, Option.map_some, Option.bind_eq_bind,
    Option.bind_some, decompress] at hraised
  split at hraised
  · rename_i hzip
    refine ⟨hzip, ?_⟩
    cases hlist : Zzlib.filelist content with
    | none => rfl
    | some names =>
        rw [hlist] at hraised
        cases hraised
  · cases hraised

/-- What is recorded without a file is a directory, and not of an archive. -/
theorem updateFileinfo_of_none (hnone : disk.file (h.canon url) = none)
    (hdir : env.directory = none ∨ getExtension filename = some "zip") :
    updateFileinfo h env disk filename url members = none := by
  simp only [updateFileinfo, hnone, decompress, Option.map_none, Option.none_or,
    Option.bind_eq_bind]
  cases hdirectory : env.directory with
  | none => rfl
  | some size =>
      obtain hdir | hzip := hdir
      · cases hdirectory.symm.trans hdir
      · rw [Option.bind_some, if_pos hzip]
        rfl

end

theorem lookup_locate_url (members : List (String × Json)) (url : String) :
    (locate members url).lookup "remotefile_url" = some (.str url) := by
  simp only [locate]
  split
  · exact Json.lookup_setMember_self _ _ _
  · rw [Json.lookup_setMember_of_ne (by decide), Json.lookup_setMember_self]

theorem lookup_locate_of_ne {key : String} (hkey : key ∉ ["remotefile_url", "save_path"])
    (members : List (String × Json)) (url : String) :
    (locate members url).lookup key = members.lookup key := by
  simp only [List.mem_cons, List.not_mem_nil, or_false, not_or] at hkey
  simp only [locate]
  split
  · exact Json.lookup_setMember_of_ne hkey.1 _
  · rw [Json.lookup_setMember_of_ne hkey.2, Json.lookup_setMember_of_ne hkey.1]

theorem storeRecord_snd {ν : Type} (h : Host ν) (r : Request) (env : Env) (s : Store ν)
    (key filename : String) (members : List (String × Json)) :
    (storeRecord h r env s key filename members).2.disk =
        (match h.cjson.encode (.obj members) with
        | none => s.disk
        | some text => if r.dbOpen then h.unqlite (.set key text) s.disk else s.disk) ∧
      (storeRecord h r env s key filename members).2.uploadInfo =
        match h.cjson.encode (.obj members) with
        | none => s.uploadInfo.erase key
        | some text => s.uploadInfo.insert key text := by
  unfold storeRecord
  cases h.cjson.encode (.obj members) with
  | none => exact ⟨rfl, rfl⟩
  | some text =>
      cases r.dbOpen with
      | false => exact ⟨rfl, rfl⟩
      | true =>
          cases env.dbSet with
          | false => exact ⟨rfl, rfl⟩
          | true => exact ⟨rfl, rfl⟩

/-- `recordFile` raises and changes nothing, or stores the record of the file. -/
inductive RecordStep {ν : Type} (h : Host ν) (r : Request) (env : Env) (s : Store ν)
    (members : List (String × Json)) (filename url : String) : Outcome Json × Store ν → Prop
  | raised (hraised : updateFileinfo h env s.disk filename url members = none ∨
      fKey (members.lookup "type") filename = none) :
      RecordStep h r env s members filename url (.raised, s)
  | stored {updated : List (String × Json)} {key : String}
      (hupdate : updateFileinfo h env s.disk filename url members = some updated)
      (hkey : fKey (members.lookup "type") filename = some key) :
      RecordStep h r env s members filename url (storeRecord h r env s key filename updated)

theorem recordStep_recordFile {ν : Type} (h : Host ν) (r : Request) (env : Env) (s : Store ν)
    (members : List (String × Json)) (filename url : String) :
    RecordStep h r env s members filename url (recordFile h r env s members filename url) := by
  unfold recordFile
  cases hupdate : updateFileinfo h env s.disk filename url members with
  | none => exact .raised (.inl hupdate)
  | some updated =>
      have htype : updated.lookup "type" = members.lookup "type" :=
        lookup_updateFileinfo_of_ne (by decide) hupdate
      dsimp only
      cases hkey : fKey (updated.lookup "type") filename with
      | none =>
          rw [htype] at hkey
          exact .raised (.inr hkey)
      | some key =>
          rw [htype] at hkey
          exact .stored hupdate hkey

def placed {ν : Type} [DecidableEq ν] (h : Host ν) (env : Env) (s : Store ν)
    (path tmpName filename : String) : Store ν :=
  moveFile h (mkdir h s path) env (tmpRoot ++ tmpName) (path ++ filename)

/-- What a turn does: nothing, a shell command and an error, or all up to the record. -/
inductive TurnCase {ν : Type} [DecidableEq ν] (h : Host ν) (r : Request) (env : Env) (s : Store ν)
    (f : Json) : Outcome Json × Store ν → Prop
  | nothing (outcome : Outcome Json) (hreturned : outcome = .raised ∨
      outcome = .returned f ∧ attachedTo r.form f = some none) : TurnCase h r env s f (outcome, s)
  | noFile {members : List (String × Json)} {filename path : String} {v : Attached}
      (hf : f = .obj members) (hattached : attachedTo r.form f = some (some (filename, v)))
      (hpath : filepath (members.lookup "type") = some path) (htmp : v.tmpName = none) :
      TurnCase h r env s f (.raised, mkdir h s path)
  | placed {members : List (String × Json)} {filename path tmpName : String} {v : Attached}
      (hf : f = .obj members) (hattached : attachedTo r.form f = some (some (filename, v)))
      (hpath : filepath (members.lookup "type") = some path) (htmp : v.tmpName = some tmpName) :
      TurnCase h r env s f (recordFile h r env (placed h env s path tmpName filename)
        (locate members (path ++ filename)) filename (path ++ filename))

theorem attachedTo_of_not_obj {form : Form} {f : Json} {a : Option (String × Attached)}
    (hobj : ∀ members, f ≠ .obj members) (hattached : attachedTo form f = some a) : a = none := by
  cases f with
  | obj members => exact absurd rfl (hobj members)
  | null => cases hattached
  | bool b => cases hattached
  | num text => cases hattached
  | str text =>
      obtain ⟨files, -, hnone⟩ := Option.bind_eq_some_iff.mp hattached
      exact (Option.some.inj hnone).symm
  | arr elements =>
      obtain ⟨files, -, hnone⟩ := Option.bind_eq_some_iff.mp hattached
      exact (Option.some.inj hnone).symm

theorem turn_cases {ν : Type} [DecidableEq ν] (h : Host ν) (r : Request) (env : Env) (s : Store ν)
    (f : Json) : TurnCase h r env s f (turn h r env s f) := by
  unfold turn
  split
  · exact .nothing _ (.inl rfl)
  · rename_i members filename v hattached
    unfold uploadFile
    cases hpath : filepath (members.lookup "type") with
    | none => exact .nothing _ (.inl rfl)
    | some path =>
        cases htmp : v.tmpName with
        | none => exact .noFile rfl hattached hpath htmp
        | some tmpName => exact .placed rfl hattached hpath htmp
  · rename_i attached hobj hattached
    refine .nothing _ (.inr ⟨rfl, ?_⟩)
    cases attached with
    | none => exact hattached
    | some found =>
        have hnone := attachedTo_of_not_obj
          (fun members hmembers => hobj members found.1 found.2 hmembers rfl) hattached
        cases hnone

/-! ## What a request that completes does -/

section

variable {ν : Type} [DecidableEq ν] {h : Host ν} {r : Request} {env : Env} {i : Nat}
  {s s' : Store ν} {f f' : Json} {fs fs' : List Json}

/-- A turn that returns leaves an entry without a file alone, or stores the record of the file:
in `upload_info`, and in `upload.db` if `db:set` works. -/
inductive Turned (h : Host ν) (r : Request) (env : Env) (s : Store ν) (f : Json) :
    Json → Store ν → Prop
  | skipped (hattached : attachedTo r.form f = some none) : Turned h r env s f f s
  | stored {members updated : List (String × Json)} {filename path tmpName key : String}
      {v : Attached} {text : List UInt8} (hf : f = .obj members)
      (hattached : attachedTo r.form f = some (some (filename, v)))
      (hpath : filepath (members.lookup "type") = some path) (htmp : v.tmpName = some tmpName)
      (hupdate : updateFileinfo h env (placed h env s path tmpName filename).disk filename
        (path ++ filename) (locate members (path ++ filename)) = some updated)
      (hkey : fKey (updated.lookup "type") filename = some key)
      (hencode : h.cjson.encode (.obj updated) = some text) :
      Turned h r env s f (.obj updated)
        { s with
          disk := h.unqlite (.set key text) (placed h env s path tmpName filename).disk
          uploadInfo := s.uploadInfo.insert key text
          db := if env.dbSet then s.db.insert key text else s.db
          uploads := s.uploads ++ [⟨updated.lookup "type", filename, text⟩] }

theorem placed_eq (s : Store ν) (env : Env) (path tmpName filename : String) :
    placed h env s path tmpName filename =
      { s with disk := (placed h env s path tmpName filename).disk } := by
  unfold placed moveFile
  cases env.renames <;> rfl

omit [DecidableEq ν] in
theorem storeRecord_returned {key filename : String} {members : List (String × Json)}
    (hstore : storeRecord h r env s key filename members = (.returned f, s')) :
    ∃ text, h.cjson.encode (.obj members) = some text ∧ f = .obj members ∧
      s' = { s with
        disk := h.unqlite (.set key text) s.disk
        uploadInfo := s.uploadInfo.insert key text
        db := if env.dbSet then s.db.insert key text else s.db
        uploads := s.uploads ++ [⟨members.lookup "type", filename, text⟩] } := by
  unfold storeRecord at hstore
  cases hencode : h.cjson.encode (.obj members) with
  | none => simp [hencode] at hstore
  | some text =>
      cases hopen : r.dbOpen with
      | false => simp [hencode, hopen] at hstore
      | true =>
          simp only [hencode, hopen, Bool.not_true, Bool.false_eq_true, if_false, Prod.mk.injEq,
            Outcome.returned.injEq] at hstore
          obtain ⟨rfl, rfl⟩ := hstore
          refine ⟨text, rfl, rfl, ?_⟩
          cases env.dbSet <;> rfl

theorem turned_of_turn (hturn : turn h r env s f = (.returned f', s')) :
    Turned h r env s f f' s' := by
  have hcase := turn_cases h r env s f
  rw [hturn] at hcase
  generalize hresult : (Outcome.returned f', s') = result at hcase
  cases hcase with
  | nothing outcome hreturned =>
      obtain ⟨rfl, rfl⟩ := Prod.mk.inj hresult
      obtain hraised | ⟨hf, hattached⟩ := hreturned
      · cases hraised
      · obtain rfl := Outcome.returned.inj hf
        exact .skipped hattached
  | noFile _ _ _ _ => cases (Prod.mk.inj hresult).1
  | @placed members filename path tmpName v hf hattached hpath htmp =>
      have hstep := recordStep_recordFile h r env (placed h env s path tmpName filename)
        (locate members (path ++ filename)) filename (path ++ filename)
      rw [← hresult] at hstep
      generalize hrecorded : (Outcome.returned f', s') = recorded at hstep
      cases hstep with
      | raised _ => cases (Prod.mk.inj hrecorded).1
      | @stored updated key hupdate hkey =>
          rw [← lookup_updateFileinfo_of_ne (by decide) hupdate] at hkey
          obtain ⟨text, hencode, rfl, rfl⟩ := storeRecord_returned hrecorded.symm
          have hstored := Turned.stored (s := s) hf hattached hpath htmp hupdate hkey hencode
          rw [placed_eq]
          exact hstored

theorem loop_returned_cons (hloop : loop h r i s (f :: fs) = (.returned fs', s')) :
    ∃ f₁ fs₁ s₁, fs' = f₁ :: fs₁ ∧ turn h r (r.env i) s f = (.returned f₁, s₁) ∧
      loop h r (i + 1) s₁ fs = (.returned fs₁, s') := by
  rw [loop] at hloop
  cases hturn : turn h r (r.env i) s f with
  | mk outcome s₁ =>
      cases outcome with
      | raised => simp [hturn] at hloop
      | returned f₁ =>
          cases hrest : loop h r (i + 1) s₁ fs with
          | mk outcome s₂ =>
              cases outcome with
              | raised => simp [hturn, hrest] at hloop
              | returned fs₁ =>
                  simp only [hturn, hrest, Prod.mk.injEq, Outcome.returned.injEq] at hloop
                  obtain ⟨rfl, rfl⟩ := hloop
                  exact ⟨f₁, fs₁, s₁, rfl, rfl, hrest⟩

end

/-! ## Invariants of a request -/

section

variable {ν : Type} [DecidableEq ν] {h : Host ν} {r : Request} {I : Store ν → Prop}

/-- What every turn under a guard keeps, also when it raises; `G` is the guard of the turns that
are left. -/
theorem loop_invariant {G : Nat → Store ν → List Json → Prop}
    (hturn : ∀ i s f fs, I s → G i s (f :: fs) → I (turn h r (r.env i) s f).2)
    (hrest : ∀ i s f fs f' s', G i s (f :: fs) → turn h r (r.env i) s f = (.returned f', s') →
      G (i + 1) s' fs) {i : Nat} {s : Store ν} {fs : List Json} (hs : I s) (hguard : G i s fs) :
    I (loop h r i s fs).2 := by
  induction fs generalizing i s with
  | nil => exact hs
  | cons f fs ih =>
      have hnext := hturn i s f fs hs hguard
      have hguards := hrest i s f fs
      rw [loop]
      generalize turn h r (r.env i) s f = result at hnext hguards
      obtain ⟨outcome, s'⟩ := result
      cases outcome with
      | raised => exact hnext
      | returned f' =>
          have hloop := ih hnext (hguards f' s' hguard rfl)
          dsimp only
          generalize loop h r (i + 1) s' fs = result at hloop ⊢
          obtain ⟨outcome, s''⟩ := result
          cases outcome with
          | raised => exact hloop
          | returned fs' => exact hloop

/-- What the loop keeps, if it does not depend on the dictionaries of the stream server. -/
theorem invariant_of_loop {s : Store ν} (hshared : ∀ s shared, I s → I { s with shared := shared })
    (hprepare : I (prepare h s r.form))
    (hloop : ∀ fs, r.form.filesInfo = some (.arr fs) → I (loop h r 0 (prepare h s r.form) fs).2)
    (hclosed : ∀ fs s', storeFiles h r (prepare h s r.form) = (.returned fs, s') → I s' →
      I (dbCall h s' .closed)) : I (run h s r).2 := by
  have hfiles : I (storeFiles h r (prepare h s r.form)).2 := by
    unfold storeFiles
    split
    · rename_i fs hfs
      exact hloop fs hfs
    · exact hprepare
    · exact hprepare
  unfold run
  generalize storeFiles h r (prepare h s r.form) = result at hfiles hclosed ⊢
  obtain ⟨outcome, s'⟩ := result
  cases outcome with
  | raised => exact hfiles
  | returned fs =>
      dsimp only
      split
      · exact hfiles
      · exact hshared _ _ (hclosed fs s' rfl hfiles)

end

end ServiceUpload

end CloudEdgePush.Server
