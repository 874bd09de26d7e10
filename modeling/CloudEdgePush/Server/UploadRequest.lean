import CloudEdgePush.Server.MultipartForm
import CloudEdgePush.Server.UploadPush

/-!
# The body of an upload request

`service_upload.lua` on the form that `resty.post` makes of a body: the files of the body are the
attached files of the form, and every file that an entry of `files_info` names is moved to its
place, unless the shell or the database touch it.
-/

namespace CloudEdgePush.Server.UploadRequest

open CloudEdgePush.Lib CloudEdgePush.Lib.LuaPattern ServiceUpload
open RestyPost (Decoded PartStep Sent lookup_insert lookup_replace)
open ServicePushfile (entries)

/-! ## The form -/

/-- A Lua string, one character for each byte. -/
def str (s : List UInt8) : String := String.ofList (s.map fun b => Char.ofNat b.toNat)

theorem str_injective : Function.Injective str := by
  have hchar : ∀ n < 256, (Char.ofNat n).toNat = n := by decide +kernel
  have hbyte : Function.Injective fun b : UInt8 => Char.ofNat b.toNat := by
    intro a b hab
    have hnat := congrArg Char.toNat hab
    rw [hchar _ a.toNat_lt, hchar _ b.toNat_lt] at hnat
    exact UInt8.toNat_inj.mp hnat
  intro s t hst
  exact List.map_injective_iff.mpr hbyte (String.ofList_injective hst)

variable {τ : Type} (cjson : Cjson) (trim : List UInt8 → List UInt8)

/-- `cjson.decode(util.trim(m.files_info))`. -/
def filesInfo (field : Option (RestyPost.Field τ)) : Option Json :=
  match field with
  | some (.str value) => cjson.decode (trim value)
  | _ => none

/-- `m.files[key]`, when the file in this place has this name. -/
def attachedFile (tmpName : Nat → Option (List UInt8)) : RestyPost.Attached → Attached
  | .one file => ⟨(tmpName file).map str⟩
  | .many _ => ⟨none⟩

def formOf (st : RestyPost.Multi τ) : ServiceUpload.Form where
  written := st.saved.map fun s => (str s.tmpName, s.content)
  files := some (st.attached.map fun e =>
    (str e.1, attachedFile (fun file => (st.saved[file]?).map (·.tmpName)) e.2))
  positional := st.positional.length
  filesInfo := filesInfo cjson trim (st.fields.lookup (text "files_info"))

/-- The entries that the parts bring: those of the only field `files_info` behind empty ones. -/
def sentInfo (parts : List RestyPost.Part) : Option Json :=
  match (RestyPost.contents parts (text "files_info")).dropWhile (· = []) with
  | [value] => cjson.decode (trim value)
  | _ => none

theorem filesInfo_fieldOf (parts : List RestyPost.Part) :
    filesInfo cjson trim (RestyPost.fieldOf (RestyPost.contents parts (text "files_info")) :
      Option (RestyPost.Field τ)) = sentInfo cjson trim parts := by
  unfold RestyPost.fieldOf sentInfo
  cases (RestyPost.contents parts (text "files_info")).dropWhile (· = []) with
  | nil => rfl
  | cons value values =>
      cases values with
      | nil => rfl
      | cons second values => rfl

def positionalOf (parts : List RestyPost.Part) : Nat :=
  ((RestyPost.contents parts (text "files")).filter (· ≠ [])).length

def partsOf (env : RestyPost.Env τ) (parts : List RestyPost.Part) : List Part :=
  (RestyPost.uploads parts).mapIdx fun i p => ⟨str p.name, str (env.tmpName i), p.content⟩

variable {env : RestyPost.Env τ}

theorem lookup_map_str {β γ : Type} (t : List (List UInt8 × β)) (g : β → γ) (key : List UInt8) :
    (t.map fun e => (str e.1, g e.2)).lookup (str key) = (t.lookup key).map g := by
  induction t with
  | nil => rfl
  | cons e t ih =>
      rw [List.map_cons, List.lookup_cons, List.lookup_cons, ih]
      by_cases hkey : key = e.1
      · simp [hkey]
      · have hstr : (str key == str e.1) = false :=
          beq_eq_false_iff_ne.mpr fun h => hkey (str_injective h)
        have hne : (key == e.1) = false := beq_eq_false_iff_ne.mpr hkey
        rw [hstr, hne]

theorem map_attach (t : List (List UInt8 × RestyPost.Attached)) (key : List UInt8) (file : Nat)
    (content : List UInt8) :
    (RestyPost.insert t key (RestyPost.Multi.attach (t.lookup key) file)).map
        (fun e => (str e.1, attachedFile (some ∘ env.tmpName) e.2)) =
      addFile (t.map fun e => (str e.1, attachedFile (some ∘ env.tmpName) e.2))
        ⟨str key, str (env.tmpName file), content⟩ := by
  unfold RestyPost.insert addFile
  rw [lookup_map_str]
  cases hlookup : t.lookup key with
  | none =>
      rw [if_neg (by simp), List.map_append]
      rfl
  | some attached =>
      have hmany : attachedFile (some ∘ env.tmpName)
          (RestyPost.Multi.attach (some attached) file) = ⟨none⟩ := by
        cases attached with
        | one first => rfl
        | many files => rfl
      rw [if_pos Option.isSome_some, List.map_map, Option.map_some, List.map_map]
      refine List.map_congr_left fun e _ => ?_
      by_cases hkey : e.1 = key
      · simp [hkey, hmany]
      · have hstr : str e.1 ≠ str key := fun h => hkey (str_injective h)
        simp [hkey, hstr]

theorem mem_insert {β : Type} {t : List (List UInt8 × β)} {key : List UInt8} {v : β}
    {e : List UInt8 × β} (he : e ∈ RestyPost.insert t key v) : e ∈ t ∨ e = (key, v) := by
  unfold RestyPost.insert at he
  split at he
  · obtain ⟨old, hold, rfl⟩ := List.mem_map.mp he
    split
    · rename_i hkey
      exact .inr (by rw [hkey])
    · exact .inl hold
  · rcases List.mem_append.mp he with hmem | hlast
    · exact .inl hmem
    · exact .inr (List.mem_singleton.mp hlast)

structure Attaches (env : RestyPost.Env τ) (parts : List RestyPost.Part)
    (st : RestyPost.Multi τ) : Prop where
  decoded : Decoded env parts st
  places : ∀ e ∈ st.attached, ∀ file, e.2 = .one file → file < st.named
  files : st.attached.map (fun e => (str e.1, attachedFile (some ∘ env.tmpName) e.2)) =
    (partsOf env parts).foldl addFile []

theorem attaches_step {parts : List RestyPost.Part} {p : RestyPost.Part}
    {st st' : RestyPost.Multi τ} (hst : Attaches env parts st) (hstep : PartStep env p st st') :
    Attaches env (parts ++ [p]) st' := by
  refine ⟨RestyPost.decoded_step hst.decoded hstep, ?_, ?_⟩
  · cases hstep with
    | @file filename hfilename =>
        intro e he file hfile
        show file < st.named + 1
        have hsaved : st.saved.length = st.named := by
          rw [hst.decoded.saved, List.length_mapIdx, hst.decoded.named]
        rcases mem_insert he with hmem | rfl
        · exact (hst.places e hmem file hfile).trans (Nat.lt_succ_self _)
        · dsimp only at hfile
          cases hlookup : st.attached.lookup p.name with
          | none =>
              rw [hlookup] at hfile
              obtain rfl := RestyPost.Attached.one.inj hfile
              omega
          | some attached =>
              rw [hlookup] at hfile
              cases attached with
              | one first => cases hfile
              | many files => cases hfile
    | field hfilename hfields hpositional => exact hst.places
  · have huploads := RestyPost.uploads_concat parts p
    cases hstep with
    | @file filename hfilename =>
        rw [hfilename, Option.isSome_some, if_pos rfl] at huploads
        have hsaved : st.saved.length = (RestyPost.uploads parts).length := by
          rw [hst.decoded.saved, List.length_mapIdx]
        rw [partsOf, huploads, List.mapIdx_concat, List.foldl_append, ← partsOf, ← hst.files]
        refine (map_attach st.attached p.name st.saved.length p.content).trans ?_
        rw [hsaved]
        rfl
    | field hfilename hfields hpositional =>
        rw [hfilename, Option.isSome_none, if_neg Bool.false_ne_true, List.append_nil] at huploads
        rw [partsOf, huploads]
        exact hst.files

theorem attaches_empty (env : RestyPost.Env τ) : Attaches env [] (RestyPost.Multi.empty τ) where
  decoded := RestyPost.decoded_empty
  places _ he := by cases he
  files := rfl

theorem formOf_attaches {parts : List RestyPost.Part} {st : RestyPost.Multi τ}
    (hst : Attaches env parts st) :
    formOf cjson trim st = ServiceUpload.multipart (partsOf env parts) (positionalOf parts)
      (sentInfo cjson trim parts) := by
  have hsaved := hst.decoded.saved
  unfold formOf ServiceUpload.multipart
  rw [hst.decoded.fields _ (by decide), filesInfo_fieldOf, hst.decoded.positional, ← hst.files]
  congr 1
  · rw [hsaved, partsOf]
    refine List.ext_getElem? fun i => ?_
    simp only [List.getElem?_map, List.getElem?_mapIdx, Option.map_map]
    rfl
  · congr 1
    refine List.map_congr_left fun e he => ?_
    cases hattached : e.2 with
    | many files => rfl
    | one file =>
        have hlt := hst.places e he file hattached
        rw [hst.decoded.named] at hlt
        simp [attachedFile, hsaved, hlt]
        rfl

/-! ## The files on the disk -/

theorem lookup_addFile (files : List (String × Attached)) (part : Part) (key : String) :
    (addFile files part).lookup key =
      if key = part.key then some ⟨if (files.lookup key).isSome then none else some part.tmpName⟩
      else files.lookup key := by
  unfold addFile
  cases hlookup : files.lookup part.key with
  | none =>
      dsimp only
      rw [List.lookup_append]
      by_cases hkey : key = part.key
      · simp [hkey, hlookup]
      · have hne : (key == part.key) = false := beq_eq_false_iff_ne.mpr hkey
        simp [hkey, List.lookup_cons, hne]
  | some v =>
      dsimp only
      rw [lookup_replace, hlookup]
      by_cases hkey : key = part.key
      · simp [hkey, hlookup]
      · simp [hkey]

def attachedAs : List Part → Option Attached
  | [] => none
  | [part] => some ⟨some part.tmpName⟩
  | _ => some ⟨none⟩

theorem attachedAs_concat (parts : List Part) (part : Part) :
    attachedAs (parts ++ [part]) =
      some ⟨if (attachedAs parts).isSome then none else some part.tmpName⟩ := by
  match parts with
  | [] => rfl
  | [first] => rfl
  | first :: second :: rest => rfl

theorem lookup_foldl_addFile (parts : List Part) (key : String) :
    (parts.foldl addFile []).lookup key = attachedAs (parts.filter (·.key = key)) := by
  induction parts using List.reverseRecOn with
  | nil => rfl
  | append_singleton parts part ih =>
      rw [List.foldl_append, List.foldl_cons, List.foldl_nil, lookup_addFile, ih, List.filter_append]
      by_cases hkey : key = part.key
      · simp [hkey, attachedAs_concat]
      · simp [hkey, Ne.symm hkey]

section Disk

variable {ν : Type} [DecidableEq ν] (h : Host ν)

def moveOf (form : ServiceUpload.Form) (f : Json) : Option (String × String) :=
  match f, attachedTo form f with
  | .obj members, some (some (filename, v)) => do
      let path ← filepath (members.lookup "type")
      let tmpName ← v.tmpName
      return (tmpRoot ++ tmpName, path ++ filename)
  | _, _ => none

def moves (form : ServiceUpload.Form) (fs : List Json) : List (ν × ν) :=
  (fs.filterMap (moveOf form)).map (Prod.map h.canon h.canon)

def ownFiles (form : ServiceUpload.Form) (fs : List Json) : Set ν :=
  {n | n ∈ form.written.map (fun file => h.canon (tmpRoot ++ file.1)) ∨
    n ∈ (moves h form fs).flatMap fun move => [move.1, move.2]}

/-- The database and the shell commands of the entries leave the files of the request alone. -/
structure KeepsOff (form : ServiceUpload.Form) (fs : List Json) : Prop where
  mkdir : ∀ members file path, Json.obj members ∈ fs →
    attachedTo form (.obj members) = some (some file) → filepath (members.lookup "type") = some path →
      Disk.Leaves (ownFiles h form fs) (h.execute ("mkdir -p " ++ path))
  unqlite : ∀ call, Disk.Leaves (ownFiles h form fs) (h.unqlite call)

variable {h} {r : Request} {env : Env} {s s' : Store ν} {f f' : Json} {fs fs' : List Json}

omit [DecidableEq ν] in
theorem mem_ownFiles {form : ServiceUpload.Form} {move : ν × ν} (hmove : move ∈ moves h form fs) :
    move.1 ∈ ownFiles h form fs :=
  .inr (List.mem_flatMap.mpr ⟨move, hmove, List.mem_cons_self⟩)

theorem disk_of_turned {all : List Json} (hkeeps : KeepsOff h r.form all) (hf : f ∈ all)
    (hturned : Turned h r env s f f' s') (hrenames : env.renames = true) :
    Set.EqOn s'.disk.file (s.disk.renames (moves h r.form [f])).file (ownFiles h r.form all) := by
  cases hturned with
  | skipped hattached =>
      have hnone : moveOf r.form f = none := by
        unfold moveOf
        rw [hattached]
        split
        · rename_i hsome
          cases hsome
        · rfl
      rw [moves, List.filterMap_cons, hnone]
      exact Set.eqOn_refl _ _
  | @stored members updated filename path tmpName key v text hobj hattached hpath htmp =>
      subst hobj
      have hmove : moveOf r.form (.obj members) = some (tmpRoot ++ tmpName, path ++ filename) := by
        unfold moveOf
        rw [hattached]
        simp [hpath, htmp]
      have hown : h.canon (tmpRoot ++ tmpName) ∈ ownFiles h r.form all :=
        mem_ownFiles (List.mem_map.mpr ⟨_, List.mem_filterMap.mpr ⟨_, hf, hmove⟩, rfl⟩)
      have hmade := hkeeps.mkdir members _ path hf hattached hpath s.disk
      have hset := hkeeps.unqlite (.set key text) (placed h env s path tmpName filename).disk
      rw [moves, List.filterMap_cons, hmove]
      refine hset.trans ?_
      rw [placed, moveFile, if_pos hrenames]
      exact Disk.eqOn_rename hown hmade

theorem disk_of_loop {all : List Json} (hkeeps : KeepsOff h r.form all) (hsub : fs ⊆ all) {i : Nat}
    (hloop : loop h r i s fs = (.returned fs', s')) (hrenames : ∀ i, (r.env i).renames = true) :
    Set.EqOn s'.disk.file (s.disk.renames (moves h r.form fs)).file (ownFiles h r.form all) := by
  induction fs generalizing i s fs' with
  | nil =>
      obtain ⟨-, rfl⟩ := Prod.mk.inj hloop
      exact Set.eqOn_refl _ _
  | cons f fs ih =>
      obtain ⟨hf, hrest⟩ := List.cons_subset.mp hsub
      obtain ⟨f₁, fs₁, s₁, -, hturn, hloop⟩ := loop_returned_cons hloop
      have hfirst := disk_of_turned hkeeps hf (turned_of_turn hturn) (hrenames i)
      have hmoves : moves h r.form (f :: fs) = moves h r.form [f] ++ moves h r.form fs := by
        rw [moves, moves, moves, ← List.map_append, ← List.filterMap_append]
        rfl
      have hown : ∀ move ∈ moves h r.form fs, move.1 ∈ ownFiles h r.form all := by
        intro move hmove
        exact mem_ownFiles (List.map_subset _ (List.filterMap_subset _ hrest) hmove)
      refine (ih hrest hloop).trans ?_
      rw [hmoves, Disk.renames_append]
      exact Disk.eqOn_renames hown hfirst

theorem disk_post (s : Store ν) (form : ServiceUpload.Form) :
    (post h s form).disk = s.disk.writes
      (form.written.map fun file => (h.canon (tmpRoot ++ file.1), file.2)) := by
  rw [Disk.writes, List.foldl_map]
  rfl

structure Apart (h : Host ν) (form : ServiceUpload.Form) (fs : List Json) : Prop where
  written : (form.written.map fun file => h.canon (tmpRoot ++ file.1)).Nodup
  moves : ((moves h form fs).flatMap fun move => [move.1, move.2]).Nodup

theorem stored_of_run {parts : List Part} {positional : Nat} {part : Part}
    {members : List (String × Json)} {path : String}
    (hform : r.form = ServiceUpload.multipart parts positional (some (.arr fs)))
    (hrun : run h s r = (.returned fs', s')) (hrenames : ∀ i, (r.env i).renames = true)
    (hapart : Apart h r.form fs) (hkeeps : KeepsOff h r.form fs) (hentry : Json.obj members ∈ fs)
    (hfilename : members.lookup "filename" = some (.str part.key))
    (hpath : filepath (members.lookup "type") = some path)
    (honly : parts.filter (·.key = part.key) = [part]) :
    s'.disk.file (h.canon (path ++ part.key)) = some part.content := by
  have hattached : attachedTo r.form (.obj members) =
      some (some (part.key, ⟨some part.tmpName⟩)) := by
    have hlookup := lookup_foldl_addFile parts part.key
    rw [honly] at hlookup
    simp [hform, attachedTo, Json.index, hfilename, ServiceUpload.multipart, hlookup, attachedAs]
  have hmove : moveOf r.form (.obj members) =
      some (tmpRoot ++ part.tmpName, path ++ part.key) := by
    unfold moveOf
    rw [hattached]
    simp [hpath]
  have hmem : (h.canon (tmpRoot ++ part.tmpName), h.canon (path ++ part.key)) ∈ moves h r.form fs :=
    List.mem_map.mpr ⟨_, List.mem_filterMap.mpr ⟨_, hentry, hmove⟩, rfl⟩
  have hsource := mem_ownFiles hmem
  have htarget : h.canon (path ++ part.key) ∈ ownFiles h r.form fs :=
    .inr (List.mem_flatMap.mpr ⟨_, hmem, by simp⟩)
  -- the temporary file, behind `unqlite.open`
  have hwritten : (prepare h s r.form).disk.file (h.canon (tmpRoot ++ part.tmpName)) =
      some part.content := by
    refine (hkeeps.unqlite .opened _ hsource).trans ?_
    rw [disk_post]
    have hpart : part ∈ parts := by
      have hfilter : part ∈ parts.filter (·.key = part.key) := by
        rw [honly]
        exact List.mem_singleton_self part
      exact List.mem_of_mem_filter hfilter
    have hfile : (part.tmpName, part.content) ∈ r.form.written := by
      rw [hform]
      exact List.mem_map.mpr ⟨part, hpart, rfl⟩
    have hnames := hapart.written
    refine Disk.writes_of_mem ?_ (List.mem_map.mpr ⟨_, hfile, rfl⟩)
    rwa [List.map_map]
  obtain ⟨stored, hloop, rfl⟩ := returned_of_run hrun
  have hinfo : entries r.form.filesInfo = fs := by
    rw [hform]
    rfl
  rw [hinfo] at hloop
  calc (h.unqlite .closed stored.disk).file (h.canon (path ++ part.key))
    _ = stored.disk.file (h.canon (path ++ part.key)) := hkeeps.unqlite .closed _ htarget
    _ = ((prepare h s r.form).disk.renames (moves h r.form fs)).file (h.canon (path ++ part.key)) :=
        disk_of_loop hkeeps (List.Subset.refl fs) hloop hrenames htarget
    _ = some part.content := Disk.renames_target hapart.moves hmem hwritten

end Disk

/-! ## From the body to the disk -/

section Body

variable {cut : RestyUpload.Cut} {parts : List RestyPost.Part} {boundary : List UInt8} {size : Nat}
  {contentType : Option (List UInt8)}

theorem attaches_of_sent (cut : RestyUpload.Cut) (env : RestyPost.Env τ)
    (hsent : Sent contentType size boundary parts)
    (hopens : ∀ n, env.opens n = true) (hplain : ∀ p ∈ parts, p.Plain) :
    ∃ st, RestyPost.multipart cut env contentType
        ⟨RestyPost.formBytes boundary parts, "closed"⟩ size = some (.form, st) ∧
      Attaches env parts st := by
  obtain ⟨st, htakes, hst⟩ := RestyPost.takes_parts hopens hsent.sound hplain
    (attaches_empty env) fun _ _ _ _ hst hstep => attaches_step hst hstep
  exact ⟨st, RestyPost.multipart_takes hsent htakes, hst⟩

theorem only_partsOf (env : RestyPost.Env τ) {p : RestyPost.Part}
    (honly : (RestyPost.uploads parts).filter (·.name = p.name) = [p]) :
    ∃ part, part.key = str p.name ∧ part.content = p.content ∧
      (partsOf env parts).filter (·.key = part.key) = [part] := by
  have hplaces : ((RestyPost.uploads parts).zipIdx.filter fun e => e.1.name = p.name).map Prod.fst =
      [p] := by
    rw [← honly, ← List.zipIdx_map_fst 0 (RestyPost.uploads parts), List.filter_map,
      List.zipIdx_map_fst]
    rfl
  obtain ⟨⟨q, i⟩, hplace, hq⟩ := List.map_eq_singleton_iff.mp hplaces
  obtain rfl : q = p := hq
  refine ⟨⟨str q.name, str (env.tmpName i), q.content⟩, rfl, rfl, ?_⟩
  have hkeys : (fun e : RestyPost.Part × Nat => decide (e.1.name = q.name)) =
      fun e => decide (str e.1.name = str q.name) := by
    funext e
    exact decide_eq_decide.mpr str_injective.eq_iff.symm
  rw [partsOf, List.mapIdx_eq_zipIdx_map, List.filter_map]
  rw [hkeys] at hplace
  exact congrArg (List.map _) hplace

/-- The service gets the form that it expects. -/
theorem form_of_body (cut : RestyUpload.Cut) (env : RestyPost.Env τ)
    (hsent : Sent contentType size boundary parts)
    (hopens : ∀ n, env.opens n = true) (hplain : ∀ p ∈ parts, p.Plain) :
    ∃ st, RestyPost.multipart cut env contentType
        ⟨RestyPost.formBytes boundary parts, "closed"⟩ size = some (.form, st) ∧
      formOf cjson trim st = ServiceUpload.multipart (partsOf env parts) (positionalOf parts)
        (sentInfo cjson trim parts) := by
  obtain ⟨st, hread, hst⟩ := attaches_of_sent cut env hsent hopens hplain
  exact ⟨st, hread, formOf_attaches cjson trim hst⟩

/-- A file that comes in a body, alone under its name, ends at the place that its entry says. -/
theorem stored_of_body {ν : Type} [DecidableEq ν] (cut : RestyUpload.Cut)
    (env : RestyPost.Env τ) (h : Host ν)
    (hsent : Sent contentType size boundary parts) (hopens : ∀ n, env.opens n = true)
    (hplain : ∀ p ∈ parts, p.Plain) {fs : List Json}
    (hinfo : sentInfo h.cjson trim parts = some (.arr fs)) :
    ∃ st, RestyPost.multipart cut env contentType
        ⟨RestyPost.formBytes boundary parts, "closed"⟩ size = some (.form, st) ∧
      ∀ (s : Store ν) (r : Request) (fs' : List Json) (s' : Store ν),
        r.form = formOf h.cjson trim st → run h s r = (.returned fs', s') →
        (∀ i, (r.env i).renames = true) → Apart h r.form fs → KeepsOff h r.form fs →
        ∀ (p : RestyPost.Part) (members : List (String × Json)) (path : String),
          (RestyPost.uploads parts).filter (·.name = p.name) = [p] → Json.obj members ∈ fs →
          members.lookup "filename" = some (.str (str p.name)) →
          filepath (members.lookup "type") = some path →
          s'.disk.file (h.canon (path ++ str p.name)) = some p.content := by
  obtain ⟨st, hread, hst⟩ := attaches_of_sent cut env hsent hopens hplain
  refine ⟨st, hread, ?_⟩
  intro s r fs' s' hform hrun hrenames hapart hkeeps p members path honly hentry hfilename hpath
  rw [formOf_attaches h.cjson trim hst, hinfo] at hform
  obtain ⟨part, hkey, hcontent, honly⟩ := only_partsOf env honly
  rw [← hkey] at hfilename ⊢
  rw [← hcontent]
  exact stored_of_run hform hrun hrenames hapart hkeeps hentry hfilename hpath honly

end Body

/-! ## A body with one file -/

namespace Sample

def infoText : List UInt8 := sampleText "[" ++ Push.entryText ++ sampleText "]"

def host : Host String :=
  { Push.host with
    cjson := { Push.cjson with
      decode := fun s => if s = infoText then some (.arr [.obj Push.entry]) else Push.cjson.decode s } }

def parts : List RestyPost.Part :=
  [⟨text "files_info", none, none, infoText⟩, ⟨text "a", some (text "a.so"), none, [0x61]⟩]

def form : ServiceUpload.Form :=
  ServiceUpload.multipart (partsOf RestyPost.sampleEnv parts) 0 (some (.arr [.obj Push.entry]))

def request (form : ServiceUpload.Form) : Request where
  form := form
  dbOpen := true
  env _ := ⟨true, none, "1700000000", true⟩
  now := "1700000000000"

theorem sent : Sent RestyPost.Sample.contentType 3 RestyPost.Sample.boundary parts where
  header := by decide +kernel
  size := by decide
  cr := by decide
  nonempty := List.cons_ne_nil _ _
  sound := by decide +kernel

theorem plain : ∀ p ∈ parts, p.Plain := by decide +kernel

theorem sentInfo_parts : sentInfo host.cjson id parts = some (.arr [.obj Push.entry]) := by
  have hcontents : RestyPost.contents parts (text "files_info") = [infoText] := by decide +kernel
  have hdrop : [infoText].dropWhile (· = []) = [infoText] := by decide +kernel
  unfold sentInfo
  rw [hcontents, hdrop]
  show (if infoText = infoText then some (Json.arr [.obj Push.entry])
    else Push.cjson.decode infoText) = _
  exact if_pos rfl

theorem keepsOff : KeepsOff host form [.obj Push.entry] where
  mkdir _ _ _ _ _ _ disk := Set.eqOn_refl _ _
  unqlite call disk := by
    cases call with
    | opened => exact Set.eqOn_refl _ _
    | set key text =>
        have hdb : ¬("upload.db" ∈ form.written.map (fun file => host.canon (tmpRoot ++ file.1)) ∨
            "upload.db" ∈ (moves host form [.obj Push.entry]).flatMap
              fun move => [move.1, move.2]) := by
          decide +kernel
        intro n hn
        apply Disk.append_of_ne
        rintro rfl
        exact hdb hn
    | closed => exact Set.eqOn_refl _ _

theorem run_form : ∃ fs' s', run host Push.store (request form) = (.returned fs', s') := by
  have hdone : Outcome.casesOn (run host Push.store (request form)).1 (fun _ => true) false =
      true := by decide +kernel
  cases hrun : run host Push.store (request form) with
  | mk outcome s' =>
      cases outcome with
      | raised => simp [hrun] at hdone
      | returned fs' => exact ⟨fs', s', rfl⟩

end Sample

open Sample in
theorem form_of_body_sample : ∃ st, RestyPost.multipart RestyUpload.Cut.exact RestyPost.sampleEnv
      RestyPost.Sample.contentType
      ⟨RestyPost.formBytes RestyPost.Sample.boundary parts, "closed"⟩ 3 = some (.form, st) ∧
    formOf host.cjson id st = form := by
  obtain ⟨st, hread, hform⟩ := form_of_body host.cjson id RestyUpload.Cut.exact
    RestyPost.sampleEnv sent (fun _ => rfl) plain
  refine ⟨st, hread, ?_⟩
  rw [hform, sentInfo_parts]
  rfl

open Sample in
theorem stored_of_body_sample : ∃ fs' s',
    run host Push.store (request form) = (.returned fs', s') ∧
      s'.disk.file "download/t/a" = some [0x61] := by
  obtain ⟨st, hread, hstored⟩ := stored_of_body id RestyUpload.Cut.exact RestyPost.sampleEnv host
    sent (fun _ => rfl) plain sentInfo_parts
  obtain ⟨st', hread', hst'⟩ :=
    attaches_of_sent RestyUpload.Cut.exact RestyPost.sampleEnv sent (fun _ => rfl) plain
  obtain rfl : st = st' := (Prod.mk.inj (Option.some.inj (hread.symm.trans hread'))).2
  have hform : form = formOf host.cjson id st := by
    rw [formOf_attaches host.cjson id hst', sentInfo_parts]
    rfl
  obtain ⟨fs', s', hrun⟩ := run_form
  refine ⟨fs', s', hrun, ?_⟩
  have hname : str (text "a") = "a" := by decide +kernel
  have hfile := hstored Push.store (request form) fs' s' hform hrun (fun _ => rfl)
    ⟨by decide +kernel, by decide +kernel⟩ keepsOff
    ⟨text "a", some (text "a.so"), none, [0x61]⟩ Push.entry "download/t/" (by decide +kernel)
    List.mem_cons_self (by rw [hname]; rfl) (by decide +kernel)
  rwa [hname] at hfile

end CloudEdgePush.Server.UploadRequest
