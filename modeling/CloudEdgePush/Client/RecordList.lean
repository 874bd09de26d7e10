import CloudEdgePush.Lib.ReplaceFirst
import CloudEdgePush.Client.Records

/-!
# What an update does to the other records

`updateFileInfos` replaces the first record that matches by md5 or by filename and type.  With
two keys a match by one of them can hide a record that matches by the other (`unique_iff`), and a
match by md5 can be the record of another file (`others_kept_iff`).
-/

namespace CloudEdgePush.Client.SysUpdateHandler

open CloudEdgePush.Lib CloudEdgePush.Lib.Transition

theorem putRecord_eq (t : FileInfo) (fileInfoVec : List FileInfo) :
    putRecord t fileInfoVec = replaceFirst (sameRecord t) t fileInfoVec := by
  induction fileInfoVec with
  | nil => rfl
  | cons f rest ih => rw [putRecord, replaceFirst, ih]

/-! ## One record a file -/

def name (f : FileInfo) : String × String := (f.filename, f.type)

/-- No two records have the same filename and type. -/
def Unique (fileInfoVec : List FileInfo) : Prop := (fileInfoVec.map name).Nodup

theorem sameRecord_of_name {f t : FileInfo} (h : name f = name t) : sameRecord t f = true := by
  obtain ⟨hfilename, htype⟩ := Prod.mk.inj h
  simp [sameRecord, hfilename, htype]

/-- The first record that matches has the filename and type of the new one, or none has. -/
def KeepsUnique (h : SysUpdateHandler) (t : FileInfo) : Prop :=
  ∀ f, h.fileInfoVec.find? (sameRecord t) = some f →
    name f = name t ∨ ∀ g ∈ h.fileInfoVec, name g ≠ name t

def update (p : Platform) (h : SysUpdateHandler) (t : FileInfo) : Option SysUpdateHandler :=
  some (h.updateFileInfos p t).1

variable {p : Platform}

theorem unique_update_iff {h h' : SysUpdateHandler} {t : FileInfo} (hunique : Unique h.fileInfoVec)
    (hstep : update p h t = some h') : Unique h'.fileInfoVec ↔ KeepsUnique h t := by
  obtain rfl := Option.some.inj hstep
  have hvec : (h.updateFileInfos p t).1.fileInfoVec = replaceFirst (sameRecord t) t h.fileInfoVec :=
    putRecord_eq t h.fileInfoVec
  rw [Unique, hvec]
  exact nodup_replaceFirst_iff hunique fun f _ hname => sameRecord_of_name hname

theorem mem_update {h h' : SysUpdateHandler} {t : FileInfo} (hstep : update p h t = some h') :
    t ∈ h'.fileInfoVec := by
  obtain rfl := Option.some.inj hstep
  exact mem_putRecord.mpr (.inl rfl)

/-- In every sequence of updates of an empty list: no two records ever have the same filename and
type, and each update leaves exactly one record for its file, the new one, if and only if at each
update the first matching record is one of this file, or no record is. -/
theorem unique_iff {h h' : SysUpdateHandler} {ts : List FileInfo} (hempty : h.fileInfoVec = [])
    (hrun : run (update p) h ts = some h') :
    (∀ us m, us <+: ts → run (update p) h us = some m →
        Unique m.fileInfoVec ∧
          ∀ t ∈ us.getLast?, m.fileInfoVec.filter (fun f => name f = name t) = [t]) ↔
      AllSteps (update p) KeepsUnique h ts := by
  have hstart : Unique h.fileInfoVec := by
    rw [hempty]
    exact List.nodup_nil
  have hprefixes : (∀ us m, us <+: ts → run (update p) h us = some m → Unique m.fileInfoVec) ↔
      AllSteps (update p) KeepsUnique h ts :=
    prefixes_iff_of_guarded (J := fun m => Unique m.fileInfoVec)
      (fun _ _ _ hunique hkeeps hstep => (unique_update_iff hunique hstep).mpr hkeeps)
      (fun _ hunique => hunique)
      (fun _ _ _ hunique hstep hunique' => (unique_update_iff hunique hstep).mp hunique')
      hstart hrun
  rw [← hprefixes]
  refine forall₂_congr fun us m => forall₂_congr fun hus hm => ?_
  rw [and_iff_left_iff_imp]
  intro hunique t ht
  obtain ⟨earlier, rfl⟩ := List.getLast?_eq_some_iff.mp ht
  obtain ⟨before, -, hlast⟩ := run_concat_eq_some.mp hm
  exact filter_key_eq_singleton hunique (mem_update hlast)

def copiedFile : FileInfo :=
  { changedFile with savePath := "/d/y", remotefileUrl := "up/y", filename := "y" }

def editedFile : FileInfo := { copiedFile with md5 := "92eb5ffee6ae2fec3ad71c777531578f" }

def emptyHandler : SysUpdateHandler := start "http://127.0.0.1:8010" ⟨fun _ => none⟩

theorem unique_of_two_files :
    ∃ m, run (update samplePlatform) emptyHandler [changedFile, editedFile] = some m ∧
      Unique m.fileInfoVec := by
  have hsome : (run (update samplePlatform) emptyHandler [changedFile, editedFile]).isSome := by
    decide +kernel
  obtain ⟨m, hrun⟩ := Option.isSome_iff_exists.mp hsome
  refine ⟨m, hrun, ((unique_iff rfl hrun).mpr ⟨nofun, ?_⟩ _ m (List.prefix_refl _) hrun).1⟩
  intro h' hstep
  obtain rfl := Option.some.inj hstep
  refine ⟨?_, fun _ _ => trivial⟩
  intro f hf
  have hnone : [changedFile].find? (sameRecord editedFile) = none := by decide +kernel
  cases hnone.symm.trans hf

/-- The third update replaces the record of `x`, whose md5 it has, and not that of `y`. -/
theorem two_records_of_one_file : ¬ ∀ (p : Platform) (h : SysUpdateHandler) (ts : List FileInfo)
    (m : SysUpdateHandler), h.fileInfoVec = [] → run (update p) h ts = some m →
      Unique m.fileInfoVec := by
  intro h
  have hbad : ∃ m ∈ run (update samplePlatform) emptyHandler
      [changedFile, editedFile, copiedFile], ¬ (m.fileInfoVec.map name).Nodup := by
    decide +kernel
  obtain ⟨m, hrun, htwice⟩ := hbad
  exact htwice (h samplePlatform emptyHandler _ m rfl hrun)

/-! ## The records of other files -/

/-- A record of another file: neither its name nor its place is that of `t`. -/
def Other (t u : FileInfo) : Prop := u.filename ≠ t.filename ∧ u.savePath ≠ t.savePath

theorem fileAt_update {h : SysUpdateHandler} (t : FileInfo) {path : String} {content : Bytes}
    (hfile : h.fileAt p path = some content) :
    ∃ content', (h.updateFileInfos p t).1.fileAt p path = some content' := by
  by_cases hjson : p.canon path = p.canon (fileInfosPath p)
  · refine ⟨(h.updateFileInfos p t).2, ?_⟩
    rw [fileAt, hjson]
    exact Disk.write_same _ _ _
  · refine ⟨content, ?_⟩
    rw [← hfile]
    exact (Disk.write_of_ne _ hjson _).trans (Disk.remove_of_ne _ hjson)

/-- The records of other files stay, and their files stay recognised, if and only if the first
record that matches has the filename or the path of the new one, or occurs again. -/
theorem others_kept_iff (p : Platform) (h : SysUpdateHandler) (t : FileInfo) :
    ((∀ u ∈ h.fileInfoVec, Other t u → u ∈ (h.updateFileInfos p t).1.fileInfoVec) ∧
        ∀ u, Other t u → h.isNeedDownload p u = false →
          (h.updateFileInfos p t).1.isNeedDownload p u = false) ↔
      ∀ before f after, h.fileInfoVec = before ++ f :: after →
        (∀ g ∈ before, sameRecord t g = false) → sameRecord t f = true →
          f.filename = t.filename ∨ f.savePath = t.savePath ∨ f ∈ after := by
  have hrecognised (hkept : ∀ u ∈ h.fileInfoVec, Other t u →
      u ∈ (h.updateFileInfos p t).1.fileInfoVec) (u : FileInfo) (hother : Other t u)
      (hskip : h.isNeedDownload p u = false) :
      (h.updateFileInfos p t).1.isNeedDownload p u = false := by
    obtain ⟨f, hf, hsame, content, hcontent⟩ := isNeedDownload_eq_false.mp hskip
    have hfields := hsame
    simp only [sameFile, decide_eq_true_eq] at hfields
    have hfother : Other t f := by
      rw [Other, hfields.1, hfields.2.1]
      exact hother
    exact isNeedDownload_eq_false.mpr ⟨f, hkept f hf hfother, hsame, fileAt_update t hcontent⟩
  have hvec : (h.updateFileInfos p t).1.fileInfoVec = replaceFirst (sameRecord t) t h.fileInfoVec :=
    putRecord_eq t h.fileInfoVec
  rw [and_iff_left_of_imp hrecognised, hvec]
  rw [forall_mem_replaceFirst_iff fun hother : Other t t => hother.1 rfl]
  simp only [Other, and_imp, or_iff_not_imp_left]

/-- The record of `x` is lost when a file with the same content is downloaded to another place. -/
theorem other_record_lost : ¬ ∀ (p : Platform) (h : SysUpdateHandler) (t u : FileInfo),
    u ∈ h.fileInfoVec → Other t u → u ∈ (h.updateFileInfos p t).1.fileInfoVec := by
  intro h
  let recorded : SysUpdateHandler := { emptyHandler with fileInfoVec := [changedFile] }
  have hkept := h samplePlatform recorded copiedFile changedFile List.mem_cons_self
    ⟨by decide, by decide⟩
  have hlost : (recorded.updateFileInfos samplePlatform copiedFile).1.fileInfoVec =
      [copiedFile] := by
    decide +kernel
  rw [hlost] at hkept
  exact absurd hkept (by decide)

end CloudEdgePush.Client.SysUpdateHandler
