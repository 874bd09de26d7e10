import CloudEdgePush.Client.JsonText
import CloudEdgePush.Client.Published

/-!
# An update that is interrupted

`updateFileInfos` replaces `file_infos.json` in steps: the file is removed, created again and
written.  When the process is killed between two of them, the steps before have been made and
what is on the disk is what the next start finds.
-/

namespace CloudEdgePush.Client

open CloudEdgePush.Lib

/-- A step of `writeFileInfos2File`.  The text reaches the file when the stream writes its buffer
out, in pieces of any size: byte by byte. -/
inductive FileCall
  | remove
  | create
  | write (byte : UInt8)
deriving DecidableEq, Repr

def FileCall.apply (filepath : String) (disk : Disk String UInt8) : FileCall → Disk String UInt8
  | .remove => disk.remove filepath
  | .create => disk.write filepath []
  | .write byte => disk.append filepath [byte]

def writeFileInfos2File (fileInfos : Bytes) : List FileCall :=
  .remove :: .create :: fileInfos.map .write

def Platform.WritesJson (p : Platform) : Prop :=
  ∀ t text, p.writeJson t = some text → text = t.jsonBytes

namespace SysUpdateHandler

variable (p : Platform)

/-- The disk when the process is killed in `updateFileInfos(t)` after so many calls. -/
def killed (h : SysUpdateHandler) (t : FileInfo) (calls : Nat) : Disk String UInt8 :=
  ((writeFileInfos2File (writeFileInfos2Str p (putRecord t h.fileInfoVec))).take calls).foldl
    (FileCall.apply (p.canon (fileInfosPath p))) h.disk

def Saved (disk : Disk String UInt8) (fileInfoVec : List FileInfo) : Prop :=
  ∃ text, disk.file (p.canon (fileInfosPath p)) = some text ∧
    p.writeJson (fileInfosTree fileInfoVec) = some text

/-- The file is complete: with the list before the update, or with the list after it. -/
def Survives (h : SysUpdateHandler) (t : FileInfo) (calls : Nat) : Prop :=
  Saved p (killed p h t calls) h.fileInfoVec ∨
    Saved p (killed p h t calls) (putRecord t h.fileInfoVec)

/-! ## The calls -/

theorem foldl_write (filepath : String) (disk : Disk String UInt8) (written text : Bytes) :
    (text.map FileCall.write).foldl (FileCall.apply filepath) (disk.write filepath written) =
      disk.write filepath (written ++ text) := by
  induction text generalizing written with
  | nil => rw [List.append_nil]; rfl
  | cons byte text ih =>
      have hbyte : (FileCall.write byte).apply filepath (disk.write filepath written) =
          disk.write filepath (written ++ [byte]) := Disk.append_write _ _ _ _
      rw [List.map_cons, List.foldl_cons, hbyte, ih, List.append_assoc, List.singleton_append]

variable {p} {h : SysUpdateHandler} {t : FileInfo}

theorem killed_zero : killed p h t 0 = h.disk := rfl

theorem killed_one : (killed p h t 1).file (p.canon (fileInfosPath p)) = none :=
  Disk.remove_same _ _

theorem killed_add_two (written : Nat) :
    killed p h t (written + 2) = (h.disk.remove (p.canon (fileInfosPath p))).write
      (p.canon (fileInfosPath p))
      ((writeFileInfos2Str p (putRecord t h.fileInfoVec)).take written) := by
  have hcalls := foldl_write (p.canon (fileInfosPath p))
    (h.disk.remove (p.canon (fileInfosPath p))) []
    ((writeFileInfos2Str p (putRecord t h.fileInfoVec)).take written)
  rw [List.map_take] at hcalls
  exact hcalls

theorem killed_of_le {calls : Nat}
    (hall : (writeFileInfos2Str p (putRecord t h.fileInfoVec)).length + 2 ≤ calls) :
    killed p h t calls = (h.updateFileInfos p t).1.disk := by
  obtain ⟨written, rfl⟩ := Nat.exists_eq_add_of_le' (Nat.le_of_add_left_le hall)
  rw [killed_add_two, List.take_of_length_le (by omega)]
  rfl

/-! ## When the file is complete -/

theorem writeFileInfos2Str_of_some {fileInfoVec : List FileInfo} {text : Bytes}
    (htext : p.writeJson (fileInfosTree fileInfoVec) = some text) :
    writeFileInfos2Str p fileInfoVec = text := congrArg (Option.getD · []) htext

theorem writeFileInfos2Str_of_none {fileInfoVec : List FileInfo}
    (hnone : p.writeJson (fileInfosTree fileInfoVec) = none) :
    writeFileInfos2Str p fileInfoVec = [] := congrArg (Option.getD · []) hnone

theorem jsonBytes_ne_nil (tree : Ptree) : tree.jsonBytes ≠ [] := by
  simp [Ptree.jsonBytes]

theorem saved_killed_iff (fileInfoVec : List FileInfo) (written : Nat) :
    Saved p (killed p h t (written + 2)) fileInfoVec ↔
      p.writeJson (fileInfosTree fileInfoVec) =
        some ((writeFileInfos2Str p (putRecord t h.fileInfoVec)).take written) := by
  rw [Saved, killed_add_two, Disk.write_same]
  simp [eq_comm]

/-- The part of the new text that was written is neither list's, unless it is all of it. -/
theorem written_of_saved (hjson : p.WritesJson)
    (hbefore : (fileInfosTree h.fileInfoVec).IsText)
    (hafter : (fileInfosTree (putRecord t h.fileInfoVec)).IsText) {fileInfoVec : List FileInfo}
    (hlist : fileInfoVec = h.fileInfoVec ∨ fileInfoVec = putRecord t h.fileInfoVec) {written : Nat}
    (hsaved : Saved p (killed p h t (written + 2)) fileInfoVec) :
    ∃ text, p.writeJson (fileInfosTree (putRecord t h.fileInfoVec)) = some text ∧
      text.length ≤ written := by
  have htext : (fileInfosTree fileInfoVec).IsText := by
    rcases hlist with rfl | rfl
    · exact hbefore
    · exact hafter
  have hwritten := (saved_killed_iff _ _).mp hsaved
  have hsame := hjson _ _ hwritten
  cases hnew : p.writeJson (fileInfosTree (putRecord t h.fileInfoVec)) with
  | none =>
      rw [writeFileInfos2Str_of_none hnew, List.take_nil] at hsame
      exact absurd hsame.symm (jsonBytes_ne_nil _)
  | some text =>
      rw [writeFileInfos2Str_of_some hnew] at hsame
      refine ⟨text, rfl, ?_⟩
      have hwhole := hjson _ _ hnew
      have hstarts : (fileInfosTree fileInfoVec).jsonBytes <+:
          (fileInfosTree (putRecord t h.fileInfoVec)).jsonBytes := by
        rw [← hsame, ← hwhole]
        exact List.take_prefix _ _
      have hall : text.take written = text := by
        rw [hsame, hwhole]
        exact Ptree.jsonBytes_prefix htext hafter hstarts
      have hlength := congrArg List.length hall
      rw [List.length_take] at hlength
      omega

/-- The file is complete if the old one was complete and is still there, or if the new text
exists and all of it has been written. -/
theorem survives_iff (hjson : p.WritesJson) (hbefore : (fileInfosTree h.fileInfoVec).IsText)
    (hafter : (fileInfosTree (putRecord t h.fileInfoVec)).IsText) (calls : Nat) :
    Survives p h t calls ↔
      (calls = 0 ∧ (Saved p h.disk h.fileInfoVec ∨ Saved p h.disk (putRecord t h.fileInfoVec))) ∨
        ∃ text, p.writeJson (fileInfosTree (putRecord t h.fileInfoVec)) = some text ∧
          text.length + 2 ≤ calls := by
  match calls with
  | 0 => simp [Survives, killed_zero]
  | 1 => simp [Survives, Saved, killed_one]
  | written + 2 =>
      constructor
      · rintro (hsaved | hsaved)
        · obtain ⟨text, htext, hlength⟩ := written_of_saved hjson hbefore hafter (.inl rfl) hsaved
          exact .inr ⟨text, htext, by omega⟩
        · obtain ⟨text, htext, hlength⟩ := written_of_saved hjson hbefore hafter (.inr rfl) hsaved
          exact .inr ⟨text, htext, by omega⟩
      · rintro (⟨hzero, -⟩ | ⟨text, htext, hlength⟩)
        · cases hzero
        · have hwritten := writeFileInfos2Str_of_some htext
          rw [Survives, killed_of_le (by rw [hwritten]; omega)]
          refine .inr ⟨text, ?_, htext⟩
          rw [← hwritten]
          exact Disk.write_same _ _ _

/-! ## An update of one record -/

def updated : SysUpdateHandler :=
  { start "" ⟨fun name => if name = "/app/file_infos.json" then
      some (fileInfosTree [sampleRecord ""]).jsonBytes else none⟩ with
    fileInfoVec := [sampleRecord ""] }

def newRecord : FileInfo :=
  { filesize := 2, md5 := "92eb5ffee6ae2fec3ad71c777531578f", filename := "y" }

theorem samplePlatform_writesJson : samplePlatform.WritesJson := by
  intro t text htext
  exact (Option.some.inj htext).symm

theorem survives_before : Survives samplePlatform updated newRecord 0 := by
  refine (survives_iff samplePlatform_writesJson ?_ ?_ 0).mpr (.inl ⟨rfl, .inl ⟨_, rfl, rfl⟩⟩)
  · decide +kernel
  · decide +kernel

/-- Killed when the file is removed: the next start finds no record. -/
theorem killed_update_forgets : ¬ ∀ (p : Platform) (h : SysUpdateHandler) (t : FileInfo)
    (calls : Nat), p.WritesJson → Saved p h.disk h.fileInfoVec → Survives p h t calls := by
  intro hall
  have hsaved : Saved samplePlatform updated.disk updated.fileInfoVec := ⟨_, rfl, rfl⟩
  have hsurvives := hall samplePlatform updated newRecord 1 samplePlatform_writesJson hsaved
  rcases hsurvives with ⟨text, hfile, -⟩ | ⟨text, hfile, -⟩
  · rw [killed_one] at hfile
    cases hfile
  · rw [killed_one] at hfile
    cases hfile

end SysUpdateHandler

end CloudEdgePush.Client
