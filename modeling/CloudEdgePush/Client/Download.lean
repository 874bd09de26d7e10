import CloudEdgePush.Client.SysUpdateHandler

/-!
# What a download leaves behind

`downloadFile(url, dst)` moves the `.tmp` file over the destination when its counter says so, and
before the digest is checked.  Both functions are described by the content that the `.tmp` file has
after the transfer (`received`):

* `downloadFile_keeps_iff` — when a failed download leaves the destination as it was.
-/

namespace CloudEdgePush.Client.SysUpdateHandler

open CloudEdgePush.Lib

variable {p : Platform}

/-- The file is asked of the server: both names are there, and a directory for it. -/
def Begins (url dst : String) (tr : Transfer) : Prop :=
  url ≠ "" ∧ dst ≠ "" ∧ hasParentPath dst tr = true

instance (url dst : String) (tr : Transfer) : Decidable (Begins url dst tr) :=
  inferInstanceAs (Decidable (_ ∧ _))

def received (p : Platform) (h : SysUpdateHandler) (dst : String) (tr : Transfer) : Bytes :=
  h.partialContent p dst ++ tr.body

def Completes (h : SysUpdateHandler) (tr : Transfer) : Prop :=
  UInt64.ofInt tr.fileLength ≤ h.totalSize + UInt64.ofNat tr.body.length

instance (h : SysUpdateHandler) (tr : Transfer) : Decidable (h.Completes tr) :=
  inferInstanceAs (Decidable (_ ≤ _))

theorem file_tmp_transfer (h : SysUpdateHandler) (url dst : String) (tr : Transfer) :
    (h.transfer p url dst tr).disk.file (p.canon (tmpFilename dst)) =
      some (h.received p dst tr) := Disk.append_same _ _ _

section

variable {h : SysUpdateHandler} {url dst : String} {tr : Transfer}

theorem downloadUrl_empty (h : SysUpdateHandler) (hempty : url = "" ∨ dst = "") (tr : Transfer) :
    h.downloadUrl p url dst tr = (some false, h) := if_pos hempty

theorem downloadUrl_throws (h : SysUpdateHandler) (hnames : ¬(url = "" ∨ dst = ""))
    (hparent : hasParentPath dst tr = false) : h.downloadUrl p url dst tr = (none, h) := by
  rw [downloadUrl, if_neg hnames, hparent]
  rfl

theorem downloadUrl_complete (hbegins : Begins url dst tr) (hcomplete : h.Completes tr) :
    h.downloadUrl p url dst tr =
      (some true,
        { h.transfer p url dst tr with
          totalSize := 0
          disk := (h.transfer p url dst tr).disk.rename (p.canon (tmpFilename dst))
            (p.canon dst) }) := by
  obtain ⟨hurl, hdst, hparent⟩ := hbegins
  have htest : (h.transfer p url dst tr).complete tr = true := decide_eq_true hcomplete
  rw [downloadUrl, if_neg (not_or.mpr ⟨hurl, hdst⟩), hparent, Bool.not_true,
    if_neg Bool.false_ne_true]
  dsimp only
  rw [if_pos htest]

theorem downloadUrl_incomplete (hbegins : Begins url dst tr) (hcomplete : ¬h.Completes tr) :
    h.downloadUrl p url dst tr = (some false, h.transfer p url dst tr) := by
  obtain ⟨hurl, hdst, hparent⟩ := hbegins
  have htest : (h.transfer p url dst tr).complete tr = false := decide_eq_false hcomplete
  rw [downloadUrl, if_neg (not_or.mpr ⟨hurl, hdst⟩), hparent, Bool.not_true,
    if_neg Bool.false_ne_true]
  dsimp only
  rw [htest]
  rfl

theorem downloadUrl_not_begins (h : SysUpdateHandler) (hbegins : ¬Begins url dst tr) :
    (h.downloadUrl p url dst tr).1 ≠ some true ∧ (h.downloadUrl p url dst tr).2 = h := by
  by_cases hnames : url = "" ∨ dst = ""
  · rw [downloadUrl_empty h hnames]
    exact ⟨by simp, rfl⟩
  · obtain ⟨hurl, hdst⟩ := not_or.mp hnames
    have hparent : hasParentPath dst tr = false := by
      rw [Bool.eq_false_iff]
      exact fun hparent => hbegins ⟨hurl, hdst, hparent⟩
    rw [downloadUrl_throws h hnames hparent]
    exact ⟨nofun, rfl⟩

theorem fileAt_downloadUrl_complete (hbegins : Begins url dst tr) (hcomplete : h.Completes tr) :
    (h.downloadUrl p url dst tr).2.fileAt p dst = some (h.received p dst tr) := by
  rw [downloadUrl_complete hbegins hcomplete]
  exact Disk.rename_target (file_tmp_transfer h url dst tr) _

theorem partialContent_incomplete (hbegins : Begins url dst tr) (hcomplete : ¬h.Completes tr) :
    (h.downloadUrl p url dst tr).2.partialContent p dst = h.received p dst tr := by
  rw [downloadUrl_incomplete hbegins hcomplete, partialContent, Disk.contentOf, file_tmp_transfer]
  rfl

theorem partialContent_complete (hne : p.canon (tmpFilename dst) ≠ p.canon dst)
    (hbegins : Begins url dst tr) (hcomplete : h.Completes tr) :
    (h.downloadUrl p url dst tr).2.partialContent p dst = [] := by
  rw [downloadUrl_complete hbegins hcomplete, partialContent, Disk.contentOf,
    Disk.rename_source (file_tmp_transfer h url dst tr) hne]
  rfl

end

theorem toNat_ofInt_length {n : Nat} (hlt : n < 2 ^ 64) : (UInt64.ofInt n).toNat = n := by
  have hmod : ((n : Int) % 2 ^ 64).toNat = n := by omega
  rw [UInt64.ofInt, hmod, UInt64.toNat_ofNat', Nat.mod_eq_of_lt hlt]

/-! ## Downloads of a notification -/

def verdict (p : Platform) (t : FileInfo) (content : Bytes) : Option Bool :=
  (getMd5 p content).map fun md5 =>
    iequals md5 t.md5 && UInt64.ofNat content.length == t.filesize

theorem downloadFile_not_complete {h h' : SysUpdateHandler} {t : FileInfo} {tr : Transfer}
    (hurl : h.downloadUrl p t.remotefileUrl t.savePath tr = (some false, h')) :
    h.downloadFile p t tr = (some false, h') := by
  rw [downloadFile, hurl]

theorem downloadFile_throws {h h' : SysUpdateHandler} {t : FileInfo} {tr : Transfer}
    (hurl : h.downloadUrl p t.remotefileUrl t.savePath tr = (none, h')) :
    h.downloadFile p t tr = (none, h') := by
  rw [downloadFile, hurl]

theorem downloadFile_complete {h : SysUpdateHandler} {t : FileInfo} {tr : Transfer}
    (hbegins : Begins t.remotefileUrl t.savePath tr) (hcomplete : h.Completes tr) :
    h.downloadFile p t tr =
      (verdict p t (h.received p t.savePath tr),
        (h.downloadUrl p t.remotefileUrl t.savePath tr).2) := by
  have hfile := fileAt_downloadUrl_complete (p := p) hbegins hcomplete
  have htrue : (h.downloadUrl p t.remotefileUrl t.savePath tr).1 = some true := by
    rw [downloadUrl_complete hbegins hcomplete]
  unfold downloadFile
  generalize h.downloadUrl p t.remotefileUrl t.savePath tr = result at hfile htrue
  obtain ⟨ok, h'⟩ := result
  obtain rfl : ok = some true := htrue
  simp only [fileAt] at hfile
  simp only [getFileInfo, hfile, verdict, Option.map_map]
  rfl

/-- When a download that is not verified leaves the destination alone: nothing was requested,
the destination holds what was received anyway, the transfer is not complete and its `.tmp`
file is another file, or what was received passes the check. -/
def KeepsDestination (p : Platform) (h : SysUpdateHandler) (t : FileInfo) (tr : Transfer) : Prop :=
  ¬Begins t.remotefileUrl t.savePath tr ∨
    h.fileAt p t.savePath = some (h.received p t.savePath tr) ∨
    if h.Completes tr then verdict p t (h.received p t.savePath tr) = some true
    else p.canon (tmpFilename t.savePath) ≠ p.canon t.savePath

theorem downloadFile_not_begins (h : SysUpdateHandler) {t : FileInfo} {tr : Transfer}
    (hbegins : ¬Begins t.remotefileUrl t.savePath tr) : (h.downloadFile p t tr).2 = h := by
  obtain ⟨hnot, hsame⟩ := downloadUrl_not_begins (p := p) h hbegins
  unfold downloadFile
  generalize h.downloadUrl p t.remotefileUrl t.savePath tr = result at hnot hsame
  obtain ⟨answer, h'⟩ := result
  match answer, hnot with
  | none, _ => exact hsame
  | some false, _ => exact hsame
  | some true, hnot => exact absurd rfl hnot

/-- For every notification, disk, counter and response: a download that returns false leaves
the file at `save_path` as it was, and only verified content ever replaces it, if and only if
`KeepsDestination`. -/
theorem downloadFile_keeps_iff (p : Platform) (h : SysUpdateHandler) (t : FileInfo)
    (tr : Transfer) :
    ((h.downloadFile p t tr).1 = some false →
        (h.downloadFile p t tr).2.fileAt p t.savePath = h.fileAt p t.savePath) ∧
      ((h.downloadFile p t tr).2.fileAt p t.savePath ≠ h.fileAt p t.savePath →
        ∃ content, (h.downloadFile p t tr).2.fileAt p t.savePath = some content ∧
          verdict p t content = some true) ↔
      KeepsDestination p h t tr := by
  unfold KeepsDestination
  by_cases hbegins : Begins t.remotefileUrl t.savePath tr
  · rw [or_iff_right (not_not.mpr hbegins)]
    by_cases hcomplete : h.Completes tr
    · rw [downloadFile_complete hbegins hcomplete, fileAt_downloadUrl_complete hbegins hcomplete,
        if_pos hcomplete]
      constructor
      · rintro ⟨-, hverified⟩
        by_cases hsame : h.fileAt p t.savePath = some (h.received p t.savePath tr)
        · exact .inl hsame
        · obtain ⟨content, hcontent, hverdict⟩ := hverified (Ne.symm hsame)
          obtain rfl := Option.some.inj hcontent
          exact .inr hverdict
      · rintro (hsame | hverdict)
        · exact ⟨fun _ => hsame.symm, fun hne => absurd hsame.symm hne⟩
        · refine ⟨fun hfalse => ?_, fun _ => ⟨_, rfl, hverdict⟩⟩
          rw [hverdict] at hfalse
          cases hfalse
    · have hanswer :=
        downloadFile_not_complete (downloadUrl_incomplete (p := p) hbegins hcomplete)
      rw [hanswer, if_neg hcomplete]
      by_cases hlink : p.canon (tmpFilename t.savePath) = p.canon t.savePath
      · -- the `.tmp` file is the destination
        have hfile : (h.transfer p t.remotefileUrl t.savePath tr).fileAt p t.savePath =
            some (h.received p t.savePath tr) := by
          rw [fileAt, ← hlink]
          exact file_tmp_transfer h _ _ _
        rw [hfile, or_iff_left (not_not.mpr hlink)]
        constructor
        · intro hkeeps
          exact (hkeeps.1 rfl).symm
        · intro hsame
          exact ⟨fun _ => hsame.symm, fun hne => absurd hsame.symm hne⟩
      · have hfile : (h.transfer p t.remotefileUrl t.savePath tr).fileAt p t.savePath =
            h.fileAt p t.savePath := Disk.append_of_ne _ (Ne.symm hlink) _
        simp [hfile, hlink]
  · rw [downloadFile_not_begins h hbegins]
    exact iff_of_true ⟨fun _ => rfl, fun hne => absurd rfl hne⟩ (.inl hbegins)

/-- The remote file is no longer the one announced: the download returns false, and the old
file is gone. -/
def changedFile : FileInfo :=
  { filesize := 1, md5 := "0cc175b9c0f1b6a831c399e269772661", savePath := "/d/x"
    remotefileUrl := "up/x", filename := "x", type := "edge" }

theorem downloadFile_loses_file : ¬ ∀ (p : Platform) (h : SysUpdateHandler) (t : FileInfo)
    (tr : Transfer), (h.downloadFile p t tr).1 = some false →
      (h.downloadFile p t tr).2.fileAt p t.savePath = h.fileAt p t.savePath := by
  intro h
  let disk : Disk String UInt8 := ⟨fun path => if path = "/d/x" then some [0x61] else none⟩
  have hkeeps := h samplePlatform (start "http://127.0.0.1:8010" disk) changedFile ⟨true, 1, [0x62]⟩
  exact absurd (hkeeps (by decide +kernel)) (by decide +kernel)

end CloudEdgePush.Client.SysUpdateHandler
