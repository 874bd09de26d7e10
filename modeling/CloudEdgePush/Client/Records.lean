import CloudEdgePush.Lib.Transition
import CloudEdgePush.Client.Download

/-!
# The record list and the disk

`isNeedDownload` trusts the records.  That is right exactly as long as every record whose
file exists describes that file (`Recorded`).  A notification changes records by md5 or by
filename and type, and files by path; `notify_recorded_iff` says which notifications keep
records and files together, and `skips_present_iff` follows whole sequences of them.
-/

namespace CloudEdgePush.Client.SysUpdateHandler

open CloudEdgePush.Lib CloudEdgePush.Lib.Transition

variable {p : Platform}

/-! ## Case-insensitive digests -/

theorem iequals_iff {a b : String} :
    iequals a b = true ↔ a.toList.map Char.toUpper = b.toList.map Char.toUpper := beq_iff_eq

theorem iequals_refl (a : String) : iequals a a = true := iequals_iff.mpr rfl

theorem iequals_trans {a b c : String} (hab : iequals a b = true) (hbc : iequals b c = true) :
    iequals a c = true :=
  iequals_iff.mpr ((iequals_iff.mp hab).trans (iequals_iff.mp hbc))

/-! ## Records that describe their files -/

def Describes (p : Platform) (f : FileInfo) (content : Bytes) : Prop :=
  iequals (p.md5 content) f.md5 = true ∧ UInt64.ofNat content.length = f.filesize

/-- A notification that is skipped as already downloaded is there on the disk. -/
def SkipsPresent (p : Platform) (h : SysUpdateHandler) : Prop :=
  ∀ t, h.isNeedDownload p t = false →
    ∃ content, h.fileAt p t.savePath = some content ∧ Describes p t content

def Recorded (p : Platform) (h : SysUpdateHandler) : Prop :=
  ∀ f ∈ h.fileInfoVec, ∀ content, h.fileAt p f.savePath = some content → Describes p f content

theorem isNeedDownload_eq_false {h : SysUpdateHandler} {t : FileInfo} :
    h.isNeedDownload p t = false ↔
      ∃ f ∈ h.fileInfoVec, sameFile f t = true ∧ ∃ content, h.fileAt p f.savePath = some content := by
  simp only [isNeedDownload, Bool.not_eq_false', List.any_eq_true, Bool.and_eq_true,
    Option.isSome_iff_exists]

theorem skipsPresent_iff_recorded (p : Platform) (h : SysUpdateHandler) :
    SkipsPresent p h ↔ Recorded p h := by
  constructor
  · intro hskips f hf content hcontent
    have hsame : sameFile f f = true := by simp [sameFile, iequals_refl]
    obtain ⟨content', hcontent', hdescribes⟩ :=
      hskips f (isNeedDownload_eq_false.mpr ⟨f, hf, hsame, content, hcontent⟩)
    obtain rfl : content = content' := Option.some.inj (hcontent.symm.trans hcontent')
    exact hdescribes
  · intro hrecorded t hskip
    obtain ⟨f, hf, hsame, content, hcontent⟩ := isNeedDownload_eq_false.mp hskip
    obtain ⟨hmd5, hsize⟩ := hrecorded f hf content hcontent
    simp only [sameFile, decide_eq_true_eq] at hsame
    obtain ⟨-, hpath, hfilesize, hdigest⟩ := hsame
    refine ⟨content, ?_, iequals_trans hmd5 hdigest, hsize.trans hfilesize⟩
    rw [← hpath]
    exact hcontent

/-! ## One notification -/

structure Push where
  info : FileInfo
  transfer : Transfer
deriving DecidableEq, Repr

/-- `none` when an exception ends the process. -/
def notify (p : Platform) (h : SysUpdateHandler) (e : Push) : Option SysUpdateHandler :=
  (h.onUpdateFileNtf p e.info e.transfer).map Prod.fst

def keptRecords (h : SysUpdateHandler) (t : FileInfo) : List FileInfo :=
  h.fileInfoVec.eraseP (sameRecord t)

def recordsText (p : Platform) (h : SysUpdateHandler) (t : FileInfo) : Bytes :=
  writeFileInfos2Str p (putRecord t h.fileInfoVec)

/-- Wherever a record that stays leads to a file the notification writes, it describes what
is written. -/
structure Harmless (p : Platform) (h : SysUpdateHandler) (e : Push) : Prop where
  /-- An unfinished transfer only changes the `.tmp` file. -/
  unfinished : ¬h.Completes e.transfer → ∀ f ∈ h.fileInfoVec,
    p.canon f.savePath = p.canon (tmpFilename e.info.savePath) →
      Describes p f (h.received p e.info.savePath e.transfer)
  /-- A download that fails the check replaces the destination and no record. -/
  rejected : h.Completes e.transfer →
    verdict p e.info (h.received p e.info.savePath e.transfer) = some false →
    ∀ f ∈ h.fileInfoVec, p.canon f.savePath = p.canon e.info.savePath →
      Describes p f (h.received p e.info.savePath e.transfer)
  /-- A download that passes replaces the destination, a record and `file_infos.json`. -/
  accepted : h.Completes e.transfer →
    verdict p e.info (h.received p e.info.savePath e.transfer) = some true →
    ∀ f, f = e.info ∨ f ∈ h.keptRecords e.info →
      if p.canon f.savePath = p.canon (fileInfosPath p) then Describes p f (recordsText p h e.info)
      else p.canon f.savePath = p.canon e.info.savePath →
        Describes p f (h.received p e.info.savePath e.transfer)

def Downloads (p : Platform) (h : SysUpdateHandler) (t : FileInfo) : Prop :=
  h.isNeedDownload p t = true ∧ t.remotefileUrl ≠ "" ∧ t.savePath ≠ ""

def KeepsRecords (p : Platform) (h : SysUpdateHandler) (e : Push) : Prop :=
  Downloads p h e.info → Harmless p h e

theorem mem_putRecord {t f : FileInfo} {vec : List FileInfo} :
    f ∈ putRecord t vec ↔ f = t ∨ f ∈ vec.eraseP (sameRecord t) := by
  induction vec with
  | nil => simp [putRecord]
  | cons g rest ih =>
      by_cases hsame : sameRecord t g = true
      · simp [putRecord, hsame]
      · simp only [putRecord, hsame, Bool.false_eq_true, if_false, List.mem_cons, ih,
          List.eraseP_cons_of_neg hsame]
        tauto

/-! ## What a notification does -/

inductive NotifyStep (p : Platform) (h : SysUpdateHandler) (e : Push) (h' : SysUpdateHandler) : Prop
  | skipped (hno : ¬Downloads p h e.info) (hsame : h' = h)
  | unfinished (hdownloads : Downloads p h e.info) (hcomplete : ¬h.Completes e.transfer)
      (hnext : h' = h.transfer p e.info.remotefileUrl e.info.savePath e.transfer)
  | rejected (hdownloads : Downloads p h e.info) (hcomplete : h.Completes e.transfer)
      (hverdict : verdict p e.info (h.received p e.info.savePath e.transfer) = some false)
      (hrecords : h'.fileInfoVec = h.fileInfoVec)
      (hfile : h'.fileAt p e.info.savePath = some (h.received p e.info.savePath e.transfer))
      (hothers : ∀ n, n ≠ p.canon e.info.savePath →
        h'.disk.file n = h.disk.file n ∨ h'.disk.file n = none)
  | accepted (hdownloads : Downloads p h e.info) (hcomplete : h.Completes e.transfer)
      (hverdict : verdict p e.info (h.received p e.info.savePath e.transfer) = some true)
      (hrecords : h'.fileInfoVec = putRecord e.info h.fileInfoVec)
      (htext : h'.fileAt p (fileInfosPath p) = some (recordsText p h e.info))
      (hfile : p.canon e.info.savePath ≠ p.canon (fileInfosPath p) →
        h'.fileAt p e.info.savePath = some (h.received p e.info.savePath e.transfer))
      (hothers : ∀ n, n ≠ p.canon (fileInfosPath p) → n ≠ p.canon e.info.savePath →
        h'.disk.file n = h.disk.file n ∨ h'.disk.file n = none)

theorem file_downloadUrl_of_ne {h : SysUpdateHandler} {url dst : String} {tr : Transfer}
    (hbegins : Begins url dst tr) (hcomplete : h.Completes tr) {n : String}
    (hn : n ≠ p.canon dst) :
    (h.downloadUrl p url dst tr).2.disk.file n = h.disk.file n ∨
      (h.downloadUrl p url dst tr).2.disk.file n = none := by
  have htmp := file_tmp_transfer (p := p) h url dst tr
  rw [downloadUrl_complete hbegins hcomplete]
  by_cases hnt : n = p.canon (tmpFilename dst)
  · right
    rw [hnt] at hn ⊢
    exact Disk.rename_source htmp hn
  · left
    dsimp only
    rw [Disk.rename_of_ne _ hnt hn]
    exact Disk.append_of_ne _ hnt _

theorem notify_complete {h h' : SysUpdateHandler} {e : Push}
    (hneed : h.isNeedDownload p e.info = true)
    (hbegins : Begins e.info.remotefileUrl e.info.savePath e.transfer)
    (hcomplete : h.Completes e.transfer) (hstep : notify p h e = some h') :
    NotifyStep p h e h' := by
  have hdownloads : Downloads p h e.info := ⟨hneed, hbegins.1, hbegins.2.1⟩
  have hfile := fileAt_downloadUrl_complete (p := p) hbegins hcomplete
  have hothers := fun n => file_downloadUrl_of_ne (p := p) (n := n) hbegins hcomplete
  have hrecords : (h.downloadUrl p e.info.remotefileUrl e.info.savePath
      e.transfer).2.fileInfoVec = h.fileInfoVec := by
    rw [downloadUrl_complete hbegins hcomplete]
    rfl
  simp only [notify, onUpdateFileNtf] at hstep
  rw [hneed, downloadFile_complete hbegins hcomplete] at hstep
  generalize (h.downloadUrl p e.info.remotefileUrl e.info.savePath e.transfer).2 = d
    at hfile hothers hrecords hstep
  cases hverdict : verdict p e.info (h.received p e.info.savePath e.transfer) with
  | none =>
      rw [hverdict] at hstep
      cases hstep
  | some ok =>
      rw [hverdict] at hstep
      cases ok with
      | false =>
          obtain rfl : d = h' := Option.some.inj hstep
          exact .rejected hdownloads hcomplete hverdict hrecords hfile hothers
      | true =>
          obtain rfl := Option.some.inj hstep
          refine .accepted hdownloads hcomplete hverdict ?_ ?_ ?_ ?_
          · show putRecord e.info d.fileInfoVec = _
            rw [hrecords]
          · show _ = some (writeFileInfos2Str p (putRecord e.info h.fileInfoVec))
            rw [← hrecords]
            exact Disk.write_same _ _ _
          · intro hjson
            rw [← hfile]
            exact (Disk.write_of_ne _ hjson _).trans (Disk.remove_of_ne _ hjson)
          · intro n hjson hdst
            have hkept : (d.updateFileInfos p e.info).1.disk.file n = d.disk.file n :=
              (Disk.write_of_ne _ hjson _).trans (Disk.remove_of_ne _ hjson)
            rw [hkept]
            exact hothers n hdst

theorem notify_cases {h h' : SysUpdateHandler} {e : Push} (hstep : notify p h e = some h') :
    NotifyStep p h e h' := by
  by_cases hneed : h.isNeedDownload p e.info = true
  · by_cases hnames : e.info.remotefileUrl = "" ∨ e.info.savePath = ""
    · have hanswer := downloadFile_not_complete (downloadUrl_empty (p := p) h hnames e.transfer)
      rw [notify, onUpdateFileNtf, hneed, hanswer] at hstep
      refine .skipped ?_ (Option.some.inj hstep).symm
      rintro ⟨-, hurl, hdst⟩
      exact not_or.mpr ⟨hurl, hdst⟩ hnames
    · by_cases hparent : hasParentPath e.info.savePath e.transfer = true
      · obtain ⟨hurl, hdst⟩ := not_or.mp hnames
        have hbegins : Begins e.info.remotefileUrl e.info.savePath e.transfer :=
          ⟨hurl, hdst, hparent⟩
        by_cases hcomplete : h.Completes e.transfer
        · exact notify_complete hneed hbegins hcomplete hstep
        · have hanswer := downloadFile_not_complete
            (downloadUrl_incomplete (p := p) hbegins hcomplete)
          rw [notify, onUpdateFileNtf, hneed, hanswer] at hstep
          exact .unfinished ⟨hneed, hurl, hdst⟩ hcomplete (Option.some.inj hstep).symm
      · have hanswer := downloadFile_throws
          (downloadUrl_throws (p := p) h hnames (Bool.eq_false_iff.mpr hparent))
        rw [notify, onUpdateFileNtf, hneed, hanswer] at hstep
        cases hstep
  · rw [Bool.not_eq_true] at hneed
    rw [notify, onUpdateFileNtf, hneed] at hstep
    refine .skipped ?_ (Option.some.inj hstep).symm
    rintro ⟨hneed', -⟩
    rw [hneed] at hneed'
    cases hneed'

/-- One file has new content and others can only disappear: records stay right exactly if
those that lead to the file describe the new content. -/
theorem recorded_iff_of_file {h h' : SysUpdateHandler} {n : String} {content : Bytes}
    (hrecorded : Recorded p h) (hrecords : h'.fileInfoVec = h.fileInfoVec)
    (hfile : h'.disk.file n = some content)
    (hothers : ∀ m, m ≠ n → h'.disk.file m = h.disk.file m ∨ h'.disk.file m = none) :
    Recorded p h' ↔ ∀ f ∈ h.fileInfoVec, p.canon f.savePath = n → Describes p f content := by
  unfold Recorded
  rw [hrecords]
  constructor
  · intro h' f hf hn
    exact h' f hf content (by rw [fileAt, hn, hfile])
  · intro hdescribes f hf found hfound
    rw [fileAt] at hfound
    by_cases hn : p.canon f.savePath = n
    · rw [hn, hfile] at hfound
      obtain rfl := Option.some.inj hfound
      exact hdescribes f hf hn
    · rcases hothers _ hn with hsame | hgone
      · rw [hsame] at hfound
        exact hrecorded f hf found hfound
      · rw [hgone] at hfound
        cases hfound

theorem notify_recorded_iff {h : SysUpdateHandler} {e : Push} {h' : SysUpdateHandler}
    (hrecorded : Recorded p h) (hstep : notify p h e = some h') :
    Recorded p h' ↔ KeepsRecords p h e := by
  cases notify_cases hstep with
  | skipped hno hsame =>
      rw [hsame]
      exact ⟨fun _ hdownloads => absurd hdownloads hno, fun _ => hrecorded⟩
  | unfinished hdownloads hcomplete hnext =>
      have hfile := file_tmp_transfer (p := p) h e.info.remotefileUrl e.info.savePath e.transfer
      rw [← hnext] at hfile
      have hothers : ∀ m, m ≠ p.canon (tmpFilename e.info.savePath) →
          h'.disk.file m = h.disk.file m ∨ h'.disk.file m = none := by
        intro m hm
        rw [hnext]
        exact .inl (Disk.append_of_ne _ hm _)
      rw [recorded_iff_of_file hrecorded (by rw [hnext]; rfl) hfile hothers]
      constructor
      · intro hdescribes _
        exact ⟨fun _ => hdescribes, fun hc => absurd hc hcomplete, fun hc => absurd hc hcomplete⟩
      · intro hkeeps
        exact (hkeeps hdownloads).unfinished hcomplete
  | rejected hdownloads hcomplete hverdict hrecords hfile hothers =>
      rw [recorded_iff_of_file hrecorded hrecords hfile hothers]
      constructor
      · intro hdescribes _
        refine ⟨fun hc => absurd hcomplete hc, fun _ _ => hdescribes, fun _ htrue => ?_⟩
        rw [hverdict] at htrue
        cases htrue
      · intro hkeeps
        exact (hkeeps hdownloads).rejected hcomplete hverdict
  | accepted hdownloads hcomplete hverdict hrecords htext hfile hothers =>
      have hmem (f : FileInfo) :
          f ∈ h'.fileInfoVec ↔ f = e.info ∨ f ∈ h.keptRecords e.info := by
        rw [hrecords, mem_putRecord]
        rfl
      constructor
      · intro hrecorded' _
        refine ⟨fun hc => absurd hcomplete hc, fun _ hfalse => ?_, fun _ _ f hf => ?_⟩
        · rw [hverdict] at hfalse
          cases hfalse
        · have hdescribes := hrecorded' f ((hmem f).mpr hf)
          split
          · rename_i hjson
            exact hdescribes _ (by rw [fileAt, hjson]; exact htext)
          · rename_i hjson
            intro hdst
            rw [hdst] at hjson
            exact hdescribes _ (by rw [fileAt, hdst]; exact hfile hjson)
      · intro hkeeps f hf content hcontent
        have hwritten := (hkeeps hdownloads).accepted hcomplete hverdict f ((hmem f).mp hf)
        rw [fileAt] at hcontent
        by_cases hjson : p.canon f.savePath = p.canon (fileInfosPath p)
        · rw [if_pos hjson] at hwritten
          rw [hjson] at hcontent
          obtain rfl := Option.some.inj (htext.symm.trans hcontent)
          exact hwritten
        · rw [if_neg hjson] at hwritten
          by_cases hdst : p.canon f.savePath = p.canon e.info.savePath
          · rw [hdst] at hjson hcontent
            obtain rfl := Option.some.inj ((hfile hjson).symm.trans hcontent)
            exact hwritten hdst
          · -- a file the notification does not write, so the record is an old one
            have hold : f ∈ h.fileInfoVec := by
              rcases (hmem f).mp hf with rfl | hkept
              · exact absurd rfl hdst
              · exact List.mem_of_mem_eraseP hkept
            rcases hothers _ hjson hdst with hsame | hgone
            · rw [hsame] at hcontent
              exact hrecorded f hold content hcontent
            · rw [hgone] at hcontent
              cases hcontent

/-! ## Sequences of notifications -/

theorem notify_skipsPresent_iff (p : Platform) (h : SysUpdateHandler) (e : Push)
    (h' : SysUpdateHandler) (hskips : SkipsPresent p h) (hstep : notify p h e = some h') :
    SkipsPresent p h' ↔ KeepsRecords p h e := by
  rw [skipsPresent_iff_recorded] at hskips ⊢
  exact notify_recorded_iff hskips hstep

/-- In every sequence of notifications, with downloads that succeed or fail in any way: in all
states passed a notification is skipped only when its file is on the disk with the right
digest and size, if and only if the records are right at the start and every notification
that is not skipped is harmless to them. -/
theorem skips_present_iff (p : Platform) {h h' : SysUpdateHandler} {es : List Push}
    (hrun : run (notify p) h es = some h') :
    (∀ fs m, fs <+: es → run (notify p) h fs = some m → SkipsPresent p m) ↔
      Recorded p h ∧ AllSteps (notify p) (KeepsRecords p) h es := by
  rw [prefixes_iff_allSteps (notify_skipsPresent_iff p) hrun, skipsPresent_iff_recorded]

/-! ## Two files for one path -/

def firstPush : Push := ⟨changedFile, ⟨true, 1, [0x61]⟩⟩

def secondPush : Push :=
  ⟨{ changedFile with
      md5 := "92eb5ffee6ae2fec3ad71c777531578f", remotefileUrl := "up/y", filename := "y" },
    ⟨true, 1, [0x63]⟩⟩

theorem skips_present_of_first :
    ∃ m, run (notify samplePlatform) (start "http://127.0.0.1:8010" ⟨fun _ => none⟩)
      [firstPush] = some m ∧ SkipsPresent samplePlatform m := by
  have hsome : (run (notify samplePlatform) (start "http://127.0.0.1:8010" ⟨fun _ => none⟩)
      [firstPush]).isSome := by
    decide +kernel
  obtain ⟨m, hrun⟩ := Option.isSome_iff_exists.mp hsome
  refine ⟨m, hrun, (skips_present_iff samplePlatform hrun).mpr ⟨nofun, ?_, fun _ _ => trivial⟩ _ m
    (List.prefix_refl _) hrun⟩
  intro _
  refine ⟨fun hc => absurd (by decide +kernel) hc, fun _ _ => nofun, fun _ _ f hf => ?_⟩
  rcases hf with rfl | hkept
  · rw [if_neg (by decide +kernel)]
    intro _
    exact ⟨by decide +kernel, by decide +kernel⟩
  · cases hkept

/-- After both, the first push would be skipped, and its file is gone. -/
theorem skips_absent : ¬ ∀ (p : Platform) (fileServer : String) (disk : Disk String UInt8)
    (es : List Push) (m : SysUpdateHandler),
    run (notify p) (start fileServer disk) es = some m → SkipsPresent p m := by
  intro h
  have hbad : ∃ m ∈ run (notify samplePlatform) (start "http://127.0.0.1:8010" ⟨fun _ => none⟩)
      [firstPush, secondPush], m.isNeedDownload samplePlatform changedFile = false ∧
        m.fileAt samplePlatform changedFile.savePath = some [0x63] := by
    decide +kernel
  obtain ⟨m, hrun, hskip, hfile⟩ := hbad
  obtain ⟨content, hcontent, hdescribes⟩ := h _ _ _ _ m hrun changedFile hskip
  obtain rfl := Option.some.inj (hfile.symm.trans hcontent)
  exact absurd hdescribes.1 (by decide +kernel)

end CloudEdgePush.Client.SysUpdateHandler
