import CloudEdgePush.Client.FileInfosRw
import CloudEdgePush.Client.MessageHandler

/-!
# The published record list

The list of records exists twice: in `m_fileInfo_vec`, and as the text that was last published
and is reported to the server.  An update publishes what it has just written; `loadLocalFileInfos`
publishes the text of the file before it knows what can be read from it and which files are
still there.
-/

namespace CloudEdgePush.Client

open CloudEdgePush.Lib CloudEdgePush.Lib.Transition

/-- `readFile2Str`; the length is an `int`, and a negative one is an exception. -/
def readFile2Str (content : Bytes) : Option Bytes :=
  if intOf content.length < 0 then none else some (content.take (intOf content.length).toNat)

namespace SysUpdateHandler

variable (p : Platform) (directory : String → Bool)

def localFileInfos (h : SysUpdateHandler) : Option Bytes :=
  (h.fileAt p (fileInfosPath p)).bind readFile2Str

def loadLocalFileInfos (h : SysUpdateHandler) : SysUpdateHandler × Option Bytes :=
  match h.localFileInfos p with
  | none => (h, none)
  | some fileInfos =>
      match loadFileInfosFromStr p fileInfos h.fileInfoVec with
      | (false, fileInfoVec) => ({ h with fileInfoVec := fileInfoVec }, some fileInfos)
      | (true, fileInfoVec) =>
          ({ h with fileInfoVec := (checkFileInfos p h.disk directory fileInfoVec).2 },
            some fileInfos)

def init (fileServer : String) (disk : Disk String UInt8) : SysUpdateHandler × Option Bytes :=
  (start fileServer disk).loadLocalFileInfos p directory

end SysUpdateHandler

/-- The records that a published text describes. -/
def recordsIn (p : Platform) (text : Bytes) : List FileInfo :=
  ((filesOf p text).getD []).map fun tree => FileInfo.readFields p tree {}

variable {p : Platform}

theorem recordsIn_write {fileInfoVec : List FileInfo} (h : p.Preserves fileInfoVec) :
    recordsIn p (writeFileInfos2Str p fileInfoVec) = fileInfoVec := by
  rw [recordsIn, filesOf_write h, Option.getD_some, List.map_map]
  calc fileInfoVec.map ((fun tree => FileInfo.readFields p tree {}) ∘ FileInfo.toPtree)
    _ = fileInfoVec.map id := List.map_congr_left fun f hf => readFields_toPtree (h.numbers f hf)
    _ = fileInfoVec := List.map_id _

/-- Only without a type a record is loaded as it is described. -/
theorem load_eq_readFields_iff (tree : Ptree) :
    FileInfo.load p tree = FileInfo.readFields p tree {} ↔
      (FileInfo.readFields p tree {}).type = "" := by
  have htype : (FileInfo.readFields p tree {}).type = (tree.getString? "type").getD "" := rfl
  have hread : readType (tree.getString? "type") = (tree.getString? "type").getD "" ↔
      (tree.getString? "type").getD "" = "" := by
    cases tree.getString? "type" with
    | none => exact iff_of_true rfl rfl
    | some data => exact readType_eq_iff data
  rw [htype, ← hread]
  constructor
  · intro h
    exact congrArg FileInfo.type h
  · intro h
    rw [FileInfo.load, h]
    rfl

/-- What was loaded and checked is what the text describes exactly if no record has a type, and
the check removes none. -/
theorem check_load_iff (disk : Disk String UInt8) (directory : String → Bool)
    (files : List Ptree) :
    (checkFileInfos p disk directory (files.map (FileInfo.load p))).2 =
        files.map (fun tree => FileInfo.readFields p tree {}) ↔
      (∀ f ∈ files.map (fun tree => FileInfo.readFields p tree {}), f.type = "") ∧
        ∀ f ∈ (files.map fun tree => FileInfo.readFields p tree {}).takeWhile
          (isChecked p disk directory), isKept p disk directory f = true := by
  have hloads : files.map (FileInfo.load p) = files.map (fun tree => FileInfo.readFields p tree {}) ↔
      ∀ f ∈ files.map (fun tree => FileInfo.readFields p tree {}), f.type = "" := by
    rw [List.map_inj_left, List.forall_mem_map]
    exact forall₂_congr fun tree _ => load_eq_readFields_iff tree
  rw [← hloads, ← checkFileInfos_eq_self_iff]
  constructor
  · intro h
    have hlength := congrArg List.length h
    rw [List.length_map, ← List.length_map (f := FileInfo.load p)] at hlength
    have hall := (checkFileInfos_sublist disk directory _).eq_of_length hlength
    have hsame := hall.symm.trans h
    exact ⟨hsame, hsame ▸ hall⟩
  · rintro ⟨hsame, hall⟩
    rw [hsame]
    exact hall

/-! ## After `init` -/

namespace SysUpdateHandler

/-- The text that `init` finds describes no record with a type, and no record that the check
removes. -/
def StartsAgreed (p : Platform) (directory : String → Bool) (disk : Disk String UInt8) : Prop :=
  ∀ text, (start "" disk).localFileInfos p = some text →
    (∀ f ∈ recordsIn p text, f.type = "") ∧
      ∀ f ∈ (recordsIn p text).takeWhile (isChecked p disk directory),
        isKept p disk directory f = true

theorem localFileInfos_start (fileServer : String) (disk : Disk String UInt8) :
    (start fileServer disk).localFileInfos p = (start "" disk).localFileInfos p := rfl

theorem init_agrees_iff (directory : String → Bool) (fileServer : String)
    (disk : Disk String UInt8) (hempty : p.readJson [] = none) :
    recordsIn p ((init p directory fileServer disk).2.getD []) =
        (init p directory fileServer disk).1.fileInfoVec ↔ StartsAgreed p directory disk := by
  unfold init loadLocalFileInfos StartsAgreed
  rw [localFileInfos_start]
  cases hfile : (start "" disk).localFileInfos p with
  | none =>
      have hnone : recordsIn p [] = [] := by simp [recordsIn, filesOf, hempty]
      exact iff_of_true hnone (by simp)
  | some text =>
      simp only [Option.some.injEq, forall_eq']
      cases hfiles : filesOf p text with
      | none =>
          have hnone : recordsIn p text = [] := by simp [recordsIn, hfiles]
          have hload : loadFileInfosFromStr p text (start fileServer disk).fileInfoVec =
              (false, []) := by
            rw [loadFileInfosFromStr, hfiles]
            rfl
          rw [hload, hnone]
          exact iff_of_true hnone (by simp)
      | some files =>
          have hrecords : recordsIn p text = files.map fun tree =>
              FileInfo.readFields p tree {} := by
            rw [recordsIn, hfiles, Option.getD_some]
          have hload : loadFileInfosFromStr p text (start fileServer disk).fileInfoVec =
              (true, files.map (FileInfo.load p)) := by
            rw [loadFileInfosFromStr, hfiles]
            rfl
          rw [hload, hrecords, ← check_load_iff, eq_comm, Option.getD_some, hrecords]
          rfl

/-! ## What a notification does to the vector -/

theorem fileInfoVec_downloadUrl (h : SysUpdateHandler) (url dstFilename : String)
    (tr : Transfer) : (h.downloadUrl p url dstFilename tr).2.fileInfoVec = h.fileInfoVec := by
  unfold downloadUrl
  split
  · rfl
  · split
    · rfl
    · dsimp only
      split
      · rfl
      · rfl

theorem fileInfoVec_downloadFile (h : SysUpdateHandler) (t : FileInfo) (tr : Transfer) :
    (h.downloadFile p t tr).2.fileInfoVec = h.fileInfoVec := by
  have hurl := fileInfoVec_downloadUrl (p := p) h t.remotefileUrl t.savePath tr
  unfold downloadFile
  generalize h.downloadUrl p t.remotefileUrl t.savePath tr = result at hurl ⊢
  obtain ⟨answer, h'⟩ := result
  match answer with
  | none => exact hurl
  | some false => exact hurl
  | some true => exact hurl

def Publishes (p : Platform) (h h' : SysUpdateHandler) : Option Bytes → Prop
  | none => h'.fileInfoVec = h.fileInfoVec
  | some text => text = writeFileInfos2Str p h'.fileInfoVec

theorem publishes_onUpdateFileNtf {h h' : SysUpdateHandler} {t : FileInfo} {tr : Transfer}
    {published : Option Bytes} (hntf : h.onUpdateFileNtf p t tr = some (h', published)) :
    Publishes p h h' published := by
  have hvec := fileInfoVec_downloadFile (p := p) h t tr
  unfold onUpdateFileNtf at hntf
  generalize h.downloadFile p t tr = result at hvec hntf
  split at hntf
  · obtain ⟨rfl, rfl⟩ := Prod.mk.inj (Option.some.inj hntf)
    rfl
  · split at hntf
    · cases hntf
    · obtain ⟨rfl, rfl⟩ := Prod.mk.inj (Option.some.inj hntf)
      exact hvec
    · obtain ⟨rfl, rfl⟩ := Prod.mk.inj (Option.some.inj hntf)
      rfl

end SysUpdateHandler

/-! ## Runs -/

namespace MessageHandler

/-- `start`, with the `init` of the update handler, whose text is published to the handler. -/
def startFrom (p : Platform) (directory : String → Bool) (cfg : ClientConfig)
    (disk : Disk String UInt8) : MessageHandler :=
  let (sysUpdateHandler, published) := SysUpdateHandler.init p directory cfg.httpServer disk
  start cfg sysUpdateHandler (published.getD [])

def hear (p : Platform) (transfers : Nat → Transfer) (h : MessageHandler)
    (e : Nat × BusMessage) : Option MessageHandler :=
  if h.terminated then none else some (h.deliver p transfers e.1 e.2).1

def Reported (p : Platform) (h : MessageHandler) : Prop :=
  recordsIn p h.fileInfos = h.sysUpdateHandler.fileInfoVec

inductive Heard (p : Platform) (h h' : MessageHandler) : Prop
  | same (htext : h'.fileInfos = h.fileInfos)
      (hvec : h'.sysUpdateHandler.fileInfoVec = h.sysUpdateHandler.fileInfoVec)
  | published (htext : h'.fileInfos = writeFileInfos2Str p h'.sysUpdateHandler.fileInfoVec)

variable (transfers : Nat → Transfer)

theorem heard_onUpdateFileNtf (now : Nat) (h : MessageHandler) (body : Bytes) :
    Heard p h (h.onUpdateFileNtf p transfers now body).1 := by
  unfold onUpdateFileNtf
  split
  · exact .same rfl rfl
  · split
    · exact .same rfl rfl
    · rename_i hntf
      exact .same rfl (SysUpdateHandler.publishes_onUpdateFileNtf hntf)
    · rename_i hntf
      exact .published (SysUpdateHandler.publishes_onUpdateFileNtf hntf)

theorem heard_onReadBody (now : Nat) (h : MessageHandler) (msg : TcpMessage) :
    Heard p h (h.onReadBody p transfers now msg).1 := by
  unfold onReadBody
  split
  · unfold onHeartRsp
    split
    · exact .same rfl rfl
    · exact .same rfl rfl
  · split
    · exact .same rfl rfl
    · split
      · exact heard_onUpdateFileNtf transfers now h msg.body
      · exact .same rfl rfl

theorem heard_deliver (now : Nat) (msg : BusMessage) (h : MessageHandler) :
    Heard p h (h.deliver p transfers now msg).1 := by
  cases msg with
  | kMsgReadBody msg => exact heard_onReadBody transfers now h msg
  | _ => exact .same rfl rfl

variable {transfers}

theorem heard_of_hear {h h' : MessageHandler} {e : Nat × BusMessage}
    (hstep : hear p transfers h e = some h') : Heard p h h' := by
  obtain ⟨-, heq⟩ := Option.ite_none_left_eq_some.mp hstep
  obtain rfl := Option.some.inj heq
  exact heard_deliver transfers e.1 e.2 h

/-- What the updates publish is read back as it was written. -/
def ReadsBack (p : Platform) (h : MessageHandler) : Prop :=
  h.fileInfos = writeFileInfos2Str p h.sysUpdateHandler.fileInfoVec →
    p.Preserves h.sysUpdateHandler.fileInfoVec

theorem Heard.reported {h h' : MessageHandler} (hheard : Heard p h h') (hreported : Reported p h)
    (hreads : ReadsBack p h') : Reported p h' := by
  cases hheard with
  | same htext hvec =>
      rw [Reported, htext, hvec]
      exact hreported
  | published htext =>
      rw [Reported, htext]
      exact recordsIn_write (hreads htext)

/-- After `init`, and in every state that is reached from there, the reported text describes the
records, if and only if it does so at the start: the file describes no record with a type, and
none that the check removes. -/
theorem reported_iff {directory : String → Bool} {cfg : ClientConfig} {disk : Disk String UInt8}
    {es : List (Nat × BusMessage)} (hempty : p.readJson [] = none)
    (hreads : ∀ fs m, fs <+: es →
      run (hear p transfers) (startFrom p directory cfg disk) fs = some m → ReadsBack p m) :
    (∀ fs m, fs <+: es → run (hear p transfers) (startFrom p directory cfg disk) fs = some m →
        Reported p m) ↔ SysUpdateHandler.StartsAgreed p directory disk := by
  have hstart : Reported p (startFrom p directory cfg disk) ↔
      SysUpdateHandler.StartsAgreed p directory disk :=
    SysUpdateHandler.init_agrees_iff directory cfg.httpServer disk hempty
  rw [← hstart]
  constructor
  · intro h
    exact h [] _ List.nil_prefix rfl
  · intro hinit fs m hfs hm
    refine run_of_prefixes (Q := ReadsBack p) (P := fun _ _ => True) ?_ hinit ?_ ?_ hm
    · intro s e s' hs _ hreads' _ hstep
      exact (heard_of_hear hstep).reported hs hreads'
    · intro gs m' hgs hm'
      exact hreads gs m' (hgs.trans hfs) hm'
    · exact allSteps_true _ _

/-! ## A file that is not there -/

def olderRecord : FileInfo :=
  { filesize := 1, md5 := "0cc175b9c0f1b6a831c399e269772661", savePath := "/d/x"
    remotefileUrl := "download/x", filename := "x" }

def newerRecord : FileInfo :=
  { filesize := 1, md5 := "92eb5ffee6ae2fec3ad71c777531578f", savePath := "/d/y"
    remotefileUrl := "download/y", filename := "y" }

def newerNtf : Ptree := Ptree.empty.putChild "data" newerRecord.toPtree

def recordsPlatform : Platform :=
  readingPlatform [fileInfosTree [olderRecord], newerNtf, fileInfosTree [olderRecord, newerRecord]]

/-- `file_infos.json` with the older record, and the files that are there besides. -/
def recordsDisk (files : List (String × Bytes)) : Disk String UInt8 :=
  ⟨fun name =>
    List.lookup name (("/app/file_infos.json", (fileInfosTree [olderRecord]).jsonBytes) :: files)⟩

def sampleConfig : ClientConfig := ⟨true, 5000, 10000, "http://127.0.0.1:8010", ""⟩

def pushNewer : Nat × BusMessage :=
  (0, .kMsgReadBody { msgType := kUpdateFileNtf, body := newerNtf.jsonBytes })

theorem preserves_older : recordsPlatform.Preserves [olderRecord] := by
  refine preserves_reading (List.find?_cons_of_pos (decide_eq_true rfl)) ?_
  decide

theorem preserves_both : recordsPlatform.Preserves [olderRecord, newerRecord] := by
  refine preserves_reading ?_ (by decide)
  rw [List.find?_cons_of_neg (by decide +kernel), List.find?_cons_of_neg (by decide +kernel)]
  exact List.find?_cons_of_pos (decide_eq_true rfl)

theorem readJson_empty : recordsPlatform.readJson [] = none := by
  simp [recordsPlatform, readingPlatform, Ptree.jsonBytes]

theorem reported_of_push :
    ∃ m, run (hear recordsPlatform fun _ => ⟨true, 1, [0x62]⟩)
        (startFrom recordsPlatform (fun _ => false) sampleConfig
          (recordsDisk [("download/x", [0x61])])) [pushNewer] = some m ∧
      Reported recordsPlatform m := by
  have hafter : (run (hear recordsPlatform fun _ => ⟨true, 1, [0x62]⟩)
      (startFrom recordsPlatform (fun _ => false) sampleConfig
        (recordsDisk [("download/x", [0x61])])) [pushNewer]).map
          (·.sysUpdateHandler.fileInfoVec) = some [olderRecord, newerRecord] := by
    decide +kernel
  obtain ⟨m, hrun, hvec⟩ := Option.map_eq_some_iff.mp hafter
  refine ⟨m, hrun, (reported_iff readJson_empty ?_).mpr ?_ _ m (List.prefix_refl _) hrun⟩
  · intro fs m' hfs hm' _
    cases fs with
    | nil =>
        obtain rfl := Option.some.inj hm'
        have hbefore : (startFrom recordsPlatform (fun _ => false) sampleConfig
            (recordsDisk [("download/x", [0x61])])).sysUpdateHandler.fileInfoVec =
              [olderRecord] := by
          decide +kernel
        rw [hbefore]
        exact preserves_older
    | cons e fs =>
        obtain ⟨rfl, hnil⟩ := List.cons_prefix_cons.mp hfs
        obtain rfl := List.prefix_nil.mp hnil
        obtain rfl := Option.some.inj (hrun.symm.trans hm')
        rw [hvec]
        exact preserves_both
  · intro text htext
    have hlocal : (SysUpdateHandler.start "" (recordsDisk [("download/x", [0x61])])).localFileInfos
        recordsPlatform = some (fileInfosTree [olderRecord]).jsonBytes := by
      decide +kernel
    obtain rfl := Option.some.inj (hlocal.symm.trans htext)
    decide +kernel

/-- The file of the record is gone: the record is discarded, and reported. -/
theorem reports_discarded : ¬ ∀ (p : Platform) (transfers : Nat → Transfer)
    (directory : String → Bool) (cfg : ClientConfig) (disk : Disk String UInt8)
    (es : List (Nat × BusMessage)) (m : MessageHandler), p.readJson [] = none →
    run (hear p transfers) (startFrom p directory cfg disk) es = some m → Reported p m := by
  intro h
  have hreported := h recordsPlatform (fun _ => ⟨true, 1, [0x62]⟩) (fun _ => false) sampleConfig
    (recordsDisk []) [] _ readJson_empty rfl
  have hdiffer : recordsIn recordsPlatform
      (startFrom recordsPlatform (fun _ => false) sampleConfig (recordsDisk [])).fileInfos ≠
        (startFrom recordsPlatform (fun _ => false) sampleConfig
          (recordsDisk [])).sysUpdateHandler.fileInfoVec := by
    decide +kernel
  exact hdiffer hreported

end MessageHandler

end CloudEdgePush.Client
