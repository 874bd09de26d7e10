import CloudEdgePush.Client.RecordList
import CloudEdgePush.Client.Subscriber
import CloudEdgePush.Client.MessageHandler

/-!
# The updates of a client

Of all messages on the bus only notifications that can be decoded reach `SysUpdateHandler`, one
after the other, each with the transfer of its number (`Handles`).  While every transfer brings the
whole of an announced file, and the files are `Apart`, every file is there in the end
(`files_of_run`), whatever was skipped.
-/

namespace CloudEdgePush.Client

open CloudEdgePush.Lib CloudEdgePush.Lib.Transition SysUpdateHandler

/-! ## From messages to notifications -/

/-- The notification that a message on `kMsgReadBody` brings, by its type and body. -/
def notification (p : Platform) (content : UInt32 × Bytes) : Option FileInfo :=
  if kUpdateFileNtf = content.1 then decodeDownloadFileInfo p content.2 else none

/-- Notifications with the transfers of their numbers, from `n` on. -/
def pushes (transfers : Nat → Transfer) (n : Nat) : List FileInfo → List Push
  | [] => []
  | t :: ts => ⟨t, transfers n⟩ :: pushes transfers (n + 1) ts

theorem pushes_append (transfers : Nat → Transfer) (n : Nat) (ts us : List FileInfo) :
    pushes transfers n (ts ++ us) =
      pushes transfers n ts ++ pushes transfers (n + ts.length) us := by
  induction ts generalizing n with
  | nil => rfl
  | cons t ts ih =>
      have hnumber : n + 1 + ts.length = n + (t :: ts).length := by
        rw [List.length_cons]
        omega
      rw [List.cons_append, pushes, pushes, ih, hnumber, List.cons_append]

namespace MessageHandler

variable {p : Platform} {transfers : Nat → Transfer}

/-- From `h` to `h'` the notifications `ts` were handled, up to one that ended the process. -/
structure Handles (p : Platform) (transfers : Nat → Transfer) (h h' : MessageHandler)
    (ts : List FileInfo) : Prop where
  stays : h.terminated = true → h'.terminated = true
  ended : h.terminated = false → h'.terminated = true →
    run (notify p) h.sysUpdateHandler (pushes transfers h.notified ts) = none
  handled : h'.terminated = false →
    run (notify p) h.sysUpdateHandler (pushes transfers h.notified ts) = some h'.sysUpdateHandler
  notified : h'.terminated = false → h'.notified = h.notified + ts.length

namespace Handles

variable {h h' h'' : MessageHandler} {ts us : List FileInfo}

theorem running (hhandles : Handles p transfers h h' ts) (hrunning : h'.terminated = false) :
    h.terminated = false := by
  rw [Bool.eq_false_iff] at hrunning ⊢
  exact fun hended => hrunning (hhandles.stays hended)

theorem trans (h₁ : Handles p transfers h h' ts) (h₂ : Handles p transfers h' h'' us) :
    Handles p transfers h h'' (ts ++ us) := by
  refine ⟨fun hended => h₂.stays (h₁.stays hended), fun hrunning hended => ?_, fun hrunning => ?_,
    fun hrunning => ?_⟩
  · rw [pushes_append, run_append]
    cases hmiddle : h'.terminated with
    | true => rw [h₁.ended hrunning hmiddle, Option.bind_none]
    | false =>
        rw [h₁.handled hmiddle, Option.bind_some, ← h₁.notified hmiddle]
        exact h₂.ended hmiddle hended
  · have hmiddle := h₂.running hrunning
    rw [pushes_append, run_append, h₁.handled hmiddle, Option.bind_some, ← h₁.notified hmiddle]
    exact h₂.handled hrunning
  · rw [h₂.notified hrunning, h₁.notified (h₂.running hrunning), List.length_append, Nat.add_assoc]

theorem alive (hterminated : h'.terminated = h.terminated)
    (hrun : run (notify p) h.sysUpdateHandler (pushes transfers h.notified ts) =
      some h'.sysUpdateHandler)
    (hnotified : h'.notified = h.notified + ts.length) : Handles p transfers h h' ts := by
  refine ⟨fun hended => hterminated.trans hended, fun hrunning hended => ?_, fun _ => hrun,
    fun _ => hnotified⟩
  rw [hterminated, hrunning] at hended
  cases hended

theorem same (hterminated : h'.terminated = h.terminated)
    (hhandler : h'.sysUpdateHandler = h.sysUpdateHandler) (hnotified : h'.notified = h.notified) :
    Handles p transfers h h' [] := by
  refine alive hterminated ?_ hnotified
  rw [hhandler]
  rfl

end Handles

theorem handles_onUpdateFileNtf (now : Nat) (h : MessageHandler) (body : Bytes) :
    Handles p transfers h (h.onUpdateFileNtf p transfers now body).1
      (decodeDownloadFileInfo p body).toList := by
  unfold onUpdateFileNtf
  cases decodeDownloadFileInfo p body with
  | none => exact .same rfl rfl rfl
  | some t =>
      have hrun : run (notify p) h.sysUpdateHandler (pushes transfers h.notified [t]) =
          (h.sysUpdateHandler.onUpdateFileNtf p t (transfers h.notified)).map Prod.fst := by
        exact Option.bind_fun_some _
      dsimp only [Option.toList_some]
      cases hntf : h.sysUpdateHandler.onUpdateFileNtf p t (transfers h.notified) with
      | none =>
          rw [hntf] at hrun
          exact ⟨fun _ => rfl, fun _ _ => hrun, nofun, nofun⟩
      | some next =>
          obtain ⟨sysUpdateHandler, fileInfos⟩ := next
          rw [hntf] at hrun
          cases fileInfos with
          | none => exact .alive rfl hrun rfl
          | some fileInfos => exact .alive rfl hrun rfl

theorem handles_onReadBody (now : Nat) (h : MessageHandler) (msg : TcpMessage) :
    Handles p transfers h (h.onReadBody p transfers now msg).1
      (notification p (msg.msgType, msg.body)).toList := by
  unfold onReadBody notification
  split
  · rename_i hheart
    rw [← hheart, if_neg (show kUpdateFileNtf ≠ kHeartRsp by decide)]
    unfold onHeartRsp
    split
    · exact .same rfl rfl rfl
    · exact .same rfl rfl rfl
  · split
    · rename_i hlogin
      rw [← hlogin, if_neg (show kUpdateFileNtf ≠ kLoginRsp by decide)]
      exact .same rfl rfl rfl
    · split
      · exact handles_onUpdateFileNtf now h msg.body
      · exact .same rfl rfl rfl

theorem handles_deliver (now : Nat) (msg : BusMessage) (h : MessageHandler) :
    Handles p transfers h (h.deliver p transfers now msg).1
      (msg.content.bind (notification p)).toList := by
  cases msg with
  | kMsgReadBody msg => exact handles_onReadBody now h msg
  | _ => exact .same rfl rfl rfl

theorem handles_hearing (h : MessageHandler) (heard : List (Nat × BusMessage)) :
    Handles p transfers h (TcpClientImpl.hearing (bus p transfers) h heard)
      (((heard.map Prod.snd).filterMap BusMessage.content).filterMap (notification p)) := by
  induction heard generalizing h with
  | nil => exact .same rfl rfl rfl
  | cons m heard ih =>
      have hfirst : Handles p transfers h (h.deliver p transfers m.1 m.2).1
          (m.2.content.bind (notification p)).toList := handles_deliver m.1 m.2 h
      have hall := hfirst.trans (ih (h.deliver p transfers m.1 m.2).1)
      have hsplit : ((m :: heard).map Prod.snd |>.filterMap BusMessage.content).filterMap
            (notification p) =
          (m.2.content.bind (notification p)).toList ++
            ((heard.map Prod.snd).filterMap BusMessage.content).filterMap (notification p) := by
        rw [List.map_cons, List.filterMap_filterMap, List.filterMap_filterMap, List.filterMap_cons]
        cases m.2.content.bind (notification p) with
        | none => rfl
        | some t => rfl
      rw [hsplit]
      exact hall

/-- Whatever the client does: what the update handler has is the outcome of the notifications among
the bodies that were published meanwhile. -/
theorem handles_of_hears {c c' : TcpClientImpl MessageHandler}
    (h : TcpClientImpl.Hears (bus p transfers) c c') :
    ∃ contents, c'.publishedBodies = c.publishedBodies ++ contents ∧
      Handles p transfers c.sub c'.sub (contents.filterMap (notification p)) := by
  obtain ⟨heard, hsub, hmessages⟩ := h
  refine ⟨(heard.map Prod.snd).filterMap BusMessage.content, ?_, ?_⟩
  · rw [← TcpClientImpl.filterMap_content, hmessages, List.filterMap_append,
      TcpClientImpl.filterMap_content]
  · rw [hsub]
    exact handles_hearing c.sub heard

end MessageHandler

namespace SysUpdateHandler

variable {p : Platform} {h h' : SysUpdateHandler} {e : Push} {files : List FileInfo}

/-! ## Whole transfers -/

/-- There is a directory for the announced file, and the server sends the whole of it, below 2 GiB,
at once. -/
structure Brings (p : Platform) (e : Push) : Prop where
  begins : Begins e.info.remotefileUrl e.info.savePath e.transfer
  fileLength : e.transfer.fileLength = e.transfer.body.length
  length_lt : e.transfer.body.length < 2 ^ 31
  describes : Describes p e.info e.transfer.body

/-- No file is the `.tmp` file of another, or `file_infos.json`; files at one place, or with one
digest, have one name. -/
structure Apart (p : Platform) (files : List FileInfo) : Prop where
  tmp : ∀ t ∈ files, ∀ u ∈ files, p.canon (tmpFilename t.savePath) ≠ p.canon u.savePath
  records : ∀ t ∈ files, p.canon t.savePath ≠ p.canon (fileInfosPath p) ∧
    p.canon (tmpFilename t.savePath) ≠ p.canon (fileInfosPath p)
  named : ∀ t ∈ files, ∀ u ∈ files,
    p.canon t.savePath = p.canon u.savePath ∨ iequals t.md5 u.md5 = true → name t = name u

/-- Nothing was received in part, and the records are about `files` and right. -/
structure Stocked (p : Platform) (files : List FileInfo) (h : SysUpdateHandler) : Prop where
  counter : h.totalSize = 0
  fresh : ∀ t ∈ files, h.partialContent p t.savePath = []
  known : ∀ f ∈ h.fileInfoVec, f ∈ files
  unique : Unique h.fileInfoVec
  recorded : Recorded p h

theorem Brings.completes (hbrings : Brings p e) (hcounter : h.totalSize = 0) :
    h.Completes e.transfer := by
  have hlt := hbrings.length_lt
  rw [Completes, hcounter, UInt64.zero_add, hbrings.fileLength, UInt64.le_iff_toNat_le,
    toNat_ofInt_length (by omega), UInt64.toNat_ofNat', Nat.mod_eq_of_lt (by omega)]

theorem received_fresh {dst : String} (hfresh : h.partialContent p dst = []) (tr : Transfer) :
    h.received p dst tr = tr.body := by
  rw [received, hfresh, List.nil_append]

theorem Brings.verdict (hbrings : Brings p e) :
    verdict p e.info e.transfer.body = some true := by
  rw [SysUpdateHandler.verdict, getMd5_of_lt p hbrings.length_lt, Option.map_some,
    hbrings.describes.1, hbrings.describes.2, beq_self_eq_true, Bool.and_self]

/-! ## One notification -/

def downloaded (p : Platform) (h : SysUpdateHandler) (e : Push) : SysUpdateHandler :=
  ((h.downloadUrl p e.info.remotefileUrl e.info.savePath e.transfer).2.updateFileInfos p e.info).1

theorem file_downloaded_of_ne (hbrings : Brings p e) (hcounter : h.totalSize = 0) {n : String}
    (htmp : n ≠ p.canon (tmpFilename e.info.savePath)) (hdst : n ≠ p.canon e.info.savePath)
    (hjson : n ≠ p.canon (fileInfosPath p)) :
    (downloaded p h e).disk.file n = h.disk.file n := by
  have hupdate : (downloaded p h e).disk.file n =
      (h.downloadUrl p e.info.remotefileUrl e.info.savePath e.transfer).2.disk.file n :=
    (Disk.write_of_ne _ hjson _).trans (Disk.remove_of_ne _ hjson)
  rw [hupdate, downloadUrl_complete hbrings.begins (hbrings.completes hcounter)]
  exact (Disk.rename_of_ne _ htmp hdst).trans (Disk.append_of_ne _ htmp _)

theorem partialContent_downloaded (hbrings : Brings p e) (hcounter : h.totalSize = 0)
    (hdst : p.canon (tmpFilename e.info.savePath) ≠ p.canon e.info.savePath)
    (hjson : p.canon (tmpFilename e.info.savePath) ≠ p.canon (fileInfosPath p)) :
    (downloaded p h e).partialContent p e.info.savePath = [] := by
  rw [← partialContent_complete (p := p) hdst hbrings.begins (hbrings.completes hcounter)]
  exact congrArg (Option.getD · []) ((Disk.write_of_ne _ hjson _).trans (Disk.remove_of_ne _ hjson))

theorem fileInfoVec_downloaded (hbrings : Brings p e) (hcounter : h.totalSize = 0) :
    (downloaded p h e).fileInfoVec = putRecord e.info h.fileInfoVec := by
  rw [downloaded, downloadUrl_complete hbrings.begins (hbrings.completes hcounter)]
  rfl

theorem name_of_sameRecord (hapart : Apart p files) {t f : FileInfo} (ht : t ∈ files)
    (hf : f ∈ files) (hsame : sameRecord t f = true) : name f = name t := by
  simp only [sameRecord, Bool.or_eq_true, Bool.and_eq_true, decide_eq_true_eq] at hsame
  rcases hsame with hmd5 | ⟨hfilename, htype⟩
  · exact hapart.named f hf t ht (.inr hmd5)
  · exact Prod.ext hfilename htype

/-- With one record a name, no record that stays has the name of the one that is put. -/
theorem name_of_kept {t f : FileInfo} {fileInfoVec : List FileInfo} (hunique : Unique fileInfoVec)
    (hnamed : ∀ g ∈ fileInfoVec, sameRecord t g = true → name g = name t)
    (hf : f ∈ fileInfoVec.eraseP (sameRecord t)) : name f ≠ name t := by
  intro hname
  have hmem := List.mem_of_mem_eraseP hf
  obtain ⟨g, before, after, -, hsame, hvec, herased⟩ :=
    List.exists_of_eraseP hmem (sameRecord_of_name hname)
  rw [herased] at hf
  rw [hvec, Unique, List.map_append, List.map_cons, List.nodup_middle, List.nodup_cons,
    ← List.map_append] at hunique
  have hg : name g = name t := hnamed g (by simp [hvec]) hsame
  exact hunique.1 (hg.trans hname.symm ▸ List.mem_map_of_mem hf)

namespace Stocked

theorem of_empty (hcounter : h.totalSize = 0) (hvec : h.fileInfoVec = [])
    (hfresh : ∀ t ∈ files, h.partialContent p t.savePath = []) : Stocked p files h := by
  refine ⟨hcounter, hfresh, ?_, ?_, ?_⟩
  · rw [hvec]
    exact nofun
  · rw [hvec]
    exact List.nodup_nil
  · rw [Recorded, hvec]
    exact nofun

theorem unique_put (h' : Stocked p files h) (hapart : Apart p files) {t : FileInfo}
    (ht : t ∈ files) : Unique (putRecord t h.fileInfoVec) := by
  rw [putRecord_eq]
  refine (nodup_replaceFirst_iff h'.unique fun f _ hname => sameRecord_of_name hname).mpr ?_
  intro f hfind
  have hf := h'.known f (List.mem_of_find?_eq_some hfind)
  exact .inl (name_of_sameRecord hapart ht hf (List.find?_some hfind))

theorem harmless (h' : Stocked p files h) (hapart : Apart p files) (he : e.info ∈ files)
    (hbrings : Brings p e) : Harmless p h e := by
  have hcomplete := hbrings.completes h'.counter
  have hreceived := received_fresh (h'.fresh _ he) e.transfer
  refine ⟨fun hc => absurd hcomplete hc, fun _ hfalse => ?_, fun _ _ f hf => ?_⟩
  · rw [hreceived, hbrings.verdict] at hfalse
    cases hfalse
  · rw [hreceived]
    rcases hf with rfl | hkept
    · rw [if_neg (hapart.records _ he).1]
      exact fun _ => hbrings.describes
    · have hfiles := h'.known f (List.mem_of_mem_eraseP hkept)
      rw [if_neg (hapart.records f hfiles).1]
      intro hplace
      have hname := name_of_kept h'.unique
        (fun g hg => name_of_sameRecord hapart he (h'.known g hg)) hkept
      exact absurd (hapart.named f hfiles _ he (.inl hplace)) hname

theorem downloaded (h' : Stocked p files h) (hapart : Apart p files) (he : e.info ∈ files)
    (hbrings : Brings p e) (hstep : notify p h e = some (h.downloaded p e)) :
    Stocked p files (h.downloaded p e) := by
  have hrecords := fileInfoVec_downloaded (p := p) hbrings h'.counter
  refine ⟨?_, fun t ht => ?_, fun f hf => ?_, ?_, ?_⟩
  · rw [SysUpdateHandler.downloaded,
      downloadUrl_complete hbrings.begins (hbrings.completes h'.counter)]
    rfl
  · by_cases htmp : p.canon (tmpFilename t.savePath) = p.canon (tmpFilename e.info.savePath)
    · have hgone := partialContent_downloaded hbrings h'.counter (hapart.tmp _ he _ he)
        (hapart.records _ he).2
      rw [partialContent, htmp]
      exact hgone
    · have hsame := file_downloaded_of_ne hbrings h'.counter htmp (hapart.tmp t ht _ he)
        (hapart.records t ht).2
      rw [partialContent, Disk.contentOf, hsame]
      exact h'.fresh t ht
  · rw [hrecords, mem_putRecord] at hf
    rcases hf with rfl | hkept
    · exact he
    · exact h'.known f (List.mem_of_mem_eraseP hkept)
  · rw [hrecords]
    exact h'.unique_put hapart he
  · exact (notify_recorded_iff h'.recorded hstep).mpr fun _ => h'.harmless hapart he hbrings

end Stocked

end SysUpdateHandler

end CloudEdgePush.Client
