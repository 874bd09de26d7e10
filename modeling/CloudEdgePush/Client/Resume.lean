import CloudEdgePush.Lib.Transition
import CloudEdgePush.Client.Download

/-!
# Resuming a download after a restart

A restart of the process keeps the disk, hence the `.tmp` file that the next range request
starts from, and loses the counter that decides when the file is complete.  A run here is a
sequence of attempts to download one file and of restarts.

* `resumed_iff` — the attempt that appends the last missing byte returns true and leaves the
  remote file, exactly if the process that makes it has received the `.tmp` file alone.
-/

namespace CloudEdgePush.Client.SysUpdateHandler

open CloudEdgePush.Lib CloudEdgePush.Lib.Transition

variable {p : Platform}

/-- A file of the server that does not change, and where it is downloaded to. -/
structure RemoteFile where
  url : String
  dst : String
  content : Bytes
  url_ne : url ≠ ""
  dst_ne : dst ≠ ""
  length_lt : content.length < 2 ^ 64

namespace RemoteFile

def transfer (f : RemoteFile) (directory : Bool) (body : Bytes) : Transfer :=
  ⟨directory, f.content.length, body⟩

@[simp] theorem transfer_body (f : RemoteFile) (directory : Bool) (body : Bytes) :
    (f.transfer directory body).body = body := rfl

def Begins (f : RemoteFile) (directory : Bool) (body : Bytes) : Prop :=
  SysUpdateHandler.Begins f.url f.dst (f.transfer directory body)

instance (f : RemoteFile) (directory : Bool) (body : Bytes) :
    Decidable (f.Begins directory body) :=
  inferInstanceAs (Decidable (SysUpdateHandler.Begins _ _ _))

end RemoteFile

/-- The process, and how many bytes of the `.tmp` file were received before it was started. -/
structure Resuming where
  handler : SysUpdateHandler
  carried : Nat

namespace Resuming

def tmpContent (p : Platform) (f : RemoteFile) (s : Resuming) : Bytes :=
  s.handler.partialContent p f.dst

def boot (p : Platform) (f : RemoteFile) (h : SysUpdateHandler) : Resuming :=
  let h := { h with totalSize := 0 }
  ⟨h, (h.partialContent p f.dst).length⟩

inductive Occurrence
  | attempt (directory : Bool) (body : Bytes)
  | restart
deriving DecidableEq, Repr

/-- A response is a beginning of the range that was asked for. -/
def step (p : Platform) (f : RemoteFile) (s : Resuming) : Occurrence → Option Resuming
  | .attempt directory body =>
      if body <+: f.content.drop (s.tmpContent p f).length then
        let (done, h) := s.handler.downloadUrl p f.url f.dst (f.transfer directory body)
        some ⟨h, if done = some true then 0 else s.carried⟩
      else none
  | .restart => some (boot p f s.handler)

def LastByte (p : Platform) (f : RemoteFile) (s : Resuming) (directory : Bool) (body : Bytes) :
    Prop :=
  f.Begins directory body ∧ body ≠ [] ∧ s.tmpContent p f ++ body = f.content

instance (p : Platform) (f : RemoteFile) (s : Resuming) (directory : Bool) (body : Bytes) :
    Decidable (LastByte p f s directory body) := inferInstanceAs (Decidable (_ ∧ _))

def Resumes (p : Platform) (f : RemoteFile) (s : Resuming) : Occurrence → Prop
  | .attempt directory body => LastByte p f s directory body →
      (s.handler.downloadUrl p f.url f.dst (f.transfer directory body)).1 = some true ∧
        (s.handler.downloadUrl p f.url f.dst (f.transfer directory body)).2.fileAt p f.dst =
          some f.content
  | .restart => True

def ReceivedHere (p : Platform) (f : RemoteFile) (s : Resuming) : Occurrence → Prop
  | .attempt directory body => LastByte p f s directory body → s.carried = 0
  | .restart => True

/-- As long as bytes are missing, the counter misses those of earlier processes. -/
def Accounted (p : Platform) (f : RemoteFile) (s : Resuming) : Prop :=
  (s.tmpContent p f).length < f.content.length →
    s.handler.totalSize.toNat + s.carried = (s.tmpContent p f).length

theorem boot_accounted (p : Platform) (f : RemoteFile) (h : SysUpdateHandler) :
    Accounted p f (boot p f h) := by
  intro _
  exact Nat.zero_add _

/-! ## The counter -/

theorem length_le_of_range {start body whole : Bytes} (hrange : body <+: whole.drop start.length)
    (hmissing : start.length < whole.length) : (start ++ body).length ≤ whole.length := by
  have hle := hrange.length_le
  rw [List.length_drop] at hle
  rw [List.length_append]
  omega

theorem counter_add {f : RemoteFile} {s : Resuming} {body : Bytes} (hcount : Accounted p f s)
    (hrange : body <+: f.content.drop (s.tmpContent p f).length)
    (hmissing : (s.tmpContent p f).length < f.content.length) :
    (s.handler.totalSize + UInt64.ofNat body.length).toNat + s.carried =
      (s.tmpContent p f ++ body).length := by
  have hle := length_le_of_range hrange hmissing
  have hlt := f.length_lt
  have hcounter := hcount hmissing
  rw [List.length_append] at hle ⊢
  rw [UInt64.toNat_add, UInt64.toNat_ofNat']
  omega

theorem completes_iff {f : RemoteFile} {s : Resuming} {directory : Bool} {body : Bytes}
    (hcount : Accounted p f s) (hlast : LastByte p f s directory body) :
    s.handler.Completes (f.transfer directory body) ↔ s.carried = 0 := by
  obtain ⟨-, hbody, hwhole⟩ := hlast
  have hlength := congrArg List.length hwhole
  have hpos := List.length_pos_iff.mpr hbody
  have hmissing : (s.tmpContent p f).length < f.content.length := by
    rw [List.length_append] at hlength
    omega
  have hdrop : f.content.drop (s.tmpContent p f).length = body := by
    rw [← hwhole, List.drop_left]
  have hrange : body <+: f.content.drop (s.tmpContent p f).length := by
    simp only [hdrop, List.prefix_rfl]
  have hcounter := counter_add hcount hrange hmissing
  rw [Completes, UInt64.le_iff_toNat_le, RemoteFile.transfer_body, RemoteFile.transfer,
    toNat_ofInt_length f.length_lt]
  omega

/-! ## Attempts and restarts -/

theorem full_of_completes {f : RemoteFile} {s : Resuming} {directory : Bool} {body : Bytes}
    (hcount : Accounted p f s) (hrange : body <+: f.content.drop (s.tmpContent p f).length)
    (hcomplete : s.handler.Completes (f.transfer directory body)) :
    f.content.length ≤ (s.tmpContent p f ++ body).length := by
  by_cases hmissing : (s.tmpContent p f).length < f.content.length
  · have hcounter := counter_add hcount hrange hmissing
    rw [Completes, UInt64.le_iff_toNat_le, RemoteFile.transfer_body, RemoteFile.transfer,
      toNat_ofInt_length f.length_lt] at hcomplete
    omega
  · rw [List.length_append]
    omega

theorem attempt_accounted {f : RemoteFile} {s : Resuming} {directory : Bool} {body : Bytes}
    (hcount : Accounted p f s) (hrange : body <+: f.content.drop (s.tmpContent p f).length) :
    Accounted p f
      ⟨(s.handler.downloadUrl p f.url f.dst (f.transfer directory body)).2,
        if (s.handler.downloadUrl p f.url f.dst (f.transfer directory body)).1 = some true then 0
        else s.carried⟩ := by
  unfold Accounted tmpContent
  by_cases hbegins : f.Begins directory body
  · by_cases hcomplete : s.handler.Completes (f.transfer directory body)
    · by_cases hlink : p.canon (tmpFilename f.dst) = p.canon f.dst
      · -- the `.tmp` file is the destination, and stays
        have hfull := full_of_completes hcount hrange hcomplete
        have htmp : (s.handler.downloadUrl p f.url f.dst
            (f.transfer directory body)).2.partialContent p f.dst = s.tmpContent p f ++ body := by
          rw [partialContent, Disk.contentOf, hlink]
          exact congrArg (Option.getD · []) (fileAt_downloadUrl_complete hbegins hcomplete)
        rw [htmp]
        intro hmissing
        omega
      · rw [partialContent_complete hlink hbegins hcomplete,
          downloadUrl_complete hbegins hcomplete]
        intro _
        rfl
    · rw [partialContent_incomplete hbegins hcomplete, downloadUrl_incomplete hbegins hcomplete]
      intro hmissing
      have hlt : (s.tmpContent p f).length < f.content.length := by
        rw [received, RemoteFile.transfer_body, List.length_append] at hmissing
        exact Nat.lt_of_le_of_lt (Nat.le_add_right _ _) hmissing
      exact counter_add hcount hrange hlt
  · obtain ⟨hnot, hsame⟩ := downloadUrl_not_begins (p := p) s.handler hbegins
    dsimp only
    rw [if_neg hnot, hsame]
    exact hcount

theorem step_accounted {f : RemoteFile} {s s' : Resuming} {o : Occurrence}
    (hcount : Accounted p f s) (hstep : s.step p f o = some s') : Accounted p f s' := by
  cases o with
  | attempt directory body =>
      rw [step] at hstep
      split at hstep
      · rename_i hrange
        obtain rfl := Option.some.inj hstep
        exact attempt_accounted hcount hrange
      · cases hstep
  | restart =>
      obtain rfl := Option.some.inj hstep
      exact boot_accounted p f s.handler

theorem resumes_iff {f : RemoteFile} {s : Resuming} (hcount : Accounted p f s) (o : Occurrence) :
    Resumes p f s o ↔ ReceivedHere p f s o := by
  cases o with
  | attempt directory body =>
      refine forall_congr' fun hlast => ?_
      have hbegins := hlast.1
      rw [← completes_iff hcount hlast]
      constructor
      · rintro ⟨hdone, -⟩
        by_contra hcomplete
        rw [downloadUrl_incomplete hbegins hcomplete] at hdone
        cases hdone
      · intro hcomplete
        refine ⟨?_, ?_⟩
        · rw [downloadUrl_complete hbegins hcomplete]
        · rw [fileAt_downloadUrl_complete hbegins hcomplete]
          exact congrArg some hlast.2.2
  | restart => exact Iff.rfl

/-- For every file, disk and run of attempts and restarts: all attempts that append the last
missing byte of the `.tmp` file succeed and leave the remote file, if and only if none of them
continues a `.tmp` file that an earlier process began. -/
theorem resumed_iff (p : Platform) (f : RemoteFile) (h : SysUpdateHandler) (os : List Occurrence) :
    AllSteps (step p f) (Resumes p f) (boot p f h) os ↔
      AllSteps (step p f) (ReceivedHere p f) (boot p f h) os :=
  allSteps_congr_of_invariant (fun _ _ _ => step_accounted) (fun _ o hcount => resumes_iff hcount o)
    (boot_accounted p f h) os

def sampleFile : RemoteFile :=
  ⟨"up/a", "/d/a", [1, 2, 3, 4, 5, 6], by decide, by decide, by decide⟩

def halves : List Occurrence := [.attempt true [1, 2, 3], .restart, .attempt true [4, 5, 6]]

theorem halves_not_resumed : ¬ ∀ (p : Platform) (f : RemoteFile) (fileServer : String)
    (disk : Disk String UInt8) (os : List Occurrence),
    AllSteps (step p f) (Resumes p f) (boot p f (start fileServer disk)) os := by
  intro h
  have hall := h samplePlatform sampleFile "http://127.0.0.1:8010" ⟨fun _ => none⟩ halves
  obtain ⟨-, hrest⟩ := hall
  obtain ⟨-, hrest⟩ := hrest _ rfl
  have hlast := (hrest _ rfl).1
  exact absurd (hlast (by decide)).1 (by decide)

end Resuming

end CloudEdgePush.Client.SysUpdateHandler
