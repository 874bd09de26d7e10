import CloudEdgePush.Lib.Transition
import CloudEdgePush.Client.Download

/-!
# Whose bytes the counter holds

`s_totalSize` counts the bytes of all downloads since it was last zero, and it decides when a file
is complete.  A history of attempts keeps a ledger beside it: how many bytes were counted for which
`.tmp` file.

* `history_exact_iff` — the attempts that succeed leave the remote file, exactly if the counter
  never holds as many bytes of other files as it lacks of the one that is continued, and stays
  short of the announced length when the file is not continued;
* `single_file_exact` — so they do when one destination is downloaded to and continued.
-/

namespace CloudEdgePush.Client.SysUpdateHandler

open CloudEdgePush.Lib CloudEdgePush.Lib.Transition

variable {p : Platform}

/-- One call of `downloadFile(url, dst)`: the remote file at that time, whether its length is
reported, and the bytes received. -/
structure Attempt where
  url : String
  dst : String
  directory : Bool
  remote : Bytes
  lengthKnown : Bool
  body : Bytes
deriving DecidableEq, Repr

namespace Attempt

def transfer (a : Attempt) : Transfer :=
  ⟨a.directory, if a.lengthKnown then a.remote.length else -1, a.body⟩

@[simp] theorem transfer_body (a : Attempt) : a.transfer.body = a.body := rfl

def Begins (a : Attempt) : Prop := SysUpdateHandler.Begins a.url a.dst a.transfer

instance (a : Attempt) : Decidable a.Begins :=
  inferInstanceAs (Decidable (SysUpdateHandler.Begins _ _ _))

def tmp (p : Platform) (a : Attempt) : String := p.canon (tmpFilename a.dst)

def announced (a : Attempt) : Nat := (UInt64.ofInt a.transfer.fileLength).toNat

theorem announced_eq {a : Attempt} (hknown : a.lengthKnown = true)
    (hlt : a.remote.length < 2 ^ 64) : a.announced = a.remote.length := by
  rw [announced, transfer, if_pos hknown, toNat_ofInt_length hlt]

end Attempt

/-! ## The ledger -/

def bytesOf (counted : List (String × Nat)) (files : String → Bool) : Nat :=
  ((counted.filter fun entry => files entry.1).map Prod.snd).sum

theorem bytesOf_cons (n : String) (k : Nat) (counted : List (String × Nat))
    (files : String → Bool) :
    bytesOf ((n, k) :: counted) files = (if files n then k else 0) + bytesOf counted files := by
  cases hn : files n with
  | true => simp [bytesOf, hn]
  | false => simp [bytesOf, hn]

/-- The process, and the bytes that were counted since the counter was zero, by their files. -/
structure Counting where
  handler : SysUpdateHandler
  counted : List (String × Nat)

namespace Counting

def boot (h : SysUpdateHandler) : Counting := ⟨{ h with totalSize := 0 }, []⟩

/-- An exception ends the process. -/
def step (p : Platform) (s : Counting) (a : Attempt) : Option Counting :=
  match s.handler.downloadUrl p a.url a.dst a.transfer with
  | (none, _) => none
  | (some true, h) => some ⟨h, []⟩
  | (some false, h) =>
      some ⟨h, if a.Begins then (a.tmp p, a.body.length) :: s.counted else s.counted⟩

def total (s : Counting) : Nat := bytesOf s.counted fun _ => true

def own (p : Platform) (s : Counting) (a : Attempt) : Nat := bytesOf s.counted (· = a.tmp p)

def foreign (p : Platform) (s : Counting) (a : Attempt) : Nat := bytesOf s.counted (· ≠ a.tmp p)

theorem own_add_foreign (s : Counting) (a : Attempt) : s.own p a + s.foreign p a = s.total := by
  unfold own foreign total
  induction s.counted with
  | nil => rfl
  | cons entry counted ih =>
      obtain ⟨n, k⟩ := entry
      rw [bytesOf_cons, bytesOf_cons, bytesOf_cons, ← ih]
      by_cases hn : n = a.tmp p
      · simp only [hn, decide_true, decide_false, not_true, ne_eq, if_true, Bool.false_eq_true,
          if_false]
        omega
      · simp only [hn, decide_true, decide_false, not_false_eq_true, ne_eq, if_true,
          Bool.false_eq_true, if_false]
        omega

/-- The bytes of the `.tmp` file from before the counter was zero. -/
def carried (p : Platform) (s : Counting) (a : Attempt) : Nat :=
  (s.handler.partialContent p a.dst).length - s.own p a

def missing (p : Platform) (s : Counting) (a : Attempt) : Nat :=
  a.remote.length - (s.handler.received p a.dst a.transfer).length

/-- The response continues the `.tmp` file, whose length is known and which the counter can
count. -/
structure Honest (p : Platform) (s : Counting) (a : Attempt) : Prop where
  lengthKnown : a.lengthKnown = true
  length_lt : a.remote.length < 2 ^ 64
  count_lt : s.total + a.body.length < 2 ^ 64
  continued : s.handler.received p a.dst a.transfer <+: a.remote

theorem honest_iff (s : Counting) (a : Attempt) :
    Honest p s a ↔ a.lengthKnown = true ∧ a.remote.length < 2 ^ 64 ∧
      s.total + a.body.length < 2 ^ 64 ∧ s.handler.received p a.dst a.transfer <+: a.remote :=
  ⟨fun ⟨hknown, hlength, hcount, hcontinued⟩ => ⟨hknown, hlength, hcount, hcontinued⟩,
    fun ⟨hknown, hlength, hcount, hcontinued⟩ => ⟨hknown, hlength, hcount, hcontinued⟩⟩

instance (s : Counting) (a : Attempt) : Decidable (Honest p s a) :=
  decidable_of_iff _ (honest_iff s a).symm

/-! ## Exact attempts -/

def Exact (p : Platform) (s : Counting) (a : Attempt) : Prop :=
  (s.handler.downloadUrl p a.url a.dst a.transfer).1 = some true →
    (s.handler.downloadUrl p a.url a.dst a.transfer).2.fileAt p a.dst = some a.remote

/-- Unless the response brings the last missing byte: when it continues the file, the counter holds
fewer bytes of other files than it lacks of this one, and when it does not, the counter stays short
of the announced length. -/
def OwnBytes (p : Platform) (s : Counting) (a : Attempt) : Prop :=
  a.Begins → s.handler.received p a.dst a.transfer = a.remote ∨
    if Honest p s a then s.foreign p a < s.carried p a + s.missing p a
    else (s.total + a.body.length) % 2 ^ 64 < a.announced

structure Balanced (p : Platform) (s : Counting) : Prop where
  counter : s.handler.totalSize = UInt64.ofNat s.total
  own_le : ∀ a : Attempt, s.own p a ≤ (s.handler.partialContent p a.dst).length

theorem Balanced.completes_iff {s : Counting} (h : Balanced p s) (a : Attempt) :
    s.handler.Completes a.transfer ↔ a.announced ≤ (s.total + a.body.length) % 2 ^ 64 := by
  rw [Completes, UInt64.le_iff_toNat_le, h.counter, ← UInt64.ofNat_add, UInt64.toNat_ofNat']
  rfl

theorem exact_iff {s : Counting} (h : Balanced p s) (a : Attempt) :
    Exact p s a ↔ OwnBytes p s a := by
  unfold Exact OwnBytes
  by_cases hbegins : a.Begins
  · rw [forall_prop_of_true hbegins]
    by_cases hwhole : s.handler.received p a.dst a.transfer = a.remote
    · refine iff_of_true (fun hdone => ?_) (.inl hwhole)
      have hcomplete : s.handler.Completes a.transfer := by
        by_contra hcomplete
        rw [downloadUrl_incomplete hbegins hcomplete] at hdone
        cases hdone
      rw [fileAt_downloadUrl_complete hbegins hcomplete, hwhole]
    · rw [or_iff_right hwhole]
      -- an attempt that leaves something else must not complete
      have hnot : ((s.handler.downloadUrl p a.url a.dst a.transfer).1 = some true →
          (s.handler.downloadUrl p a.url a.dst a.transfer).2.fileAt p a.dst = some a.remote) ↔
            ¬s.handler.Completes a.transfer := by
        by_cases hcomplete : s.handler.Completes a.transfer
        · rw [fileAt_downloadUrl_complete hbegins hcomplete,
            downloadUrl_complete hbegins hcomplete]
          simp [hcomplete, hwhole]
        · rw [downloadUrl_incomplete hbegins hcomplete]
          simp [hcomplete]
      rw [hnot, h.completes_iff a, Nat.not_le]
      split
      · rename_i hhonest
        have hle := hhonest.continued.length_le
        have hown := h.own_le a
        have hsum := s.own_add_foreign (p := p) a
        have hreceived : (s.handler.received p a.dst a.transfer).length =
            (s.handler.partialContent p a.dst).length + a.body.length := List.length_append
        rw [Nat.mod_eq_of_lt hhonest.count_lt,
          Attempt.announced_eq hhonest.lengthKnown hhonest.length_lt, carried, missing]
        omega
      · exact Iff.rfl
  · have hnot := (downloadUrl_not_begins (p := p) s.handler hbegins).1
    exact iff_of_true (fun hdone => absurd hdone hnot) (fun hb => absurd hb hbegins)

/-! ## Steps -/

theorem balanced_boot (h : SysUpdateHandler) : Balanced p (boot h) := ⟨rfl, fun _ => Nat.zero_le _⟩

theorem Balanced.append {s : Counting} (h : Balanced p s) {a : Attempt} (hbegins : a.Begins)
    (hcomplete : ¬s.handler.Completes a.transfer) :
    Balanced p ⟨(s.handler.downloadUrl p a.url a.dst a.transfer).2,
      (a.tmp p, a.body.length) :: s.counted⟩ := by
  rw [downloadUrl_incomplete hbegins hcomplete]
  constructor
  · show s.handler.totalSize + UInt64.ofNat a.body.length = UInt64.ofNat (bytesOf _ _)
    rw [h.counter, ← UInt64.ofNat_add, bytesOf_cons, if_pos rfl, Nat.add_comm]
    rfl
  · intro b
    have hold : bytesOf s.counted (· = b.tmp p) ≤ (s.handler.partialContent p b.dst).length :=
      h.own_le b
    show bytesOf _ _ ≤ (Option.getD (Disk.file _ (b.tmp p)) []).length
    rw [bytesOf_cons]
    by_cases hb : b.tmp p = a.tmp p
    · have hfile : (s.handler.transfer p a.url a.dst a.transfer).disk.file (a.tmp p) =
          some (s.handler.received p a.dst a.transfer) := file_tmp_transfer _ _ _ _
      have hsame : s.handler.partialContent p b.dst = s.handler.partialContent p a.dst :=
        congrArg s.handler.disk.contentOf hb
      rw [hb, hfile, Option.getD_some, received, List.length_append, decide_eq_true rfl, if_pos rfl,
        Attempt.transfer_body]
      rw [hb, hsame] at hold
      omega
    · have hfile : (s.handler.transfer p a.url a.dst a.transfer).disk.file (b.tmp p) =
          s.handler.disk.file (b.tmp p) := Disk.append_of_ne _ hb _
      rw [hfile, decide_eq_false (Ne.symm hb), if_neg Bool.false_ne_true, Nat.zero_add]
      exact hold

theorem balanced_step {s s' : Counting} {a : Attempt} (h : Balanced p s)
    (hstep : step p s a = some s') : Balanced p s' := by
  unfold step at hstep
  by_cases hbegins : a.Begins
  · by_cases hcomplete : s.handler.Completes a.transfer
    · rw [downloadUrl_complete hbegins hcomplete] at hstep
      obtain rfl := Option.some.inj hstep
      exact ⟨rfl, fun _ => Nat.zero_le _⟩
    · have hbalanced := h.append hbegins hcomplete
      rw [downloadUrl_incomplete hbegins hcomplete] at hstep hbalanced
      obtain rfl := Option.some.inj hstep
      rw [if_pos hbegins]
      exact hbalanced
  · obtain ⟨hnot, hsame⟩ := downloadUrl_not_begins (p := p) s.handler hbegins
    split at hstep
    · cases hstep
    · rename_i hdone
      rw [hdone] at hnot
      exact absurd rfl hnot
    · rename_i hanswer
      rw [hanswer] at hsame
      obtain rfl := Option.some.inj hstep
      rw [if_neg hbegins]
      obtain rfl : _ = s.handler := hsame
      exact h

/-! ## Histories of attempts -/

/-- In every history of attempts of one process, for any files and with any responses, all
attempts that return true leave the remote file, if and only if none is counted as complete by the
bytes of other files or by a response that does not continue its own. -/
theorem history_exact_iff (p : Platform) (h : SysUpdateHandler) (as : List Attempt) :
    AllSteps (step p) (Exact p) (boot h) as ↔ AllSteps (step p) (OwnBytes p) (boot h) as :=
  allSteps_congr_of_invariant (fun _ _ _ => balanced_step)
    (fun _ a hbalanced => exact_iff hbalanced a) (balanced_boot h) as

/-- Half of a file was received and the transfer broke off; then an attempt for another file
receives nothing and reports success. -/
def brokenThenEmpty : List Attempt :=
  [⟨"a", "/d/a", true, [1, 2, 3, 4, 5, 6], true, [1, 2, 3]⟩,
    ⟨"b", "/d/b", true, [7, 8, 9], true, []⟩]

theorem history_not_exact : ¬ ∀ (p : Platform) (fileServer : String) (disk : Disk String UInt8)
    (as : List Attempt), AllSteps (step p) (Exact p) (boot (start fileServer disk)) as := by
  intro h
  have hall := h samplePlatform "http://127.0.0.1:8010" ⟨fun _ => none⟩ brokenThenEmpty
  have hsecond := (hall.2 _ rfl).1
  exact absurd (hsecond (by decide)) (by decide)

/-! ## Attempts for a single file -/

theorem Honest.ownBytes {s : Counting} {a : Attempt} (hhonest : Honest p s a)
    (hforeign : s.foreign p a = 0) : OwnBytes p s a := by
  intro _
  by_cases hwhole : s.handler.received p a.dst a.transfer = a.remote
  · exact .inl hwhole
  · refine .inr ?_
    have hlt : (s.handler.received p a.dst a.transfer).length < a.remote.length := by
      have hle := hhonest.continued.length_le
      have hne := mt hhonest.continued.eq_of_length hwhole
      omega
    rw [if_pos hhonest, hforeign, missing]
    omega

def CountsOnly (n : String) (s : Counting) : Prop := ∀ entry ∈ s.counted, entry.1 = n

theorem foreign_of_countsOnly {s : Counting} {a : Attempt} (h : s.CountsOnly (a.tmp p)) :
    s.foreign p a = 0 := by
  have hnone : s.counted.filter (fun entry => decide (entry.1 ≠ a.tmp p)) = [] := by
    rw [List.filter_eq_nil_iff]
    intro entry hentry
    simpa using h entry hentry
  rw [foreign, bytesOf, hnone]
  rfl

theorem countsOnly_step {s s' : Counting} {a : Attempt} (h : s.CountsOnly (a.tmp p))
    (hstep : step p s a = some s') : s'.CountsOnly (a.tmp p) := by
  unfold step at hstep
  split at hstep
  · cases hstep
  · obtain rfl := Option.some.inj hstep
    exact fun _ hentry => absurd hentry List.not_mem_nil
  · obtain rfl := Option.some.inj hstep
    intro entry hentry
    dsimp only at hentry
    split at hentry
    · rcases List.mem_cons.mp hentry with rfl | hold
      · rfl
      · exact h entry hold
    · exact h entry hentry

/-- As long as one process downloads to a single destination and every response continues
what is there, attempts that succeed leave the remote file. -/
theorem single_file_exact {dst : String} {h : SysUpdateHandler} {as : List Attempt}
    (hhonest : AllSteps (step p) (fun s a => a.dst = dst ∧ Honest p s a) (boot h) as) :
    AllSteps (step p) (Exact p) (boot h) as := by
  refine allSteps_of_guarded
    (I := fun s => Balanced p s ∧ s.CountsOnly (p.canon (tmpFilename dst))) ?_ ?_
    ⟨balanced_boot h, fun _ hentry => absurd hentry List.not_mem_nil⟩ hhonest
  · rintro s a s' ⟨hbalanced, honly⟩ ⟨rfl, -⟩ hstep
    exact ⟨balanced_step hbalanced hstep, countsOnly_step honly hstep⟩
  · rintro s a ⟨hbalanced, honly⟩ ⟨rfl, hresponse⟩
    exact (exact_iff hbalanced a).mpr (hresponse.ownBytes (foreign_of_countsOnly honly))

end Counting

end CloudEdgePush.Client.SysUpdateHandler
