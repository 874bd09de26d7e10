import CloudEdgePush.Lib.CInt
import CloudEdgePush.Lib.Transition
import Mathlib.Data.List.Induction

/-!
# The watchdog of the daemon

The client writes a counter to a shared memory, and `SharedMemoryChecker::check` looks at it
every few seconds.  `_failedNum` counts the checks that were behind `_sequence` in the whole life
of the daemon: nothing resets it, and only the third one returns -2.

Histories of counters are lists with the newest check first.
-/

namespace CloudEdgePush.Daemon

open CloudEdgePush.Lib.CInt CloudEdgePush.Lib.Transition

structure SharedMemoryChecker where
  sequence : UInt64 := 0
  failedNum : Int := 0
deriving DecidableEq, Repr

def SharedMemoryChecker.check (c : SharedMemoryChecker) (sequence : UInt64) :
    Option (Int × SharedMemoryChecker) :=
  if sequence ≤ c.sequence ∧ sequence ≠ 0 then
    (int (c.failedNum + 1)).map fun failedNum =>
      (if failedNum = 3 then -2 else -1, { c with failedNum })
  else some (0, { c with sequence })

/-! ## `ProcessManager` -/

inductive Cause
  | notRunning
  | zombie
  | sharedMemory
deriving DecidableEq, Repr

structure ProcessManager where
  shmChker : SharedMemoryChecker := {}
  /-- Why `startProcess` has killed the process and started it again. -/
  restarts : List Cause := []
deriving DecidableEq, Repr

/-- What a call of `checkProcessStatus` finds: the results of `isRunning`, which is called a second
time if the first one is not -1, and the counter. -/
structure Status where
  running : Int
  runningAgain : Int
  sequence : UInt64
deriving DecidableEq, Repr

namespace ProcessManager

def startProcess (m : ProcessManager) (cause : Cause) : ProcessManager :=
  { m with restarts := m.restarts ++ [cause] }

def checkRunning (m : ProcessManager) (t : Status) : ProcessManager :=
  if t.running = -1 then m.startProcess .notRunning
  else if t.runningAgain = -2 then m.startProcess .zombie
  else m

def checkProcessStatus (sharedMemoryCheck : Bool) (m : ProcessManager) (t : Status) :
    Option ProcessManager :=
  let m := m.checkRunning t
  if sharedMemoryCheck then
    (m.shmChker.check t.sequence).map fun (result, shmChker) =>
      let m := { m with shmChker }
      if result = -2 then m.startProcess .sharedMemory else m
  else some m

end ProcessManager

/-! ## Histories -/

/-- The counter is not zero and did not advance since the check before. -/
def Stuck : List UInt64 → Prop
  | sequence :: previous :: _ => sequence ≠ 0 ∧ sequence ≤ previous
  | _ => False

instance : (seen : List UInt64) → Decidable (Stuck seen)
  | [] | [_] => isFalse id
  | sequence :: previous :: _ => inferInstanceAs (Decidable (sequence ≠ 0 ∧ sequence ≤ previous))

def Hangs (seen : List UInt64) : Prop :=
  Stuck seen ∧ Stuck seen.tail ∧ Stuck seen.tail.tail

instance (seen : List UInt64) : Decidable (Hangs seen) := inferInstanceAs (Decidable (_ ∧ _))

/-- The highest counter since the last one that was zero. -/
def highest : List UInt64 → UInt64
  | [] => 0
  | sequence :: older => if sequence = 0 then 0 else max sequence (highest older)

def Behind : List UInt64 → Prop
  | [] => False
  | sequence :: older => sequence ≠ 0 ∧ sequence ≤ highest older

instance : (seen : List UInt64) → Decidable (Behind seen)
  | [] => isFalse id
  | sequence :: older => inferInstanceAs (Decidable (sequence ≠ 0 ∧ sequence ≤ highest older))

def behind : List UInt64 → Nat
  | [] => 0
  | sequence :: older => behind older + if Behind (sequence :: older) then 1 else 0

theorem highest_of_behind {sequence : UInt64} {older : List UInt64}
    (h : Behind (sequence :: older)) : highest (sequence :: older) = highest older := by
  rw [highest, if_neg h.1]
  exact if_pos h.2

theorem highest_of_not_behind {sequence : UInt64} {older : List UInt64}
    (h : ¬Behind (sequence :: older)) : highest (sequence :: older) = sequence := by
  by_cases hzero : sequence = 0
  · rw [highest, if_pos hzero, hzero]
  · rw [highest, if_neg hzero]
    exact if_neg fun hle => h ⟨hzero, hle⟩

theorem le_highest {sequence : UInt64} {older : List UInt64} :
    sequence ≤ highest (sequence :: older) := by
  by_cases h : Behind (sequence :: older)
  · rw [highest_of_behind h]
    exact h.2
  · rw [highest_of_not_behind h]
    exact UInt64.le_refl _

theorem Stuck.behind {seen : List UInt64} (h : Stuck seen) : Behind seen := by
  match seen, h with
  | sequence :: previous :: older, ⟨hzero, hle⟩ => exact ⟨hzero, UInt64.le_trans hle le_highest⟩

theorem behind_of_behind {seen : List UInt64} (h : Behind seen) :
    behind seen = behind seen.tail + 1 := by
  cases seen with
  | nil => cases h
  | cons sequence older => exact congrArg (_ + ·) (if_pos h)

theorem behind_of_not_behind {seen : List UInt64} (h : ¬Behind seen) :
    behind seen = behind seen.tail := by
  cases seen with
  | nil => rfl
  | cons sequence older => exact congrArg (_ + ·) (if_neg h)

theorem behind_le_of_suffix {older seen : List UInt64} (h : older <:+ seen) :
    behind older ≤ behind seen := by
  induction seen with
  | nil =>
      obtain rfl := List.suffix_nil.mp h
      exact Nat.le_refl _
  | cons sequence seen ih =>
      rcases List.suffix_cons_iff.mp h with rfl | hsuffix
      · exact Nat.le_refl _
      · exact Nat.le_trans (ih hsuffix) (Nat.le_add_right _ _)

theorem Hangs.le_behind {seen : List UInt64} (h : Hangs seen) : 3 ≤ behind seen := by
  obtain ⟨hlast, hsecond, hfirst⟩ := h
  have hlast := behind_of_behind hlast.behind
  have hsecond := behind_of_behind hsecond.behind
  have hfirst := behind_of_behind hfirst.behind
  omega

/-! ## The checks -/

/-- The object, and for each call the counter and the result; the newest first. -/
structure Checks where
  checker : SharedMemoryChecker
  seen : List UInt64
  results : List Int

namespace Checks

def start : Checks := ⟨{}, [], []⟩

def step (s : Checks) (sequence : UInt64) : Option Checks :=
  (s.checker.check sequence).map fun (result, checker) =>
    ⟨checker, sequence :: s.seen, result :: s.results⟩

/-- Each call returns, and it returns -2 exactly if it completes three stuck checks in a row. -/
def Detects (counters : List UInt64) : Prop :=
  ∀ before, before <+: counters → ∃ s, run step start before = some s ∧
    (s.results.head? = some (-2) ↔ Hangs before.reverse)

/-- At most two checks are behind; or the first three that are behind are a hang, and no check
after them completes one. -/
def OneHang (counters : List UInt64) : Prop :=
  behind counters.reverse ≤ 2 ∨
    ∃ first later, counters = first ++ later ∧ behind first.reverse = 3 ∧ Hangs first.reverse ∧
      ∀ more, more <+: later → more ≠ [] → ¬Hangs (first ++ more).reverse

structure Counts (s : Checks) : Prop where
  sequence : s.checker.sequence = highest s.seen
  failedNum : s.checker.failedNum = behind s.seen
  fits : behind s.seen < 2 ^ 31
  result : s.results.head? = some (-2) ↔ Behind s.seen ∧ behind s.seen = 3

variable {s s' : Checks} {sequence : UInt64}

theorem Counts.check_of_behind (h : Counts s) (hbehind : Behind (sequence :: s.seen)) :
    s.checker.check sequence = (int (behind (sequence :: s.seen))).map fun failedNum =>
      (if failedNum = 3 then -2 else -1, { s.checker with failedNum }) := by
  have hguard : sequence ≤ s.checker.sequence ∧ sequence ≠ 0 := by
    rw [h.sequence]
    exact hbehind.symm
  have hcount : s.checker.failedNum + 1 = (behind (sequence :: s.seen) : Int) := by
    rw [behind_of_behind hbehind, h.failedNum]
    rfl
  rw [SharedMemoryChecker.check, if_pos hguard, hcount]

theorem Counts.check_of_not_behind (h : Counts s) (hbehind : ¬Behind (sequence :: s.seen)) :
    s.checker.check sequence = some (0, { s.checker with sequence }) := by
  apply if_neg
  rw [h.sequence]
  exact fun hguard => hbehind hguard.symm

theorem Counts.step_isSome (h : Counts s) (hfits : behind (sequence :: s.seen) < 2 ^ 31) :
    (step s sequence).isSome = true := by
  rw [step, Option.isSome_map]
  by_cases hbehind : Behind (sequence :: s.seen)
  · rw [h.check_of_behind hbehind, int_of_fits (fits_natCast hfits)]
    rfl
  · rw [h.check_of_not_behind hbehind]
    rfl

theorem counts_step (s : Checks) (sequence : UInt64) (s' : Checks) (h : Counts s)
    (hstep : step s sequence = some s') : Counts s' := by
  obtain ⟨⟨result, checker⟩, hcheck, rfl⟩ := Option.map_eq_some_iff.mp hstep
  by_cases hbehind : Behind (sequence :: s.seen)
  · rw [h.check_of_behind hbehind] at hcheck
    obtain ⟨failedNum, hint, hresult⟩ := Option.map_eq_some_iff.mp hcheck
    obtain ⟨hfits, rfl⟩ := int_eq_some_iff.mp hint
    obtain ⟨rfl, rfl⟩ := Prod.mk.inj hresult
    refine ⟨h.sequence.trans (highest_of_behind hbehind).symm, rfl, Int.ofNat_lt.mp hfits.2, ?_⟩
    by_cases hthird : behind (sequence :: s.seen) = 3
    · simp [hthird, hbehind]
    · have hnot : (behind (sequence :: s.seen) : Int) ≠ 3 := by omega
      simp [hthird, hnot]
  · rw [h.check_of_not_behind hbehind] at hcheck
    obtain ⟨rfl, rfl⟩ := Prod.mk.inj (Option.some.inj hcheck)
    have hsame : behind (sequence :: s.seen) = behind s.seen := behind_of_not_behind hbehind
    refine ⟨(highest_of_not_behind hbehind).symm, ?_, ?_, ?_⟩
    · rw [hsame]
      exact h.failedNum
    · rw [hsame]
      exact h.fits
    · simp [hbehind]

theorem counts_start : Counts start where
  sequence := rfl
  failedNum := rfl
  fits := by decide
  result := by decide

theorem counts_run {counters : List UInt64} (hrun : run step start counters = some s) : Counts s :=
  run_invariant counts_step counts_start hrun

theorem seen_run {counters : List UInt64} {t : Checks} (hrun : run step s counters = some t) :
    t.seen = counters.reverse ++ s.seen := by
  induction counters generalizing s with
  | nil =>
      obtain rfl := Option.some.inj hrun
      rfl
  | cons sequence counters ih =>
      obtain ⟨s', hstep, hrest⟩ := run_cons_eq_some.mp hrun
      obtain ⟨result, -, rfl⟩ := Option.map_eq_some_iff.mp hstep
      rw [ih hrest, List.reverse_cons, List.append_assoc]
      rfl

theorem seen_start {counters : List UInt64} (hrun : run step start counters = some s) :
    s.seen = counters.reverse := (seen_run hrun).trans (List.append_nil _)

theorem run_of_lt {counters : List UInt64} (hfits : behind counters.reverse < 2 ^ 31) :
    ∃ s, run step start counters = some s := by
  induction counters using List.reverseRecOn with
  | nil => exact ⟨start, rfl⟩
  | append_singleton counters sequence ih =>
      rw [List.reverse_append, List.reverse_singleton, List.singleton_append] at hfits
      have holder : behind counters.reverse ≤ behind (sequence :: counters.reverse) :=
        behind_le_of_suffix (List.suffix_cons _ _)
      obtain ⟨s, hrun⟩ := ih (Nat.lt_of_le_of_lt holder hfits)
      rw [← seen_start hrun] at hfits
      obtain ⟨s', hstep⟩ := Option.isSome_iff_exists.mp ((counts_run hrun).step_isSome hfits)
      exact ⟨s', run_concat_eq_some.mpr ⟨s, hrun, hstep⟩⟩

/-- What the results say: -2 is the third check that is behind. -/
theorem detects_iff_third (counters : List UInt64) : Detects counters ↔
    ∀ before, before <+: counters → behind before.reverse < 2 ^ 31 ∧
      (Hangs before.reverse ↔ Behind before.reverse ∧ behind before.reverse = 3) := by
  refine forall₂_congr fun before _ => ?_
  constructor
  · rintro ⟨s, hrun, hresult⟩
    have hcounts := counts_run hrun
    rw [← seen_start hrun] at hresult ⊢
    exact ⟨hcounts.fits, hresult.symm.trans hcounts.result⟩
  · rintro ⟨hfits, hhangs⟩
    obtain ⟨s, hrun⟩ := run_of_lt hfits
    refine ⟨s, hrun, ?_⟩
    rw [hhangs, ← seen_start hrun]
    exact (counts_run hrun).result

theorem behind_le_before {before counters : List UInt64} (h : before <+: counters) :
    behind before.reverse ≤ behind counters.reverse :=
  behind_le_of_suffix (List.reverse_suffix.mpr h)

theorem exists_third {counters : List UInt64} (h : 2 < behind counters.reverse) :
    ∃ first later, counters = first ++ later ∧ behind first.reverse = 3 ∧ Behind first.reverse := by
  induction counters using List.reverseRecOn with
  | nil => cases h
  | append_singleton counters sequence ih =>
      by_cases hearlier : 2 < behind counters.reverse
      · obtain ⟨first, later, rfl, hfirst⟩ := ih hearlier
        exact ⟨first, later ++ [sequence], List.append_assoc _ _ _, hfirst⟩
      · refine ⟨counters ++ [sequence], [], (List.append_nil _).symm, ?_⟩
        rw [List.reverse_append, List.reverse_singleton, List.singleton_append] at h ⊢
        by_cases hbehind : Behind (sequence :: counters.reverse)
        · have hthird := behind_of_behind hbehind
          exact ⟨by rw [List.tail_cons] at hthird; omega, hbehind⟩
        · have hsame := behind_of_not_behind hbehind
          rw [List.tail_cons] at hsame
          omega

theorem behind_lt {before more : List UInt64} (hmore : more ≠ [])
    (hbehind : Behind (before ++ more).reverse) :
    behind before.reverse < behind (before ++ more).reverse := by
  obtain ⟨between, sequence, rfl⟩ := List.eq_nil_or_concat more |>.resolve_left hmore
  have hlast : (before ++ between.concat sequence).reverse =
      sequence :: (before ++ between).reverse := by simp
  rw [hlast] at hbehind ⊢
  have hnext := behind_of_behind hbehind
  rw [List.tail_cons] at hnext
  have hearlier := behind_le_before (List.prefix_append before between)
  omega

theorem third_of_le_two {seen : List UInt64} (h : behind seen ≤ 2) :
    Hangs seen ↔ Behind seen ∧ behind seen = 3 := by
  refine iff_of_false (fun hhangs => ?_) (fun hthird => ?_)
  · have hthree := hhangs.le_behind
    omega
  · omega

/-- `check` tells hangs from everything else exactly in these histories. -/
theorem detects_iff (counters : List UInt64) :
    Detects counters ↔ behind counters.reverse < 2 ^ 31 ∧ OneHang counters := by
  rw [detects_iff_third]
  constructor
  · intro h
    refine ⟨(h counters (List.prefix_refl _)).1, ?_⟩
    by_cases hfew : behind counters.reverse ≤ 2
    · exact .inl hfew
    · obtain ⟨first, later, hsplit, hthree, hbehind⟩ := exists_third (Nat.lt_of_not_le hfew)
      have hfirst : first <+: counters := ⟨later, hsplit.symm⟩
      refine .inr ⟨first, later, hsplit, hthree, (h first hfirst).2.mpr ⟨hbehind, hthree⟩, ?_⟩
      intro more hmore hne hhangs
      have hlonger : first ++ more <+: counters := by
        rw [hsplit]
        exact (List.prefix_append_right_inj first).mpr hmore
      obtain ⟨hbehind', hthree'⟩ := (h _ hlonger).2.mp hhangs
      have hfourth := behind_lt hne hbehind'
      omega
  · rintro ⟨hfits, hone⟩ before hbefore
    refine ⟨Nat.lt_of_le_of_lt (behind_le_before hbefore) hfits, ?_⟩
    rcases hone with hfew | ⟨first, later, rfl, hthree, hhangs, hlater⟩
    · exact third_of_le_two (Nat.le_trans (behind_le_before hbefore) hfew)
    · rcases List.prefix_or_prefix_of_prefix hbefore (List.prefix_append first later) with
        ⟨rest, rfl⟩ | ⟨more, rfl⟩
      · -- up to the hang
        by_cases hne : rest = []
        · subst hne
          rw [List.append_nil] at hthree hhangs
          exact iff_of_true hhangs ⟨hhangs.1.behind, hthree⟩
        · have hearlier := behind_lt hne hhangs.1.behind
          exact third_of_le_two (by omega)
      · -- after it
        have hmore := (List.prefix_append_right_inj first).mp hbefore
        by_cases hne : more = []
        · subst hne
          rw [List.append_nil]
          exact iff_of_true hhangs ⟨hhangs.1.behind, hthree⟩
        · refine iff_of_false (hlater more hmore hne) ?_
          rintro ⟨hbehind, hthree'⟩
          have hfourth := behind_lt hne hbehind
          omega

/-! ## A restart -/

/-- A child that starts again from a small value and advances: it is killed at its third check. -/
theorem kills_advancing : ¬ ∀ counters : List UInt64, Detects counters := by
  intro h
  obtain ⟨s, hrun, hresult⟩ := h [10, 1, 2, 3] [10, 1, 2, 3] (List.prefix_refl _)
  have hkilled : (run step start [10, 1, 2, 3]).map (·.results) = some [-2, -1, -1, 0] := by
    decide +kernel
  rw [hrun] at hkilled
  have hresults : s.results = [-2, -1, -1, 0] := Option.some.inj hkilled
  rw [hresults] at hresult
  exact absurd (hresult.mp rfl) (by decide)

end Checks

/-! ## The process -/

namespace ProcessManager

open Checks

structure Follows (m : ProcessManager) (s : Checks) : Prop where
  shmChker : m.shmChker = s.checker
  restarts : m.restarts.count .sharedMemory = s.results.count (-2)

theorem checkRunning_shmChker (m : ProcessManager) (t : Status) :
    (m.checkRunning t).shmChker = m.shmChker := by
  unfold checkRunning
  split
  · rfl
  · split
    · rfl
    · rfl

theorem checkRunning_restarts (m : ProcessManager) (t : Status) :
    (m.checkRunning t).restarts.count .sharedMemory = m.restarts.count .sharedMemory := by
  unfold checkRunning
  split
  · exact List.count_append.trans (Nat.add_zero _)
  · split
    · exact List.count_append.trans (Nat.add_zero _)
    · rfl

theorem Follows.step {m m' : ProcessManager} {t : Status} {s : Checks} (h : Follows m s)
    (hstep : checkProcessStatus true m t = some m') :
    ∃ s', Checks.step s t.sequence = some s' ∧ Follows m' s' := by
  obtain ⟨⟨result, checker⟩, hcheck, rfl⟩ := Option.map_eq_some_iff.mp hstep
  rw [checkRunning_shmChker, h.shmChker] at hcheck
  refine ⟨⟨checker, t.sequence :: s.seen, result :: s.results⟩, ?_, ?_⟩
  · rw [Checks.step, hcheck]
    rfl
  · have hbefore := (checkRunning_restarts m t).trans h.restarts
    by_cases hkill : result = -2
    · subst hkill
      refine ⟨rfl, ?_⟩
      rw [List.count_cons_self, ← hbefore]
      exact List.count_append
    · dsimp only
      rw [if_neg hkill]
      refine ⟨rfl, ?_⟩
      rw [List.count_cons_of_ne hkill]
      exact hbefore

/-- Over any restarts the checker goes on with its history, and each -2 kills the process. -/
theorem follows_run {ticks : List Status} {m : ProcessManager}
    (hrun : run (checkProcessStatus true) {} ticks = some m) :
    ∃ s, run Checks.step start (ticks.map Status.sequence) = some s ∧ Follows m s := by
  induction ticks using List.reverseRecOn generalizing m with
  | nil =>
      obtain rfl := Option.some.inj hrun
      exact ⟨start, rfl, rfl, rfl⟩
  | append_singleton ticks t ih =>
      obtain ⟨m', hbefore, hstep⟩ := run_concat_eq_some.mp hrun
      obtain ⟨s, hchecks, hfollows⟩ := ih hbefore
      obtain ⟨s', hstep', hfollows'⟩ := hfollows.step hstep
      refine ⟨s', ?_, hfollows'⟩
      rw [List.map_append]
      exact run_concat_eq_some.mpr ⟨s, hchecks, hstep'⟩

end ProcessManager

end CloudEdgePush.Daemon
