import CloudEdgePush.Daemon.Instances

/-!
# Restarts

* `follows_of_run`   — the checks of the daemon are those of `ProcessManager`, on the answers that
  it gets;
* `restarted_of_run` — a check that finds the program gone starts it again.
-/

namespace CloudEdgePush.Daemon.System

open CloudEdgePush.Lib.Transition
open ProcessHelper

variable {cfg : Config} {s s' : System} {e : Event}

/-! ## The checks of `ProcessManager` -/

def manager (s : System) : ProcessManager := ⟨s.shmChker, s.restarts⟩

def returned (cfg : Config) (s : System) : Option ProcessManager :=
  run (ProcessManager.checkProcessStatus cfg.sharedMemoryCheck) {} s.ticks

/-- What the calls so far, and the answers of the one under way, make of `ProcessManager`. -/
def Follows (cfg : Config) (s : System) : Prop :=
  match s.phase.next? with
  | some .ready => s.returned cfg = some s.manager
  | some .again => s.returned cfg = some s.manager ∧ s.running ≠ -1
  | some .sharedMemory => ∃ m, s.returned cfg = some m ∧
      ∀ sequence, m.checkRunning ⟨s.running, s.runningAgain, sequence⟩ = s.manager
  | none => True

theorem Follows.congr (h : Follows cfg s) (hmanager : s'.manager = s.manager)
    (hticks : s'.ticks = s.ticks) (hrunning : s'.running = s.running)
    (hagain : s'.runningAgain = s.runningAgain) (hnext : s'.phase.next? = s.phase.next?) :
    Follows cfg s' := by
  have hreturned : s'.returned cfg = s.returned cfg := congrArg (run _ _) hticks
  unfold Follows
  rw [hnext, hreturned, hmanager, hrunning, hagain]
  exact h

theorem Follows.at_next (h : Follows cfg s) {phase : Phase} (hphase : s.phase = phase) :
    Follows cfg { s with phase := phase } := by
  subst hphase
  exact h

theorem Follows.concat (h : Follows cfg s) (hphase : s.phase = .outside .sharedMemory)
    {sequence : UInt64} {m' : ProcessManager}
    (hcall : ∀ m : ProcessManager,
      m.checkRunning ⟨s.running, s.runningAgain, sequence⟩ = s.manager →
      ProcessManager.checkProcessStatus cfg.sharedMemoryCheck m
        ⟨s.running, s.runningAgain, sequence⟩ = some m') :
    run (ProcessManager.checkProcessStatus cfg.sharedMemoryCheck) {}
      (s.ticks ++ [⟨s.running, s.runningAgain, sequence⟩]) = some m' := by
  obtain ⟨m, hm, hrunning⟩ := h.at_next hphase
  exact run_concat_eq_some.mpr ⟨m, hm, hcall m (hrunning sequence)⟩

theorem follows_step (h : Follows cfg s) (hstep : step cfg s e = some s') : Follows cfg s' := by
  cases stepped_of_step hstep with
  | absent hphase habsent => exact ⟨_, h.at_next hphase, fun _ => if_pos rfl⟩
  | present hphase hpresent => exact ⟨h.at_next hphase, hpresent⟩
  | zombie hphase hzombie =>
      obtain ⟨hready, hrunning⟩ := h.at_next hphase
      exact ⟨_, hready, fun _ => (if_neg hrunning).trans (if_pos rfl)⟩
  | alive hphase halive =>
      obtain ⟨hready, hrunning⟩ := h.at_next hphase
      exact ⟨_, hready, fun _ => (if_neg hrunning).trans (if_neg halive)⟩
  | unchecked sequence hphase hoff =>
      refine h.concat hphase fun m hm => ?_
      rw [ProcessManager.checkProcessStatus, hm, hoff]
      rfl
  | checked sequence hphase hon hcheck hresult =>
      refine h.concat hphase fun m hm => ?_
      rw [ProcessManager.checkProcessStatus, hm, hon]
      show (s.shmChker.check sequence).map _ = _
      rw [hcheck]
      exact congrArg some (if_neg hresult)
  | hangs sequence hphase hon hcheck =>
      refine h.concat hphase fun m hm => ?_
      rw [ProcessManager.checkProcessStatus, hm, hon]
      show (s.shmChker.check sequence).map _ = _
      rw [hcheck]
      rfl
  | opens isChild hphase hstage => exact h.congr rfl rfl rfl rfl (by rw [hphase]; rfl)
  | entry pid hphase => exact h.congr rfl rfl rfl rfl (by rw [hphase]; rfl)
  | listed hphase => exact h.congr rfl rfl rfl rfl (by rw [hphase]; rfl)
  | kills ok reaped hphase => exact h.congr rfl rfl rfl rfl (by rw [hphase]; rfl)
  | ended => trivial
  | missing hphase => exact h.congr rfl rfl rfl rfl (by rw [hphase]; rfl)
  | launched hphase hpid hfresh => exact h.congr rfl rfl rfl rfl (by rw [hphase]; rfl)
  | exits reaped hp hruns => exact h.congr rfl rfl rfl rfl rfl
  | waited hp hother => exact h.congr rfl rfl rfl rfl rfl
  | starts name hpid hfresh => exact h.congr rfl rfl rfl rfl rfl

theorem Follows.of_run {ps : Processes} {es : List Event}
    (hrun : run (step cfg) (start ps) es = some s) : Follows cfg s := by
  have hstart : Follows cfg (start ps) := rfl
  exact run_invariant (I := Follows cfg) (fun s e s' h hstep => follows_step h hstep) hstart hrun

/-- Between two calls of `checkProcessStatus`, whatever the processes have done in the meantime, the
daemon is where `ProcessManager` is after the same answers and counters. -/
theorem follows_of_run {ps : Processes} {es : List Event}
    (hrun : run (step cfg) (start ps) es = some s) (hphase : s.phase = .outside .ready) :
    run (ProcessManager.checkProcessStatus cfg.sharedMemoryCheck) {} s.ticks =
      some ⟨s.shmChker, s.restarts⟩ :=
  (Follows.of_run hrun).at_next hphase

/-! ## Restarts -/

theorem isRunning_eq_zombie {ps : Processes} {pid : Int} :
    isRunning ps pid = -2 ↔ 0 < pid ∧ ∃ p, ps.lookup pid.toNat = some p ∧ p.zombie = true := by
  unfold isRunning
  by_cases hpid : pid ≤ 0
  · rw [if_pos hpid]
    exact iff_of_false (by decide) fun h => absurd h.1 (by omega)
  · rw [if_neg hpid]
    cases hp : ps.lookup pid.toNat with
    | none =>
        refine iff_of_false (by decide) ?_
        rintro ⟨-, p, hsome, -⟩
        cases hsome
    | some p =>
        cases hzombie : p.zombie with
        | true => exact iff_of_true (by simp [hzombie]) ⟨by omega, p, rfl, hzombie⟩
        | false =>
            refine iff_of_false (by simp [hzombie]) ?_
            rintro ⟨-, q, hq, hqzombie⟩
            obtain rfl := Option.some.inj hq
            rw [hzombie] at hqzombie
            cases hqzombie

/-- What the second look finds, if the first one of this call has found that the child has exited. -/
def Remembered (s : System) : Prop :=
  match s.phase.next? with
  | some .again => isRunning s.processes s.pid = -2
  | some .sharedMemory => s.runningAgain = -2
  | _ => True

structure Seen (s : System) : Prop where
  remembered : s.running = -2 → s.Remembered
  ticks : ∀ t ∈ s.ticks, t.running = -2 → t.runningAgain = -2

/-- A child that has exited is a zombie until the daemon waits for it; what else happens to the
processes does not matter. -/
theorem Seen.keeps (h : Seen s) {ps : Processes}
    (hkeeps : s.phase.next? = some .again → 0 < s.pid → ∀ p,
      s.processes.lookup s.pid.toNat = some p → p.zombie = true →
        ps.lookup s.pid.toNat = some p) : Seen { s with processes := ps } := by
  refine ⟨fun hrunning => ?_, h.ticks⟩
  have hremembered := h.remembered hrunning
  unfold Remembered at hremembered ⊢
  dsimp only
  split
  · rename_i hnext
    rw [hnext] at hremembered
    obtain ⟨hpid, p, hp, hzombie⟩ := isRunning_eq_zombie.mp hremembered
    exact isRunning_eq_zombie.mpr ⟨hpid, p, hkeeps hnext hpid p hp hzombie, hzombie⟩
  · rename_i hnext
    rw [hnext] at hremembered
    exact hremembered
  · trivial

theorem Seen.at_next (h : Seen s) {phase : Phase} (hphase : s.phase = phase)
    (hrunning : s.running = -2) : Remembered { s with phase := phase } := by
  subst hphase
  exact h.remembered hrunning

theorem Seen.starting (h : Seen s) {stage : Stage} {next : Next}
    (hphase : s.phase = .starting stage next)
    (hticks : s'.ticks = s.ticks) (hrunning : s'.running = s.running)
    (hagain : s'.runningAgain = s.runningAgain) (hnext : s'.phase.next? = some next.point) :
    Seen s' := by
  refine ⟨fun hgone => ?_, by rw [hticks]; exact h.ticks⟩
  have hremembered := h.at_next hphase (hrunning ▸ hgone)
  cases next with
  | ready =>
      unfold Remembered
      rw [hnext]
      trivial
  | sharedMemory =>
      unfold Remembered
      rw [hnext]
      exact hagain.trans hremembered

theorem Seen.concat (h : Seen s) (hphase : s.phase = .outside .sharedMemory) (sequence : UInt64) :
    ∀ t ∈ s.ticks ++ [⟨s.running, s.runningAgain, sequence⟩],
      t.running = -2 → t.runningAgain = -2 := by
  intro t ht
  rcases List.mem_append.mp ht with hold | hnew
  · exact h.ticks t hold
  · obtain rfl := List.mem_singleton.mp hnew
    exact h.at_next hphase

theorem Owns.ne_of_lookup (h : s.Owns) (hpid : 0 < s.pid) {pid : Nat} {q : Process}
    (hq : s.processes.lookup pid = some q) (hother : q.child = false) : s.pid.toNat ≠ pid := by
  rintro rfl
  rcases h with hfailed | ⟨-, p, hp, hchild⟩
  · omega
  · obtain rfl := Option.some.inj (hq.symm.trans hp)
    rw [hother] at hchild
    cases hchild

theorem outside_of_next (hnext : s.phase.next? = some .again) : s.phase = .outside .again := by
  cases hphase : s.phase with
  | outside point =>
      rw [hphase] at hnext
      exact congrArg Phase.outside (Option.some.inj hnext)
  | starting stage next =>
      rw [hphase] at hnext
      exact absurd (Option.some.inj hnext) next.point_ne_again
  | ended =>
      rw [hphase] at hnext
      cases hnext

theorem seen_step (howns : s.OwnsOutside) (h : Seen s) (hstep : step cfg s e = some s') :
    Seen s' := by
  cases stepped_of_step hstep with
  | absent hphase habsent =>
      exact ⟨fun hrunning => absurd hrunning (show (-1 : Int) ≠ -2 by decide), h.ticks⟩
  | present hphase hpresent => exact ⟨id, h.ticks⟩
  | zombie hphase hzombie => exact ⟨fun _ => rfl, h.ticks⟩
  | alive hphase halive =>
      exact ⟨fun hrunning => absurd (h.at_next hphase hrunning) halive, h.ticks⟩
  | unchecked sequence hphase hoff => exact ⟨fun _ => trivial, h.concat hphase sequence⟩
  | checked sequence hphase hon hcheck hresult =>
      exact ⟨fun _ => trivial, h.concat hphase sequence⟩
  | hangs sequence hphase hon hcheck => exact ⟨fun _ => trivial, h.concat hphase sequence⟩
  | opens isChild hphase hstage => exact h.starting hphase rfl rfl rfl rfl
  | entry pid hphase => exact h.starting hphase rfl rfl rfl rfl
  | listed hphase => exact h.starting hphase rfl rfl rfl rfl
  | kills ok reaped hphase => exact h.starting hphase rfl rfl rfl rfl
  | ended => exact ⟨fun _ => trivial, h.ticks⟩
  | missing hphase => exact h.starting hphase rfl rfl rfl rfl
  | launched hphase hpid hfresh => exact h.starting hphase rfl rfl rfl rfl
  | @exits pid q reaped hq hruns =>
      refine h.keeps fun _ _ p hp hzombie => ?_
      have hne : s.pid.toNat ≠ pid := by
        rintro rfl
        obtain rfl := Option.some.inj (hq.symm.trans hp)
        rw [hruns] at hzombie
        cases hzombie
      rw [lookup_exit, if_neg hne, hp]
  | waited hq hother =>
      refine h.keeps fun hnext hpid p hp _ => ?_
      have hne := (howns _ (outside_of_next hnext)).ne_of_lookup hpid hq hother
      exact (AList.lookup_erase_ne hne).trans hp
  | @starts pid name hpid hfresh =>
      refine h.keeps fun _ _ p hp _ => ?_
      have hne : s.pid.toNat ≠ pid := by
        rintro rfl
        exact hfresh (AList.lookup_isSome.mp (by rw [hp]; rfl))
      exact (AList.lookup_insert_ne hne).trans hp

theorem count_startProcess (m : ProcessManager) (cause other : Cause) :
    (m.startProcess cause).restarts.count other =
      m.restarts.count other + if other = cause then 1 else 0 := by
  rw [ProcessManager.startProcess, List.count_append, List.count_singleton]
  by_cases hother : other = cause
  · simp [hother]
  · simp [hother, Ne.symm hother]

theorem count_checkRunning (m : ProcessManager) (t : Status) :
    (m.checkRunning t).restarts.count .notRunning =
        m.restarts.count .notRunning + (if t.running = -1 then 1 else 0) ∧
      (m.checkRunning t).restarts.count .zombie = m.restarts.count .zombie +
        (if t.running ≠ -1 ∧ t.runningAgain = -2 then 1 else 0) := by
  unfold ProcessManager.checkRunning
  by_cases hrunning : t.running = -1
  · rw [if_pos hrunning, count_startProcess, count_startProcess]
    simp [hrunning]
  · rw [if_neg hrunning]
    by_cases hagain : t.runningAgain = -2
    · rw [if_pos hagain, count_startProcess, count_startProcess]
      simp [hrunning, hagain]
    · rw [if_neg hagain]
      simp [hrunning, hagain]

theorem count_checkProcessStatus {sharedMemoryCheck : Bool} {m m' : ProcessManager} {t : Status}
    (hcall : ProcessManager.checkProcessStatus sharedMemoryCheck m t = some m') {cause : Cause}
    (hcause : cause ≠ .sharedMemory) :
    m'.restarts.count cause = (m.checkRunning t).restarts.count cause := by
  unfold ProcessManager.checkProcessStatus at hcall
  dsimp only at hcall
  split at hcall
  · obtain ⟨⟨result, shmChker⟩, -, rfl⟩ := Option.map_eq_some_iff.mp hcall
    dsimp only
    split
    · rw [count_startProcess, if_neg hcause]
      rfl
    · rfl
  · obtain rfl := Option.some.inj hcall
    rfl

/-- The counts of the restarts, by their causes. -/
theorem count_of_run {sharedMemoryCheck : Bool} {m : ProcessManager} {ticks : List Status}
    (hrun : run (ProcessManager.checkProcessStatus sharedMemoryCheck) {} ticks = some m) :
    m.restarts.count .notRunning = ticks.countP (·.running = -1) ∧
      m.restarts.count .zombie = ticks.countP fun t => t.running ≠ -1 ∧ t.runningAgain = -2 := by
  induction ticks using List.reverseRecOn generalizing m with
  | nil =>
      obtain rfl := Option.some.inj hrun
      exact ⟨rfl, rfl⟩
  | append_singleton ticks t ih =>
      obtain ⟨m', hbefore, hcall⟩ := run_concat_eq_some.mp hrun
      obtain ⟨hnotRunning, hzombie⟩ := ih hbefore
      obtain ⟨hnotRunning', hzombie'⟩ := count_checkRunning m' t
      rw [count_checkProcessStatus hcall (by decide), count_checkProcessStatus hcall (by decide),
        hnotRunning', hzombie', hnotRunning, hzombie, List.countP_append, List.countP_append,
        List.countP_singleton, List.countP_singleton]
      simp

/-- Every check that finds the process gone starts it again, and no other one does so for this
reason; every check whose first look finds that it has exited finds so again, and starts it. -/
theorem restarted_of_run {ps : Processes} {es : List Event}
    (hrun : run (step cfg) (start ps) es = some s) (hphase : s.phase = .outside .ready) :
    s.restarts.count .notRunning = s.ticks.countP (·.running = -1) ∧
      s.restarts.count .zombie =
        s.ticks.countP (fun t => t.running ≠ -1 ∧ t.runningAgain = -2) ∧
      ∀ t ∈ s.ticks, t.running = -2 → t.runningAgain = -2 := by
  have hkeep : ∀ s e s', OwnsOutside s ∧ Seen s → step cfg s e = some s' →
      OwnsOutside s' ∧ Seen s' :=
    fun s e s' h hstep => ⟨ownsOutside_step h.1 hstep, seen_step h.1 h.2 hstep⟩
  have hstart : OwnsOutside (start ps) ∧ Seen (start ps) :=
    ⟨fun point hpoint => (by cases hpoint), fun _ => trivial, fun t ht => (by cases ht)⟩
  obtain ⟨-, hseen⟩ := run_invariant hkeep hstart hrun
  obtain ⟨hnotRunning, hzombie⟩ := count_of_run ((Follows.of_run hrun).at_next hphase)
  exact ⟨hnotRunning, hzombie, hseen.ticks⟩

/-! ## Exits -/

theorem follows_of_run_exit : ∃ s,
    run (step sampleConfig) (start sampleProcesses) sampleExit = some s ∧ s.restarts = [.zombie] ∧
      run (ProcessManager.checkProcessStatus true) {} [⟨0, -2, 1⟩] =
        some ⟨s.shmChker, s.restarts⟩ := by
  have hsteps : ∃ s ∈ run (step sampleConfig) (start sampleProcesses) sampleExit,
      s.phase = .outside .ready ∧ s.restarts = [.zombie] ∧ s.ticks = [⟨0, -2, 1⟩] := by
    decide +kernel
  obtain ⟨s, hrun, hphase, hrestarts, hticks⟩ := hsteps
  have hfollows := follows_of_run hrun hphase
  rw [hticks] at hfollows
  exact ⟨s, hrun, hrestarts, hfollows⟩

def sampleMissing : List Event :=
  [.list, .listed, .list, .listed, .launch none, .check,
    .list, .listed, .list, .listed, .launch (some 9), .counter 0, .exits 9 false, .check, .check,
    .list, .listed, .list, .listed, .launch (some 10), .counter 1]

theorem restarted_of_run_missing : ∃ s,
    run (step sampleConfig) (start ∅) sampleMissing = some s ∧
      s.ticks = [⟨-1, 0, 0⟩, ⟨-2, -2, 1⟩] ∧ s.restarts.count .notRunning = 1 ∧
      s.restarts.count .zombie = 1 ∧
      ∀ t ∈ ([⟨-1, 0, 0⟩, ⟨-2, -2, 1⟩] : List Status), t.running = -2 → t.runningAgain = -2 := by
  have hsteps : ∃ s ∈ run (step sampleConfig) (start ∅) sampleMissing,
      s.phase = .outside .ready ∧ s.ticks = [⟨-1, 0, 0⟩, ⟨-2, -2, 1⟩] := by
    decide +kernel
  obtain ⟨s, hrun, hphase, hticks⟩ := hsteps
  have hrestarted := restarted_of_run hrun hphase
  rw [hticks] at hrestarted
  exact ⟨s, hrun, hticks, hrestarted⟩

end CloudEdgePush.Daemon.System
