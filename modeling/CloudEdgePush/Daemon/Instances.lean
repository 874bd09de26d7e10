import CloudEdgePush.Daemon.ProcessTable

/-!
# Instances of the program

* `killed_of_run`  — the daemon kills no process with another name, up to the first colon;
* `answers_of_run` — `isRunning` is asked about no process but the one that the daemon has started
  last;
* `single_of_run`  — outside of `startProcess` no other process of the program runs.
-/

namespace CloudEdgePush.Daemon.System

open CloudEdgePush.Lib.Transition
open ProcessHelper

variable {cfg : Config} {s s' : System} {e : Event}

/-! ## What the daemon kills -/

/-- No pid that is going to be killed is given to a process with another name. -/
def NoReuse (cfg : Config) (s : System) : Event → Prop
  | .starts pid name => pid ∈ s.phase.pids → shortName name = cfg.processName
  | _ => True

instance (cfg : Config) (s : System) : (e : Event) → Decidable (NoReuse cfg s e)
  | .starts pid name =>
      inferInstanceAs (Decidable (pid ∈ s.phase.pids → shortName name = cfg.processName))
  | .check | .counter _ | .list | .entry _ | .listed | .kill _ _ | .raise | .launch _ | .exits _ _
  | .waited _ => isTrue trivial

structure Named (cfg : Config) (s : System) : Prop where
  pids : ∀ pid ∈ s.phase.pids, ∀ p, s.processes.lookup pid = some p →
    shortName p.name = cfg.processName
  killed : ∀ p ∈ s.killed, shortName p.name = cfg.processName

theorem Named.dwindles (h : Named cfg s) (hps : Dwindles s.processes s'.processes)
    (hpids : s'.phase.pids ⊆ s.phase.pids) (hkilled : s'.killed = s.killed) : Named cfg s' where
  pids pid hpid p' hp' := by
    obtain ⟨p, hp, hname, -⟩ := hps pid p' hp'
    rw [hname]
    exact h.pids pid (hpids hpid) p hp
  killed := by
    rw [hkilled]
    exact h.killed

theorem Named.kill (h : Named cfg s) {pid : Nat} {pids : List Nat}
    (hphase : s.phase.pids = pid :: pids) (isChild ok reaped : Bool) (next : Next) :
    Named cfg (s.kill pid isChild ok reaped pids next) where
  pids q hq p' hp' := by
    obtain ⟨p, hp, hname, -⟩ := dwindles_killProcess _ _ _ _ _ q p' hp'
    rw [hname]
    refine h.pids q ?_ p hp
    rw [hphase]
    exact List.mem_cons_of_mem _ hq
  killed p hp := by
    rcases List.mem_append.mp hp with hold | hnew
    · exact h.killed p hold
    · obtain ⟨hlookup, -⟩ := Option.filter_eq_some_iff.mp (Option.mem_toList.mp hnew)
      exact h.pids pid (by rw [hphase]; exact List.mem_cons_self) p hlookup

theorem Named.entry (h : Named cfg s) {isChild : Bool} {todo pids todo' : List Nat} {next : Next}
    (hphase : s.phase = .starting (.listing isChild todo pids) next) (pid : Nat) :
    Named cfg { s with
      phase := .starting (.listing isChild todo'
        (readEntry cfg.processName s.processes pids pid)) next } where
  pids q hq p hp := by
    rcases readEntry_sound hq with hold | ⟨rfl, p', hp', hname⟩
    · exact h.pids q (by rw [hphase]; exact hold) p hp
    · obtain rfl := Option.some.inj (hp'.symm.trans hp)
      exact hname
  killed := h.killed

theorem Named.insert (h : Named cfg s) {pid : Nat} {p : Process} (hfresh : pid ∉ s.processes)
    (hp : pid ∈ s.phase.pids → shortName p.name = cfg.processName) :
    Named cfg { s with processes := s.processes.insert pid p } where
  pids q hq p' hp' := by
    by_cases heq : q = pid
    · subst heq
      rw [AList.lookup_insert] at hp'
      obtain rfl := Option.some.inj hp'
      exact hp hq
    · rw [AList.lookup_insert_ne heq] at hp'
      exact h.pids q hq p' hp'
  killed := h.killed

theorem named_step (h : Named cfg s) (hreuse : NoReuse cfg s e) (hstep : step cfg s e = some s') :
    Named cfg s' := by
  have hnone (pid : Nat) (hpid : pid ∈ ([] : List Nat)) : pid ∈ s.phase.pids := by cases hpid
  cases stepped_of_step hstep with
  | absent hphase habsent => exact h.dwindles (.refl _) hnone rfl
  | present hphase hpresent => exact h.dwindles (.refl _) hnone rfl
  | zombie hphase hzombie => exact h.dwindles (dwindles_waitpid _ _) hnone rfl
  | alive hphase halive => exact h.dwindles (.refl _) hnone rfl
  | unchecked sequence hphase hoff => exact h.dwindles (.refl _) hnone rfl
  | checked sequence hphase hon hcheck hresult => exact h.dwindles (.refl _) hnone rfl
  | hangs sequence hphase hon hcheck => exact h.dwindles (.refl _) hnone rfl
  | opens isChild hphase hstage => exact h.dwindles (.refl _) hnone rfl
  | entry pid hphase => exact h.entry hphase pid
  | listed hphase => exact h.dwindles (.refl _) (by rw [hphase]; exact List.Subset.refl _) rfl
  | kills ok reaped hphase => exact h.kill (by rw [hphase]; rfl) _ ok reaped _
  | ended => exact h.dwindles (.refl _) hnone rfl
  | missing hphase => exact h.dwindles (.refl _) hnone rfl
  | launched hphase hpid hfresh => exact ⟨fun pid hpid => (by cases hpid), h.killed⟩
  | exits reaped hp hruns => exact h.dwindles (dwindles_exit hp _) (List.Subset.refl _) rfl
  | waited hp hother => exact h.dwindles (dwindles_erase _ _) (List.Subset.refl _) rfl
  | starts name hpid hfresh => exact h.insert hfresh hreuse

/-- Unless a pid that was listed is given to another program before its turn, every process that the
daemon kills has the name of its program up to the first colon. -/
theorem killed_of_run {ps : Processes} {es : List Event}
    (hreuse : AllSteps (step cfg) (NoReuse cfg) (start ps) es)
    (hrun : run (step cfg) (start ps) es = some s) :
    ∀ p ∈ s.killed, shortName p.name = cfg.processName := by
  have hstart : Named cfg (start ps) :=
    ⟨fun pid hpid => (by cases hpid), fun p hp => (by cases hp)⟩
  have hnamed := run_guarded (fun s e s' h hreuse hstep => named_step h hreuse hstep) hstart hreuse
    hrun
  exact hnamed.killed

/-! ## What `isRunning` is asked about -/

/-- The last start failed, or the daemon has not waited for the process that it has started. -/
def Owns (s : System) : Prop :=
  s.pid = -1 ∨ 0 < s.pid ∧ ∃ p, s.processes.lookup s.pid.toNat = some p ∧ p.child = true

def OwnsOutside (s : System) : Prop := ∀ point, s.phase = .outside point → s.Owns

theorem Owns.keeps (h : s.Owns) {ps : Processes}
    (hkeeps : ∀ pid p, s.processes.lookup pid = some p → p.child = true →
      ∃ p', ps.lookup pid = some p' ∧ p'.child = true) : { s with processes := ps }.Owns := by
  rcases h with hfailed | ⟨hpid, p, hp, hchild⟩
  · exact .inl hfailed
  · exact .inr ⟨hpid, hkeeps _ p hp hchild⟩

theorem ownsOutside_step (h : s.OwnsOutside) (hstep : step cfg s e = some s') : s'.OwnsOutside := by
  cases stepped_of_step hstep with
  | present hphase hpresent => exact fun _ _ => h _ hphase
  | alive hphase halive => exact fun _ _ => h _ hphase
  | unchecked sequence hphase hoff => exact fun _ _ => h _ hphase
  | checked sequence hphase hon hcheck hresult => exact fun _ _ => h _ hphase
  | missing hphase => exact fun _ _ => .inl rfl
  | @launched pid next hphase hpid hfresh =>
      refine fun _ _ => .inr ⟨?_, ⟨cfg.startedName, true, false⟩, ?_, rfl⟩
      · show 0 < (pid : Int)
        omega
      · exact AList.lookup_insert _
  | @exits pid p reaped hp hruns =>
      refine fun point hpoint => (h point hpoint).keeps fun q p' hp' hchild => ?_
      by_cases hq : q = pid
      · subst hq
        obtain rfl := Option.some.inj (hp.symm.trans hp')
        refine ⟨{ p with zombie := true }, ?_, hchild⟩
        rw [lookup_exit, if_pos rfl, hchild, Bool.not_true, Bool.and_false]
        exact if_neg Bool.false_ne_true
      · refine ⟨p', ?_, hchild⟩
        rw [lookup_exit, if_neg hq, hp']
  | @waited pid p hp hother =>
      refine fun point hpoint => (h point hpoint).keeps fun q p' hp' hchild => ?_
      have hq : q ≠ pid := by
        rintro rfl
        obtain rfl := Option.some.inj (hp.symm.trans hp')
        rw [hother] at hchild
        cases hchild
      exact ⟨p', (AList.lookup_erase_ne hq).trans hp', hchild⟩
  | @starts pid name hpid hfresh =>
      refine fun point hpoint => (h point hpoint).keeps fun q p' hp' hchild => ?_
      have hq : q ≠ pid := by
        rintro rfl
        exact hfresh (AList.lookup_isSome.mp (by rw [hp']; rfl))
      exact ⟨p', (AList.lookup_insert_ne hq).trans hp', hchild⟩
  | _ => exact fun point hpoint => (by cases hpoint)

/-- The pid is never that of another process: -1 is the answer exactly after a start that failed,
and the other answers say whether the child has exited. -/
theorem answers_of_run {ps : Processes} {es : List Event} {point : Point}
    (hrun : run (step cfg) (start ps) es = some s) (hphase : s.phase = .outside point) :
    s.pid = -1 ∧ isRunning s.processes s.pid = -1 ∨
      ∃ p, s.processes.lookup s.pid.toNat = some p ∧ p.child = true ∧
        isRunning s.processes s.pid = if p.zombie then -2 else 0 := by
  have hstart : (start ps).OwnsOutside := fun point hpoint => (by cases hpoint)
  have howns := run_invariant (I := OwnsOutside) (fun s e s' h hstep => ownsOutside_step h hstep)
    hstart hrun point hphase
  unfold isRunning
  rcases howns with hfailed | ⟨hpid, p, hp, hchild⟩
  · rw [hfailed]
    exact .inl ⟨rfl, rfl⟩
  · refine .inr ⟨p, hp, hchild, ?_⟩
    rw [if_neg (by omega), hp]

/-! ## What runs -/

def Confined (cfg : Config) (ps : Processes) (Q : Nat → Prop) : Prop :=
  ∀ pid p, ps.lookup pid = some p → p.zombie = false → shortName p.name = cfg.processName → Q pid

theorem Confined.dwindles {ps ps' : Processes} {Q : Nat → Prop} (h : Confined cfg ps Q)
    (hps : Dwindles ps ps') : Confined cfg ps' Q := by
  intro pid p' hp' hruns hname
  obtain ⟨p, hp, hsame, -, hzombie⟩ := hps pid p' hp'
  exact h pid p hp (hzombie hruns) (hsame ▸ hname)

theorem Confined.insert {ps : Processes} {Q : Nat → Prop} (h : Confined cfg ps Q) {pid : Nat}
    {p : Process} (hp : shortName p.name = cfg.processName → Q pid) :
    Confined cfg (ps.insert pid p) Q := by
  intro q p' hp' hruns hname
  by_cases hq : q = pid
  · subst hq
    rw [AList.lookup_insert] at hp'
    obtain rfl := Option.some.inj hp'
    exact hp hname
  · rw [AList.lookup_insert_ne hq] at hp'
    exact h q p' hp' hruns hname

theorem Confined.kill {ps : Processes} {pid : Nat} {pids : List Nat}
    (h : Confined cfg ps (· ∈ pid :: pids)) (reaped : Bool) :
    Confined cfg (killProcess ps pid false true reaped) (· ∈ pids) := by
  intro q p' hp' hruns hname
  have hmem := h.dwindles (dwindles_killProcess ps pid false true reaped) q p' hp' hruns hname
  refine (List.mem_cons.mp hmem).resolve_left fun hq => ?_
  subst hq
  unfold killProcess at hp'
  split at hp'
  · rename_i hnone
    rw [hnone] at hp'
    cases hp'
  · rename_i p hp
    cases hzombie : p.zombie with
    | true =>
        rw [hzombie, Bool.not_true, Bool.false_and, if_neg Bool.false_ne_true,
          if_neg Bool.false_ne_true, hp] at hp'
        obtain rfl := Option.some.inj hp'
        rw [hzombie] at hruns
        cases hruns
    | false =>
        rw [hzombie, Bool.not_false, Bool.true_and, if_neg Bool.false_ne_true, if_pos rfl,
          lookup_exit, if_pos rfl] at hp'
        obtain ⟨-, hp'⟩ := Option.ite_none_left_eq_some.mp hp'
        obtain rfl := Option.some.inj hp'
        cases hruns

theorem confined_keys (ps : Processes) : Confined cfg ps (· ∈ ps.keys) := by
  intro pid p hp _ _
  exact AList.mem_keys.mpr (AList.lookup_isSome.mp (by rw [hp]; rfl))

theorem Confined.entry {ps : Processes} {todo pids : List Nat}
    (h : Confined cfg ps fun q => q ∈ todo ∨ q ∈ pids) (pid : Nat) :
    Confined cfg ps fun q =>
      q ∈ todo.erase pid ∨ q ∈ readEntry cfg.processName ps pids pid := by
  intro q p hp hruns hname
  by_cases hq : q = pid
  · subst hq
    exact .inr (mem_readEntry_self hp hname)
  · exact (h q p hp hruns hname).imp (List.mem_erase_of_ne hq).mpr mem_readEntry_of_mem

/-- Nobody else starts the program, and the daemon may kill those who run it. -/
def Undisturbed (cfg : Config) (_ : System) : Event → Prop
  | .starts _ name => shortName name ≠ cfg.processName
  | .kill ok _ => ok = true
  | _ => True

instance (cfg : Config) (s : System) : (e : Event) → Decidable (Undisturbed cfg s e)
  | .starts _ name => inferInstanceAs (Decidable (shortName name ≠ cfg.processName))
  | .kill ok _ => inferInstanceAs (Decidable (ok = true))
  | .check | .counter _ | .list | .entry _ | .listed | .raise | .launch _ | .exits _ _
  | .waited _ => isTrue trivial

def ChildrenNamed (name : String) (ps : Processes) : Prop :=
  ∀ pid p, ps.lookup pid = some p → p.child = true → p.name = name

/-- The processes that can run the program: outside of `startProcess` the one that the daemon
watches, and once it lists the others those that are still to be read or killed. -/
def Suspected (s : System) (pid : Nat) : Prop :=
  match s.phase with
  | .outside _ => (pid : Int) = s.pid
  | .starting (.listing false todo pids) _ => pid ∈ todo ∨ pid ∈ pids
  | .starting (.kill false pids) _ => pid ∈ pids
  | _ => True

structure Alone (cfg : Config) (s : System) : Prop where
  children : ChildrenNamed cfg.startedName s.processes
  confined : Confined cfg s.processes s.Suspected

theorem ChildrenNamed.dwindles {ps ps' : Processes} {name : String} (h : ChildrenNamed name ps)
    (hps : Dwindles ps ps') : ChildrenNamed name ps' := by
  intro pid p' hp' hchild
  obtain ⟨p, hp, hname, hsame, -⟩ := hps pid p' hp'
  rw [hname]
  exact h pid p hp (hsame ▸ hchild)

theorem ChildrenNamed.insert {ps : Processes} {name : String} (h : ChildrenNamed name ps)
    {pid : Nat} {p : Process} (hp : p.child = true → p.name = name) :
    ChildrenNamed name (ps.insert pid p) := by
  intro q p' hp' hchild
  by_cases hq : q = pid
  · subst hq
    rw [AList.lookup_insert] at hp'
    obtain rfl := Option.some.inj hp'
    exact hp hchild
  · rw [AList.lookup_insert_ne hq] at hp'
    exact h q p' hp' hchild

theorem Alone.dwindles (h : Alone cfg s) {ps : Processes} (hps : Dwindles s.processes ps) :
    Alone cfg { s with processes := ps } where
  children := h.children.dwindles hps
  confined := h.confined.dwindles hps

theorem Alone.confined_of (h : Alone cfg s) {phase : Phase} (hphase : s.phase = phase) :
    Confined cfg s.processes (Suspected { s with phase := phase }) := by
  subst hphase
  exact h.confined

theorem Alone.opens (h : Alone cfg s) (isChild : Bool) (next : Next) :
    Alone cfg { s with phase := .starting (.listing isChild s.processes.keys []) next } := by
  refine ⟨h.children, ?_⟩
  cases isChild with
  | true => exact fun _ _ _ _ _ => trivial
  | false => exact fun pid p hp hruns hname => .inl (confined_keys _ pid p hp hruns hname)

theorem Alone.entry (h : Alone cfg s) {isChild : Bool} {todo pids : List Nat} {next : Next}
    (hphase : s.phase = .starting (.listing isChild todo pids) next) (pid : Nat) :
    Alone cfg { s with
      phase := .starting (.listing isChild (todo.erase pid)
        (readEntry cfg.processName s.processes pids pid)) next } := by
  refine ⟨h.children, ?_⟩
  cases isChild with
  | true => exact fun _ _ _ _ _ => trivial
  | false => exact (h.confined_of hphase).entry pid

theorem Alone.listed (h : Alone cfg s) {isChild : Bool} {pids : List Nat} {next : Next}
    (hphase : s.phase = .starting (.listing isChild [] pids) next) :
    Alone cfg { s with phase := .starting (.kill isChild pids) next } := by
  refine ⟨h.children, ?_⟩
  cases isChild with
  | true => exact fun _ _ _ _ _ => trivial
  | false =>
      exact fun pid p hp hruns hname =>
        (h.confined_of hphase pid p hp hruns hname).resolve_left List.not_mem_nil

theorem Alone.kill (h : Alone cfg s) {isChild : Bool} {pid : Nat} {pids : List Nat} {next : Next}
    (hphase : s.phase = .starting (.kill isChild (pid :: pids)) next) (reaped : Bool) :
    Alone cfg (s.kill pid isChild true reaped pids next) := by
  refine ⟨h.children.dwindles (dwindles_killProcess _ _ _ _ _), ?_⟩
  cases isChild with
  | true => exact fun _ _ _ _ _ => trivial
  | false => exact Confined.kill (h.confined_of hphase) reaped

theorem Alone.nothing (h : Alone cfg s) {next : Next}
    (hphase : s.phase = .starting (.kill false []) next) (Q : Nat → Prop) :
    Confined cfg s.processes Q :=
  fun pid p hp hruns hname =>
    absurd (h.confined_of hphase pid p hp hruns hname) List.not_mem_nil

theorem alone_step (h : Alone cfg s) (hguard : Undisturbed cfg s e)
    (hstep : step cfg s e = some s') : Alone cfg s' := by
  cases stepped_of_step hstep with
  | absent hphase habsent => exact ⟨h.children, fun _ _ _ _ _ => trivial⟩
  | present hphase hpresent => exact ⟨h.children, h.confined_of hphase⟩
  | zombie hphase hzombie =>
      exact ⟨h.children.dwindles (dwindles_waitpid _ _), fun _ _ _ _ _ => trivial⟩
  | alive hphase halive => exact ⟨h.children, h.confined_of hphase⟩
  | unchecked sequence hphase hoff => exact ⟨h.children, h.confined_of hphase⟩
  | checked sequence hphase hon hcheck hresult => exact ⟨h.children, h.confined_of hphase⟩
  | hangs sequence hphase hon hcheck => exact ⟨h.children, fun _ _ _ _ _ => trivial⟩
  | opens isChild hphase hstage => exact h.opens isChild _
  | entry pid hphase => exact h.entry hphase pid
  | listed hphase => exact h.listed hphase
  | kills ok reaped hphase =>
      obtain rfl : ok = true := hguard
      exact h.kill hphase reaped
  | ended => exact ⟨h.children, fun _ _ _ _ _ => trivial⟩
  | missing hphase => exact ⟨h.children, h.nothing hphase _⟩
  | launched hphase hpid hfresh =>
      exact ⟨h.children.insert fun _ => rfl, (h.nothing hphase _).insert fun _ => rfl⟩
  | exits reaped hp hruns => exact h.dwindles (dwindles_exit hp _)
  | waited hp hother => exact h.dwindles (dwindles_erase _ _)
  | starts name hpid hfresh =>
      exact ⟨h.children.insert fun hchild => (by cases hchild),
        h.confined.insert fun hname => absurd hname hguard⟩

/-- Outside of `startProcess` there is one process of the program at most, counting all children of
the daemon: the one that it watches. -/
theorem single_of_run {ps : Processes} {es : List Event} {point : Point}
    (hname : shortName cfg.startedName = cfg.processName)
    (hchildren : ∀ pid p, ps.lookup pid = some p → p.child = false)
    (hguard : AllSteps (step cfg) (Undisturbed cfg) (start ps) es)
    (hrun : run (step cfg) (start ps) es = some s) (hphase : s.phase = .outside point) :
    ∀ pid p, s.processes.lookup pid = some p → p.zombie = false →
      shortName p.name = cfg.processName ∨ p.child = true → (pid : Int) = s.pid := by
  have hstart : Alone cfg (start ps) := by
    refine ⟨fun pid p hp hchild => ?_, fun _ _ _ _ _ => trivial⟩
    rw [hchildren pid p hp] at hchild
    cases hchild
  have halone := run_guarded (fun s e s' h hguard hstep => alone_step h hguard hstep) hstart hguard
    hrun
  intro pid p hp hruns hname'
  refine halone.confined_of hphase pid p hp hruns ?_
  rcases hname' with hprogram | hchild
  · exact hprogram
  · rw [halone.children pid p hp hchild, hname]

/-! ## An exit -/

def sampleConfig : Config := ⟨"edge_app", true, "edge_daemon", "edge_app"⟩

def sampleProcesses : Processes :=
  ((∅ : Processes).insert 3 ⟨"sh", false, false⟩).insert 7 ⟨"edge_app:1", false, false⟩

/-- The daemon replaces the process 7 by 9, which exits before the second call of `isRunning`.  Of
the shells, 12 has started when the last listing begins, and 13 has not. -/
def sampleExit : List Event :=
  [.list, .entry 3, .entry 7, .listed, .kill true true,
    .list, .entry 7, .entry 3, .listed, .kill true true,
    .launch (some 9), .starts 12 "sh", .check, .exits 9 true, .check,
    .list, .entry 3, .entry 12, .listed, .list, .entry 3, .starts 13 "sh", .entry 13, .entry 12,
    .listed, .launch (some 10), .counter 1]

theorem killed_of_run_exit : ∃ s,
    run (step sampleConfig) (start sampleProcesses) sampleExit = some s ∧ s.killed.length = 1 ∧
      ∀ p ∈ s.killed, shortName p.name = "edge_app" := by
  have hsteps : ∃ s ∈ run (step sampleConfig) (start sampleProcesses) sampleExit,
      s.killed.length = 1 := by decide +kernel
  obtain ⟨s, hrun, hkilled⟩ := hsteps
  have hnames : ∀ p ∈ s.killed, shortName p.name = sampleConfig.processName :=
    killed_of_run (by decide +kernel) hrun
  exact ⟨s, hrun, hkilled, hnames⟩

theorem single_of_run_exit : ∃ s,
    run (step sampleConfig) (start sampleProcesses) sampleExit = some s ∧
      ∀ pid p, s.processes.lookup pid = some p → p.zombie = false →
        shortName p.name = "edge_app" ∨ p.child = true → (pid : Int) = 10 := by
  have hsteps : ∃ s ∈ run (step sampleConfig) (start sampleProcesses) sampleExit,
      s.phase = .outside .ready ∧ s.pid = 10 := by decide +kernel
  obtain ⟨s, hrun, hphase, hpid⟩ := hsteps
  have hchildren : ∀ pid p, sampleProcesses.lookup pid = some p → p.child = false := by
    have hall : ∀ pid ∈ sampleProcesses.keys, ∀ p ∈ sampleProcesses.lookup pid,
        p.child = false := by decide +kernel
    intro pid p hp
    exact hall pid (AList.mem_keys.mpr (AList.lookup_isSome.mp (by rw [hp]; rfl))) p hp
  refine ⟨s, hrun, ?_⟩
  rw [← hpid]
  exact single_of_run (by decide +kernel) hchildren (by decide +kernel) hrun hphase

theorem answers_of_run_exit : ∃ s,
    run (step sampleConfig) (start sampleProcesses) (sampleExit.take 14) = some s ∧
      ∃ p, s.processes.lookup 9 = some p ∧ p.child = true ∧ isRunning s.processes 9 = -2 := by
  have hsteps : ∃ s ∈ run (step sampleConfig) (start sampleProcesses) (sampleExit.take 14),
      s.phase = .outside .again ∧ s.pid = 9 ∧
        s.processes.lookup 9 = some ⟨"edge_app", true, true⟩ := by decide +kernel
  obtain ⟨s, hrun, hphase, hpid, hzombie⟩ := hsteps
  have hanswers := answers_of_run hrun hphase
  rw [hpid] at hanswers
  rcases hanswers with ⟨hfailed, -⟩ | ⟨p, hp, hchild, hanswer⟩
  · cases hfailed
  · obtain rfl := Option.some.inj (hzombie.symm.trans hp)
    exact ⟨s, hrun, _, hp, rfl, hanswer⟩

end CloudEdgePush.Daemon.System
