import CloudEdgePush.Daemon.SharedMemoryChecker
import Mathlib.Data.List.AList
import Mathlib.Data.List.DropRight

/-!
# The processes of the daemon

`ProcessManager` on a table of processes, which `/proc`, `kill` and `waitpid` look at.  The table
changes at any time: between two calls of the daemon to the system, and so between two entries of
`/proc`, other processes are started, processes exit, and those that are not children of the daemon
are waited for by their parents.
-/

namespace CloudEdgePush.Daemon

open CloudEdgePush.Lib.Transition

structure Process where
  /-- What the first line of its `status` file has behind `Name:` and a tab. -/
  name : String
  /-- The daemon is its parent. -/
  child : Bool
  zombie : Bool
deriving DecidableEq, Repr

abbrev Processes := AList fun _ : Nat => Process

/-- `daemonName` and `startedName` are the names in the `status` files of the daemon itself and of a
process that runs the program `processName`. -/
structure Config where
  processName : String
  sharedMemoryCheck : Bool
  daemonName : String
  startedName : String

/-! ## `ProcessHelper` -/

namespace ProcessHelper

/-- `isRunning`; there is no status file for 0 and -1, and children can be signalled. -/
def isRunning (ps : Processes) (pid : Int) : Int :=
  if pid ≤ 0 then -1
  else
    match ps.lookup pid.toNat with
    | none => -1
    | some p => if p.zombie then -2 else 0

def isSpace (c : Char) : Bool := c == ' ' || 9 ≤ c.toNat && c.toNat ≤ 13

def trimCopy (text : List Char) : List Char := (text.dropWhile isSpace).rdropWhile isSpace

/-- `trim_copy(a[1])`, where `a` is the first line of a `status` file, split at its colons;
`token_compress_on` takes neighbouring colons for one. -/
def listedName (name : String) : String :=
  let line := "Name:\t".toList ++ name.toList
  let second := ((line.dropWhile (· ≠ ':')).dropWhile (· = ':')).takeWhile (· ≠ ':')
  String.ofList (trimCopy second)

def shortName (name : String) : String :=
  String.ofList (trimCopy (name.toList.takeWhile (· ≠ ':')))

theorem listedName_eq (name : String) : listedName name = shortName name := by
  have hprefix : "Name:\t".toList = ['N', 'a', 'm', 'e', ':', '\t'] := rfl
  have htrim (text : List Char) : trimCopy ('\t' :: text) = trimCopy text := rfl
  rw [listedName, hprefix]
  simp [shortName, List.dropWhile, htrim]

def readEntry (processName : String) (ps : Processes) (pids : List Nat) (pid : Nat) : List Nat :=
  match ps.lookup pid with
  | none => pids
  | some p => if listedName p.name = processName then pids ++ [pid] else pids

/-- The end of a process; it is a zombie until its parent has waited for it. -/
def exit (ps : Processes) (pid : Nat) (p : Process) (reaped : Bool) : Processes :=
  if reaped then ps.erase pid else ps.insert pid { p with zombie := true }

/-- The process that `killProcess` kills, if the signal can be sent: `terminate` does nothing to a
process that is not a child. -/
def victim (ps : Processes) (pid : Nat) (isChild ok : Bool) : Option Process :=
  (ps.lookup pid).filter fun p => ok && !p.zombie && (!isChild || p.child)

def killProcess (ps : Processes) (pid : Nat) (isChild ok reaped : Bool) : Processes :=
  match ps.lookup pid with
  | none => ps
  | some p =>
      if isChild then
        if p.child && (p.zombie || ok) then exit ps pid p reaped else ps
      else if !p.zombie && ok then exit ps pid p (reaped && !p.child)
      else ps

def waitpid (ps : Processes) (pid : Nat) : Processes :=
  match ps.lookup pid with
  | none => ps
  | some p => if p.child && p.zombie then ps.erase pid else ps

section

variable {ps : Processes} {pid : Nat} {p : Process}

theorem lookup_exit (ps : Processes) (pid : Nat) (p : Process) (reaped : Bool) (q : Nat) :
    (exit ps pid p reaped).lookup q =
      if q = pid then if reaped then none else some { p with zombie := true } else ps.lookup q := by
  unfold exit
  by_cases hq : q = pid
  · subst hq
    cases reaped with
    | true => simp [AList.lookup_erase]
    | false => simp [AList.lookup_insert]
  · cases reaped with
    | true => simp [hq, AList.lookup_erase_ne]
    | false => simp [hq, AList.lookup_insert_ne]

def Dwindles (ps ps' : Processes) : Prop :=
  ∀ pid p', ps'.lookup pid = some p' → ∃ p, ps.lookup pid = some p ∧ p'.name = p.name ∧
    p'.child = p.child ∧ (p'.zombie = false → p.zombie = false)

theorem Dwindles.refl (ps : Processes) : Dwindles ps ps :=
  fun _ p' hp' => ⟨p', hp', rfl, rfl, id⟩

theorem readEntry_sound {processName : String} {pids : List Nat} {q : Nat}
    (hq : q ∈ readEntry processName ps pids pid) :
    q ∈ pids ∨ q = pid ∧ ∃ p, ps.lookup pid = some p ∧ shortName p.name = processName := by
  unfold readEntry at hq
  split at hq
  · exact .inl hq
  · rename_i p hp
    split at hq
    · rename_i hname
      rw [listedName_eq] at hname
      exact (List.mem_append.mp hq).imp_right fun hnew =>
        ⟨List.mem_singleton.mp hnew, p, hp, hname⟩
    · exact .inl hq

theorem mem_readEntry_of_mem {processName : String} {pids : List Nat} {q : Nat} (hq : q ∈ pids) :
    q ∈ readEntry processName ps pids pid := by
  unfold readEntry
  split
  · exact hq
  · split
    · exact List.mem_append_left _ hq
    · exact hq

theorem mem_readEntry_self {processName : String} {pids : List Nat} (hp : ps.lookup pid = some p)
    (hname : shortName p.name = processName) : pid ∈ readEntry processName ps pids pid := by
  rw [readEntry, hp]
  dsimp only
  rw [listedName_eq, if_pos hname]
  exact List.mem_append_right _ (List.mem_singleton_self pid)

theorem dwindles_exit (hp : ps.lookup pid = some p) (reaped : Bool) :
    Dwindles ps (exit ps pid p reaped) := by
  intro q p' hp'
  rw [lookup_exit] at hp'
  split at hp'
  · rename_i hq
    subst hq
    obtain ⟨-, hp'⟩ := Option.ite_none_left_eq_some.mp hp'
    obtain rfl := Option.some.inj hp'
    exact ⟨p, hp, rfl, rfl, fun hzombie => by cases hzombie⟩
  · exact ⟨p', hp', rfl, rfl, id⟩

theorem dwindles_erase (ps : Processes) (pid : Nat) : Dwindles ps (ps.erase pid) := by
  intro q p' hp'
  by_cases hq : q = pid
  · subst hq
    rw [AList.lookup_erase] at hp'
    cases hp'
  · rw [AList.lookup_erase_ne hq] at hp'
    exact ⟨p', hp', rfl, rfl, id⟩

theorem dwindles_killProcess (ps : Processes) (pid : Nat) (isChild ok reaped : Bool) :
    Dwindles ps (killProcess ps pid isChild ok reaped) := by
  unfold killProcess
  split
  · exact .refl ps
  · rename_i p hp
    split
    · split
      · exact dwindles_exit hp reaped
      · exact .refl ps
    · split
      · exact dwindles_exit hp _
      · exact .refl ps

theorem dwindles_waitpid (ps : Processes) (pid : Nat) : Dwindles ps (waitpid ps pid) := by
  unfold waitpid
  split
  · exact .refl ps
  · split
    · exact dwindles_erase ps pid
    · exact .refl ps

end

end ProcessHelper

open ProcessHelper

/-! ## `ProcessManager` -/

/-- How far `startProcess` is: it lists the processes of the name and kills the children among them,
and then it lists them again and kills the others. -/
inductive Stage
  | list
  /-- `getAllProcessPidsByName`: the processes that it has not come to among those that were there
  when it opened `/proc`, and the pids that it has found. -/
  | listing (isChild : Bool) (todo pids : List Nat)
  | kill (isChild : Bool) (pids : List Nat)
deriving DecidableEq

/-- The next thing to do, apart from `startProcess`: the first call of `isRunning`, the second one,
or the check of the shared memory. -/
inductive Point
  | ready
  | again
  | sharedMemory
deriving DecidableEq

inductive Next
  | ready
  | sharedMemory
deriving DecidableEq

def Next.point : Next → Point
  | .ready => .ready
  | .sharedMemory => .sharedMemory

theorem Next.point_ne_again (next : Next) : next.point ≠ .again := by
  cases next with
  | ready => exact Point.noConfusion
  | sharedMemory => exact Point.noConfusion

inductive Phase
  | outside (point : Point)
  | starting (stage : Stage) (next : Next)
  /-- `main` has returned. -/
  | ended
deriving DecidableEq

def Phase.next? : Phase → Option Point
  | .outside point => some point
  | .starting _ next => some next.point
  | .ended => none

def Phase.pids : Phase → List Nat
  | .starting (.listing _ _ pids) _ => pids
  | .starting (.kill _ pids) _ => pids
  | _ => []

structure System where
  processes : Processes
  pid : Int
  shmChker : SharedMemoryChecker
  phase : Phase
  /-- The last results of the two calls of `isRunning`. -/
  running : Int
  runningAgain : Int
  /-- The processes that the daemon has killed. -/
  killed : List Process
  /-- Why `startProcess` was called, apart from `main`. -/
  restarts : List Cause
  /-- The calls of `checkProcessStatus` so far. -/
  ticks : List Status

namespace System

inductive Event
  /-- A call of `isRunning`. -/
  | check
  /-- The check of the shared memory finds this counter. -/
  | counter (sequence : UInt64)
  /-- The list of the entries of `/proc` is opened. -/
  | list
  /-- The next entry; those of processes that start in the meantime may or may not come. -/
  | entry (pid : Nat)
  /-- The last entry has been read. -/
  | listed
  | kill (ok reaped : Bool)
  /-- The command `kill` cannot be started. -/
  | raise
  /-- `startProcess` of the helper; the program may be missing. -/
  | launch (pid : Option Nat)
  /-- A process exits by itself. -/
  | exits (pid : Nat) (reaped : Bool)
  /-- Someone else waits for a child of theirs. -/
  | waited (pid : Nat)
  /-- Someone else starts a process. -/
  | starts (pid : Nat) (name : String)

def start (ps : Processes) : System :=
  ⟨ps, 0, {}, .starting .list .ready, 0, 0, [], [], []⟩

variable (cfg : Config) (s : System)

def startProcess (cause : Cause) (next : Next) : System :=
  { s with phase := .starting .list next, restarts := s.restarts ++ [cause] }

/-- `getAllProcessPidsByName` starts.  The first entry is `/proc/self`, whose name is no number, and
nothing catches the exception of `std::stoi`. -/
def listing (isChild : Bool) (next : Next) : System :=
  { s with
    phase :=
      if listedName cfg.daemonName = cfg.processName then .ended
      else .starting (.listing isChild s.processes.keys []) next }

def kill (pid : Nat) (isChild ok reaped : Bool) (pids : List Nat) (next : Next) : System :=
  { s with
    processes := killProcess s.processes pid isChild ok reaped
    killed := s.killed ++ (victim s.processes pid isChild ok).toList
    phase := .starting (.kill isChild pids) next }

def launched (pid : Nat) (next : Next) : System :=
  { s with
    processes := s.processes.insert pid ⟨cfg.startedName, true, false⟩
    pid := pid
    phase := .outside next.point }

/-- `checkProcessStatus`, up to the second call of `isRunning`. -/
def checkRunning : System :=
  let s := { s with running := isRunning s.processes s.pid }
  if s.running = -1 then s.startProcess .notRunning .sharedMemory
  else { s with phase := .outside .again }

def checkAgain : System :=
  let s := { s with runningAgain := isRunning s.processes s.pid }
  if s.runningAgain = -2 then
    { s with processes := waitpid s.processes s.pid.toNat }.startProcess .zombie .sharedMemory
  else { s with phase := .outside .sharedMemory }

def checkSharedMemory (sequence : UInt64) : Option System :=
  let s := { s with
    ticks := s.ticks ++ [⟨s.running, s.runningAgain, sequence⟩]
    phase := .outside .ready }
  if cfg.sharedMemoryCheck then
    (s.shmChker.check sequence).map fun (result, shmChker) =>
      let s := { s with shmChker := shmChker }
      if result = -2 then s.startProcess .sharedMemory .ready else s
  else some s

def step : Event → Option System
  | .check =>
      match s.phase with
      | .outside .ready => some s.checkRunning
      | .outside .again => some s.checkAgain
      | _ => none
  | .counter sequence =>
      match s.phase with
      | .outside .sharedMemory => s.checkSharedMemory cfg sequence
      | _ => none
  | .list =>
      match s.phase with
      | .starting .list next => some (s.listing cfg true next)
      | .starting (.kill true []) next => some (s.listing cfg false next)
      | _ => none
  | .entry pid =>
      match s.phase with
      | .starting (.listing isChild todo pids) next =>
          some { s with
            phase := .starting (.listing isChild (todo.erase pid)
              (readEntry cfg.processName s.processes pids pid)) next }
      | _ => none
  | .listed =>
      match s.phase with
      | .starting (.listing isChild [] pids) next =>
          some { s with phase := .starting (.kill isChild pids) next }
      | _ => none
  | .kill ok reaped =>
      match s.phase with
      | .starting (.kill isChild (pid :: pids)) next =>
          some (s.kill pid isChild ok reaped pids next)
      | _ => none
  | .raise =>
      match s.phase with
      | .starting (.kill false (_ :: _)) _ => some { s with phase := .ended }
      | _ => none
  | .launch pid =>
      match s.phase, pid with
      | .starting (.kill false []) next, none =>
          some { s with pid := -1, phase := .outside next.point }
      | .starting (.kill false []) next, some pid =>
          if pid = 0 ∨ pid ∈ s.processes then none else some (s.launched cfg pid next)
      | _, _ => none
  | .exits pid reaped =>
      match s.processes.lookup pid with
      | none => none
      | some p =>
          if p.zombie then none
          else some { s with processes := exit s.processes pid p (reaped && !p.child) }
  | .waited pid =>
      match s.processes.lookup pid with
      | none => none
      | some p =>
          if p.zombie && !p.child then some { s with processes := s.processes.erase pid } else none
  | .starts pid name =>
      if pid = 0 ∨ pid ∈ s.processes then none
      else some { s with processes := s.processes.insert pid ⟨name, false, false⟩ }

/-! ## Steps -/

inductive Stepped (cfg : Config) (s : System) : Event → System → Prop
  | absent (hphase : s.phase = .outside .ready) (habsent : isRunning s.processes s.pid = -1) :
      Stepped cfg s .check ({ s with running := -1 }.startProcess .notRunning .sharedMemory)
  | present (hphase : s.phase = .outside .ready) (hpresent : isRunning s.processes s.pid ≠ -1) :
      Stepped cfg s .check
        { s with running := isRunning s.processes s.pid, phase := .outside .again }
  | zombie (hphase : s.phase = .outside .again) (hzombie : isRunning s.processes s.pid = -2) :
      Stepped cfg s .check
        ({ s with
          runningAgain := -2
          processes := waitpid s.processes s.pid.toNat }.startProcess .zombie .sharedMemory)
  | alive (hphase : s.phase = .outside .again) (halive : isRunning s.processes s.pid ≠ -2) :
      Stepped cfg s .check
        { s with runningAgain := isRunning s.processes s.pid, phase := .outside .sharedMemory }
  | unchecked (sequence : UInt64) (hphase : s.phase = .outside .sharedMemory)
      (hoff : cfg.sharedMemoryCheck = false) :
      Stepped cfg s (.counter sequence)
        { s with
          ticks := s.ticks ++ [⟨s.running, s.runningAgain, sequence⟩]
          phase := .outside .ready }
  | checked (sequence : UInt64) {result : Int} {shmChker : SharedMemoryChecker}
      (hphase : s.phase = .outside .sharedMemory) (hon : cfg.sharedMemoryCheck = true)
      (hcheck : s.shmChker.check sequence = some (result, shmChker)) (hresult : result ≠ -2) :
      Stepped cfg s (.counter sequence)
        { s with
          ticks := s.ticks ++ [⟨s.running, s.runningAgain, sequence⟩]
          shmChker := shmChker
          phase := .outside .ready }
  | hangs (sequence : UInt64) {shmChker : SharedMemoryChecker}
      (hphase : s.phase = .outside .sharedMemory) (hon : cfg.sharedMemoryCheck = true)
      (hcheck : s.shmChker.check sequence = some (-2, shmChker)) :
      Stepped cfg s (.counter sequence)
        (startProcess
          { s with
            ticks := s.ticks ++ [⟨s.running, s.runningAgain, sequence⟩]
            shmChker := shmChker } .sharedMemory .ready)
  | opens (isChild : Bool) {stage : Stage} {next : Next} (hphase : s.phase = .starting stage next)
      (hstage : stage = if isChild then .list else .kill true []) :
      Stepped cfg s .list
        { s with phase := .starting (.listing isChild s.processes.keys []) next }
  | entry (pid : Nat) {isChild : Bool} {todo pids : List Nat} {next : Next}
      (hphase : s.phase = .starting (.listing isChild todo pids) next) :
      Stepped cfg s (.entry pid)
        { s with
          phase := .starting (.listing isChild (todo.erase pid)
            (readEntry cfg.processName s.processes pids pid)) next }
  | listed {isChild : Bool} {pids : List Nat} {next : Next}
      (hphase : s.phase = .starting (.listing isChild [] pids) next) :
      Stepped cfg s .listed { s with phase := .starting (.kill isChild pids) next }
  | kills (ok reaped : Bool) {isChild : Bool} {pid : Nat} {pids : List Nat} {next : Next}
      (hphase : s.phase = .starting (.kill isChild (pid :: pids)) next) :
      Stepped cfg s (.kill ok reaped) (s.kill pid isChild ok reaped pids next)
  | ended {e : Event} : Stepped cfg s e { s with phase := .ended }
  | missing {next : Next} (hphase : s.phase = .starting (.kill false []) next) :
      Stepped cfg s (.launch none) { s with pid := -1, phase := .outside next.point }
  | launched {pid : Nat} {next : Next} (hphase : s.phase = .starting (.kill false []) next)
      (hpid : pid ≠ 0) (hfresh : pid ∉ s.processes) :
      Stepped cfg s (.launch (some pid)) (s.launched cfg pid next)
  | exits {pid : Nat} {p : Process} (reaped : Bool) (hp : s.processes.lookup pid = some p)
      (hruns : p.zombie = false) :
      Stepped cfg s (.exits pid reaped)
        { s with processes := exit s.processes pid p (reaped && !p.child) }
  | waited {pid : Nat} {p : Process} (hp : s.processes.lookup pid = some p)
      (hother : p.child = false) :
      Stepped cfg s (.waited pid) { s with processes := s.processes.erase pid }
  | starts {pid : Nat} (name : String) (hpid : pid ≠ 0) (hfresh : pid ∉ s.processes) :
      Stepped cfg s (.starts pid name)
        { s with processes := s.processes.insert pid ⟨name, false, false⟩ }

variable {cfg s} {s' : System} {e : Event}

theorem stepped_check (hstep : step cfg s .check = some s') : Stepped cfg s .check s' := by
  unfold step at hstep
  dsimp only at hstep
  split at hstep
  · rename_i hphase
    obtain rfl := Option.some.inj hstep
    unfold checkRunning
    dsimp only
    split
    · rename_i habsent
      rw [habsent]
      exact .absent hphase habsent
    · rename_i hpresent
      exact .present hphase hpresent
  · rename_i hphase
    obtain rfl := Option.some.inj hstep
    unfold checkAgain
    dsimp only
    split
    · rename_i hzombie
      rw [hzombie]
      exact .zombie hphase hzombie
    · rename_i halive
      exact .alive hphase halive
  · cases hstep

theorem stepped_counter {sequence : UInt64} (hstep : step cfg s (.counter sequence) = some s') :
    Stepped cfg s (.counter sequence) s' := by
  unfold step at hstep
  dsimp only at hstep
  split at hstep
  · rename_i hphase
    unfold checkSharedMemory at hstep
    dsimp only at hstep
    split at hstep
    · rename_i hon
      obtain ⟨⟨result, shmChker⟩, hcheck, rfl⟩ := Option.map_eq_some_iff.mp hstep
      dsimp only
      split
      · rename_i hresult
        subst hresult
        exact .hangs sequence hphase hon hcheck
      · rename_i hresult
        exact .checked sequence hphase hon hcheck hresult
    · rename_i hoff
      obtain rfl := Option.some.inj hstep
      exact .unchecked sequence hphase (Bool.eq_false_iff.mpr hoff)
  · cases hstep

theorem stepped_listing {isChild : Bool} {stage : Stage} {next : Next}
    (hphase : s.phase = .starting stage next)
    (hstage : stage = if isChild then .list else .kill true []) :
    Stepped cfg s .list (s.listing cfg isChild next) := by
  unfold listing
  split
  · exact .ended
  · exact .opens isChild hphase hstage

theorem stepped_list (hstep : step cfg s .list = some s') : Stepped cfg s .list s' := by
  unfold step at hstep
  dsimp only at hstep
  split at hstep
  · rename_i hphase
    obtain rfl := Option.some.inj hstep
    exact stepped_listing hphase rfl
  · rename_i hphase
    obtain rfl := Option.some.inj hstep
    exact stepped_listing hphase rfl
  · cases hstep

theorem stepped_launch {pid : Option Nat} (hstep : step cfg s (.launch pid) = some s') :
    Stepped cfg s (.launch pid) s' := by
  unfold step at hstep
  dsimp only at hstep
  split at hstep
  · rename_i hphase
    obtain rfl := Option.some.inj hstep
    exact .missing hphase
  · rename_i hphase
    obtain ⟨hfresh, hstep⟩ := Option.ite_none_left_eq_some.mp hstep
    obtain rfl := Option.some.inj hstep
    obtain ⟨hpid, hfresh⟩ := not_or.mp hfresh
    exact .launched hphase hpid hfresh
  · cases hstep

theorem stepped_of_step (hstep : step cfg s e = some s') : Stepped cfg s e s' := by
  cases e with
  | check => exact stepped_check hstep
  | counter sequence => exact stepped_counter hstep
  | list => exact stepped_list hstep
  | launch pid => exact stepped_launch hstep
  | entry pid =>
      unfold step at hstep
      dsimp only at hstep
      split at hstep
      · rename_i hphase
        obtain rfl := Option.some.inj hstep
        exact .entry pid hphase
      · cases hstep
  | listed =>
      unfold step at hstep
      dsimp only at hstep
      split at hstep
      · rename_i hphase
        obtain rfl := Option.some.inj hstep
        exact .listed hphase
      · cases hstep
  | kill ok reaped =>
      unfold step at hstep
      dsimp only at hstep
      split at hstep
      · rename_i hphase
        obtain rfl := Option.some.inj hstep
        exact .kills ok reaped hphase
      · cases hstep
  | raise =>
      unfold step at hstep
      dsimp only at hstep
      split at hstep
      · obtain rfl := Option.some.inj hstep
        exact .ended
      · cases hstep
  | exits pid reaped =>
      unfold step at hstep
      dsimp only at hstep
      split at hstep
      · cases hstep
      · rename_i p hp
        obtain ⟨hruns, hstep⟩ := Option.ite_none_left_eq_some.mp hstep
        obtain rfl := Option.some.inj hstep
        exact .exits reaped hp (Bool.eq_false_iff.mpr hruns)
  | waited pid =>
      unfold step at hstep
      dsimp only at hstep
      split at hstep
      · cases hstep
      · rename_i p hp
        obtain ⟨hwaited, hstep⟩ := Option.ite_none_right_eq_some.mp hstep
        obtain rfl := Option.some.inj hstep
        obtain ⟨-, hother⟩ := Bool.and_eq_true_iff.mp hwaited
        exact .waited hp (by simpa using hother)
  | starts pid name =>
      obtain ⟨hfresh, hstep⟩ := Option.ite_none_left_eq_some.mp hstep
      obtain rfl := Option.some.inj hstep
      obtain ⟨hpid, hfresh⟩ := not_or.mp hfresh
      exact .starts name hpid hfresh

end System

end CloudEdgePush.Daemon
