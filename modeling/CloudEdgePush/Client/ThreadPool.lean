import CloudEdgePush.Lib.Fifo
import CloudEdgePush.Lib.Transition

/-!
# `ThreadPool`

The pool of `call_async.hpp`, which runs the report tasks.  What happens under `queue_mutex` is one
step; waiting on the condition, notifying it and running a task are steps of their own, in any order
and between any threads, and a worker may wake up without being notified.

* `started_of_run`   — tasks are started in the order of `enqueue`, each at most once, and no worker
  sleeps through one;
* `drained_of_run`   — the destructor returns, after every task that was accepted has been run.
-/

namespace CloudEdgePush.Client

open CloudEdgePush.Lib CloudEdgePush.Lib.Fifo CloudEdgePush.Lib.Transition

variable {τ : Type}

inductive Worker (τ : Type)
  /-- It is going to lock the mutex and to look at the queue. -/
  | awake
  /-- It is blocked in `condition.wait`. -/
  | waiting
  | running (task : τ)
  | returned
deriving DecidableEq

inductive Destructor
  | notCalled
  /-- `stop` is set, and nobody is notified yet. -/
  | stopping
  /-- It joins the workers. -/
  | joining
deriving DecidableEq

structure ThreadPool (τ : Type) where
  workers : List (Worker τ)
  tasks : List τ
  stop : Bool
  destructor : Destructor
  /-- The calls of `enqueue` between `tasks.emplace` and `notify_one`. -/
  notifying : Nat
  /-- The tasks that `enqueue` has accepted, and those that were started. -/
  enqueued : List τ
  started : List τ

namespace ThreadPool

def init (τ : Type) (threads : Nat) : ThreadPool τ :=
  ⟨List.replicate threads .awake, [], false, .notCalled, 0, [], []⟩

inductive Event (τ : Type)
  /-- A worker looks at the queue. -/
  | look (i : Nat)
  /-- A task returns; an exception stays in its `packaged_task`. -/
  | finish (i : Nat)
  /-- A worker wakes up by itself. -/
  | wake (i : Nat)
  | enqueue (task : τ)
  /-- `notify_one`, which wakes this worker if anyone waits. -/
  | notifyOne (i : Nat)
  | stop
  | notifyAll

variable (s : ThreadPool τ)

/-- The loop of a worker, up to `task()`, `wait` or `return`. -/
def look (i : Nat) : ThreadPool τ :=
  match s.stop, s.tasks with
  | false, [] => { s with workers := s.workers.set i .waiting }
  | true, [] => { s with workers := s.workers.set i .returned }
  | _, task :: tasks =>
      { s with
        workers := s.workers.set i (.running task)
        tasks := tasks
        started := s.started ++ [task] }

/-- `enqueue`, up to `notify_one`; it raises on a pool that was stopped. -/
def enqueue (task : τ) : ThreadPool τ :=
  if s.stop then s
  else
    { s with
      tasks := s.tasks ++ [task]
      enqueued := s.enqueued ++ [task]
      notifying := s.notifying + 1 }

def notified : Worker τ → Worker τ
  | .waiting => .awake
  | w => w

def waits : Worker τ → Bool
  | .waiting => true
  | _ => false

def step : Event τ → Option (ThreadPool τ)
  | .look i =>
      match s.workers[i]? with
      | some .awake => some (s.look i)
      | _ => none
  | .finish i =>
      match s.workers[i]? with
      | some (.running _) => some { s with workers := s.workers.set i .awake }
      | _ => none
  | .wake i =>
      match s.workers[i]? with
      | some .waiting => some { s with workers := s.workers.set i .awake }
      | _ => none
  | .enqueue task => some (s.enqueue task)
  | .notifyOne i =>
      if s.notifying = 0 then none
      else
        let s := { s with notifying := s.notifying - 1 }
        match s.workers[i]? with
        | some .waiting => some { s with workers := s.workers.set i .awake }
        | _ => if s.workers.any waits then none else some s
  | .stop =>
      if s.destructor = .notCalled then some { s with stop := true, destructor := .stopping }
      else none
  | .notifyAll =>
      if s.destructor = .stopping then
        some { s with workers := s.workers.map notified, destructor := .joining }
      else none

def Joined : Prop := s.destructor = .joining ∧ ∀ w ∈ s.workers, w = .returned

/-! ## Steps -/

inductive Stepped (s : ThreadPool τ) : Event τ → ThreadPool τ → Prop
  | sleep {i : Nat} (hworker : s.workers[i]? = some .awake) (hstop : s.stop = false)
      (hempty : s.tasks = []) :
      Stepped s (.look i) { s with workers := s.workers.set i .waiting }
  | leave {i : Nat} (hworker : s.workers[i]? = some .awake) (hstop : s.stop = true)
      (hempty : s.tasks = []) :
      Stepped s (.look i) { s with workers := s.workers.set i .returned }
  | start {i : Nat} {task : τ} {tasks : List τ} (hworker : s.workers[i]? = some .awake)
      (htasks : s.tasks = task :: tasks) :
      Stepped s (.look i) { s with
        workers := s.workers.set i (.running task)
        tasks := tasks
        started := s.started ++ [task] }
  | finish {i : Nat} {task : τ} (hworker : s.workers[i]? = some (.running task)) :
      Stepped s (.finish i) { s with workers := s.workers.set i .awake }
  | wake {i : Nat} (hworker : s.workers[i]? = some .waiting) :
      Stepped s (.wake i) { s with workers := s.workers.set i .awake }
  | refused (task : τ) (hstop : s.stop = true) : Stepped s (.enqueue task) s
  | accepted (task : τ) (hstop : s.stop = false) :
      Stepped s (.enqueue task) { s with
        tasks := s.tasks ++ [task]
        enqueued := s.enqueued ++ [task]
        notifying := s.notifying + 1 }
  | notified {i : Nat} (hnotifying : s.notifying ≠ 0) (hworker : s.workers[i]? = some .waiting) :
      Stepped s (.notifyOne i) { s with
        workers := s.workers.set i .awake
        notifying := s.notifying - 1 }
  | nobody (i : Nat) (hnotifying : s.notifying ≠ 0) (hnobody : s.workers.any waits = false) :
      Stepped s (.notifyOne i) { s with notifying := s.notifying - 1 }
  | stop (hcall : s.destructor = .notCalled) :
      Stepped s .stop { s with stop := true, destructor := .stopping }
  | notifyAll (hcall : s.destructor = .stopping) :
      Stepped s .notifyAll { s with workers := s.workers.map notified, destructor := .joining }

variable {s} {s' : ThreadPool τ} {e : Event τ}

theorem stepped_of_step (hstep : s.step e = some s') : Stepped s e s' := by
  cases e with
  | look i =>
      unfold step at hstep
      dsimp only at hstep
      split at hstep
      · rename_i hworker
        obtain rfl := Option.some.inj hstep
        unfold look
        split
        · rename_i hstop hempty
          exact .sleep hworker hstop hempty
        · rename_i hstop hempty
          exact .leave hworker hstop hempty
        · rename_i htasks
          exact .start hworker htasks
      · cases hstep
  | finish i =>
      unfold step at hstep
      dsimp only at hstep
      split at hstep
      · rename_i hworker
        obtain rfl := Option.some.inj hstep
        exact .finish hworker
      · cases hstep
  | wake i =>
      unfold step at hstep
      dsimp only at hstep
      split at hstep
      · rename_i hworker
        obtain rfl := Option.some.inj hstep
        exact .wake hworker
      · cases hstep
  | enqueue task =>
      obtain rfl := Option.some.inj hstep
      unfold enqueue
      by_cases hstop : s.stop = true
      · rw [if_pos hstop]
        exact .refused task hstop
      · rw [if_neg hstop]
        exact .accepted task (Bool.eq_false_iff.mpr hstop)
  | notifyOne i =>
      obtain ⟨hnotifying, hstep⟩ := Option.ite_none_left_eq_some.mp hstep
      dsimp only at hstep
      split at hstep
      · rename_i hworker
        obtain rfl := Option.some.inj hstep
        exact .notified hnotifying hworker
      · obtain ⟨hnobody, hstep⟩ := Option.ite_none_left_eq_some.mp hstep
        obtain rfl := Option.some.inj hstep
        exact .nobody i hnotifying (Bool.eq_false_iff.mpr hnobody)
  | stop =>
      obtain ⟨hcall, hstep⟩ := Option.ite_none_right_eq_some.mp hstep
      obtain rfl := Option.some.inj hstep
      exact .stop hcall
  | notifyAll =>
      obtain ⟨hcall, hstep⟩ := Option.ite_none_right_eq_some.mp hstep
      obtain rfl := Option.some.inj hstep
      exact .notifyAll hcall

/-! ## Counting workers -/

theorem countP_set_add {α : Type} {l : List α} {i : Nat} {a : α} (b : α) (q : α → Bool)
    (h : l[i]? = some a) :
    (l.set i b).countP q + (if q a then 1 else 0) = l.countP q + (if q b then 1 else 0) := by
  obtain ⟨hi, rfl⟩ := List.getElem?_eq_some_iff.mp h
  have hle : (if q l[i] then 1 else 0) ≤ l.countP q := List.boole_getElem_le_countP hi
  rw [List.countP_set hi]
  omega

def isAwake : Worker τ → Bool
  | .awake => true
  | _ => false

def isRunning : Worker τ → Bool
  | .running _ => true
  | _ => false

variable (s) in
def awake : Nat := s.workers.countP isAwake

theorem countP_woken {l : List (Worker τ)} {i : Nat} {w : Worker τ} (h : l[i]? = some w)
    (hw : isAwake w = false) : (l.set i .awake).countP isAwake = l.countP isAwake + 1 := by
  have hcount := countP_set_add .awake isAwake h
  rw [hw, if_neg Bool.false_ne_true] at hcount
  exact hcount

/-! ## Invariants -/

/-- `wakeup`: while a worker waits, every task in the queue has a worker that is awake or that is
going to be notified. -/
structure Inv (s : ThreadPool τ) : Prop where
  conserves : Conserves s.enqueued s.started s.tasks
  wakeup : s.workers.any waits = true → s.tasks.length ≤ s.notifying + s.awake
  stopped : s.destructor ≠ .notCalled ↔ s.stop = true
  returned : .returned ∈ s.workers → s.stop = true ∧ s.tasks = []
  joining : s.destructor = .joining → s.workers.any waits = false

theorem any_set {l : List (Worker τ)} {i : Nat} {w : Worker τ} (q : Worker τ → Bool)
    (hw : q w = false) (h : (l.set i w).any q = true) : l.any q = true := by
  obtain ⟨x, hx, hq⟩ := List.any_eq_true.mp h
  rcases List.mem_or_eq_of_mem_set hx with hmem | rfl
  · exact List.any_eq_true.mpr ⟨x, hmem, hq⟩
  · rw [hw] at hq
    cases hq

theorem none_set {l : List (Worker τ)} {i : Nat} {w : Worker τ} (hl : l.any waits = false)
    (hw : waits w = false) : (l.set i w).any waits = false := by
  rw [Bool.eq_false_iff]
  intro hany
  rw [any_set waits hw hany] at hl
  cases hl

theorem any_of_waiting {l : List (Worker τ)} {i : Nat} (h : l[i]? = some .waiting) :
    l.any waits = true := List.any_eq_true.mpr ⟨.waiting, List.mem_of_getElem? h, rfl⟩

theorem returned_set {l : List (Worker τ)} {i : Nat} {w : Worker τ} (hw : w ≠ .returned)
    (h : .returned ∈ l.set i w) : .returned ∈ l := by
  rcases List.mem_or_eq_of_mem_set h with hmem | heq
  · exact hmem
  · exact absurd heq.symm hw

theorem inv_init (threads : Nat) : Inv (init τ threads) where
  conserves := .start []
  wakeup _ := Nat.zero_le _
  stopped := by simp [init]
  returned h := by cases List.eq_of_mem_replicate h
  joining h := by cases h

theorem inv_step (hs : Inv s) (hstep : s.step e = some s') : Inv s' := by
  cases stepped_of_step hstep with
  | sleep hworker hstop hempty =>
      refine ⟨hs.conserves, fun _ => ?_, hs.stopped, fun h => hs.returned (returned_set (by simp) h),
        fun h => ?_⟩
      · dsimp only
        rw [hempty]
        exact Nat.zero_le _
      · have hcalled : s.destructor ≠ .notCalled := by
          rw [h]
          decide
        rw [hs.stopped.mp hcalled] at hstop
        cases hstop
  | leave hworker hstop hempty =>
      refine ⟨hs.conserves, fun _ => ?_, hs.stopped, fun _ => ⟨hstop, hempty⟩,
        fun h => none_set (hs.joining h) rfl⟩
      dsimp only
      rw [hempty]
      exact Nat.zero_le _
  | @start i task tasks hworker htasks =>
      have hconserves := hs.conserves
      rw [htasks] at hconserves
      refine ⟨hconserves.pop, fun hany => ?_, hs.stopped, fun h => ?_,
        fun h => none_set (hs.joining h) rfl⟩
      · have hle := hs.wakeup (any_set waits rfl hany)
        have hcount := countP_set_add (.running task) isAwake hworker
        rw [htasks, List.length_cons] at hle
        simp only [isAwake, if_true, Bool.false_eq_true, if_false] at hcount
        unfold awake at hle ⊢
        dsimp only
        omega
      · obtain ⟨-, hempty⟩ := hs.returned (returned_set (by simp) h)
        rw [htasks] at hempty
        cases hempty
  | @finish i task hworker =>
      refine ⟨hs.conserves, fun hany => ?_, hs.stopped, fun h => hs.returned (returned_set (by simp) h),
        fun h => none_set (hs.joining h) rfl⟩
      have hle := hs.wakeup (any_set waits rfl hany)
      have hcount := countP_woken hworker rfl
      unfold awake at hle ⊢
      dsimp only
      omega
  | wake hworker =>
      refine ⟨hs.conserves, fun _ => ?_, hs.stopped, fun h => hs.returned (returned_set (by simp) h),
        fun h => none_set (hs.joining h) rfl⟩
      have hle := hs.wakeup (any_of_waiting hworker)
      have hcount := countP_woken hworker rfl
      unfold awake at hle ⊢
      dsimp only
      omega
  | refused task hstop => exact hs
  | accepted task hstop =>
      refine ⟨hs.conserves.push [task], fun hany => ?_, hs.stopped, fun h => ?_, hs.joining⟩
      · have hle := hs.wakeup hany
        unfold awake at hle ⊢
        rw [List.length_append, List.length_singleton]
        dsimp only
        omega
      · rw [(hs.returned h).1] at hstop
        cases hstop
  | notified hnotifying hworker =>
      refine ⟨hs.conserves, fun _ => ?_, hs.stopped, fun h => hs.returned (returned_set (by simp) h),
        fun h => none_set (hs.joining h) rfl⟩
      have hle := hs.wakeup (any_of_waiting hworker)
      have hcount := countP_woken hworker rfl
      unfold awake at hle ⊢
      dsimp only
      omega
  | nobody i hnotifying hnobody =>
      refine ⟨hs.conserves, fun hany => ?_, hs.stopped, hs.returned, hs.joining⟩
      rw [hnobody] at hany
      cases hany
  | stop hcall =>
      refine ⟨hs.conserves, hs.wakeup, ?_, fun h => ⟨rfl, (hs.returned h).2⟩, fun h => ?_⟩
      · simp
      · cases h
  | notifyAll hcall =>
      have hnone : (s.workers.map notified).any waits = false := by
        rw [List.any_map, List.any_eq_false]
        intro w _
        cases w <;> simp [notified, waits]
      refine ⟨hs.conserves, fun hany => ?_, ?_, fun h => ?_, fun _ => hnone⟩
      · rw [hnone] at hany
        cases hany
      · have hstop := hs.stopped.mp (by rw [hcall]; decide)
        simp [hstop]
      · obtain ⟨w, hw, heq⟩ := List.mem_map.mp h
        cases w with
        | returned => exact hs.returned hw
        | awake => cases heq
        | waiting => cases heq
        | running task => cases heq

theorem inv_of_run {threads : Nat} {es : List (Event τ)} (hrun : run step (init τ threads) es = some s) :
    Inv s := run_invariant (fun _ _ _ hs hstep => inv_step hs hstep) (inv_init threads) hrun

theorem length_step (hstep : s.step e = some s') : s'.workers.length = s.workers.length := by
  cases stepped_of_step hstep with
  | refused task hstop => rfl
  | accepted task hstop => rfl
  | nobody i hnotifying hnobody => rfl
  | stop hcall => rfl
  | notifyAll hcall => exact List.length_map _
  | _ => exact List.length_set

theorem length_of_run {threads : Nat} {es : List (Event τ)}
    (hrun : run step (init τ threads) es = some s) : s.workers.length = threads := by
  apply run_invariant (I := fun s => s.workers.length = threads) _ _ hrun
  · intro s e s' hs hstep
    rw [length_step hstep, hs]
  · exact List.length_replicate

/-! ## Running -/

/-- Something goes on: a worker is awake or runs a task, or one is going to be notified. -/
def Busy (s : ThreadPool τ) : Prop :=
  0 < s.notifying ∨ s.workers.any isAwake = true ∨ s.workers.any isRunning = true

theorem busy_of_tasks (hs : Inv s) (hworkers : s.workers ≠ []) (htasks : s.tasks ≠ []) :
    s.Busy := by
  by_contra hidle
  unfold Busy at hidle
  push Not at hidle
  obtain ⟨hnotifying, hawake, hrunning⟩ := hidle
  obtain ⟨w, workers, hcons⟩ := List.exists_cons_of_ne_nil hworkers
  have hw : w ∈ s.workers := hcons ▸ List.mem_cons_self
  have hnotAwake := List.any_eq_false.mp (Bool.eq_false_iff.mpr hawake) w hw
  have hnotRunning := List.any_eq_false.mp (Bool.eq_false_iff.mpr hrunning) w hw
  cases w with
  | awake => exact hnotAwake rfl
  | running task => exact hnotRunning rfl
  | returned => exact htasks (hs.returned hw).2
  | waiting =>
      have hle := hs.wakeup (List.any_eq_true.mpr ⟨.waiting, hw, rfl⟩)
      have hnone : s.awake = 0 := by
        rw [awake, List.countP_eq_zero]
        exact List.any_eq_false.mp (Bool.eq_false_iff.mpr hawake)
      have hlength := List.length_pos_iff.mpr htasks
      omega

/-- For every interleaving: what was started is a beginning of what was accepted, the rest is in the
queue, and no worker sleeps through a task. -/
theorem started_of_run {threads : Nat} {es : List (Event τ)} (hthreads : 0 < threads)
    (hrun : run step (init τ threads) es = some s) :
    s.enqueued = s.started ++ s.tasks ∧
      (s.workers.any waits = true → s.tasks.length ≤ s.notifying + s.awake) ∧
      (s.tasks ≠ [] → s.Busy) := by
  have hs := inv_of_run hrun
  refine ⟨hs.conserves, hs.wakeup, busy_of_tasks hs ?_⟩
  exact List.ne_nil_of_length_pos (by rw [length_of_run hrun]; exact hthreads)

/-- A worker sleeps, the other one runs the first of two tasks, and one call is going to notify. -/
def twoTasks : List (Event Nat) :=
  [.look 0, .look 1, .enqueue 7, .enqueue 8, .notifyOne 1, .look 1]

theorem started_of_run_two : ∃ s, run step (init Nat 2) twoTasks = some s ∧ s.started = [7] ∧
    s.enqueued = s.started ++ [8] ∧ s.tasks.length ≤ s.notifying + s.awake ∧ s.Busy := by
  obtain ⟨s, hrun⟩ := Option.isSome_iff_exists.mp
    (show (run step (init Nat 2) twoTasks).isSome by decide)
  obtain ⟨hconserves, hwakeup, hbusy⟩ := started_of_run (by decide) hrun
  obtain rfl : _ = s := Option.some.inj hrun
  exact ⟨_, rfl, by decide, hconserves, hwakeup (by decide), hbusy (by decide)⟩

/-! ## Stopping -/

def Event.isWork : Event τ → Bool
  | .look _ => true
  | .finish _ => true
  | _ => false

variable (s) in
def left : Nat :=
  2 * s.tasks.length + s.workers.countP isAwake + 2 * s.workers.countP isRunning

theorem left_step (hs : Inv s) (hjoining : s.destructor = .joining) (hstep : s.step e = some s') :
    s'.destructor = .joining ∧ (if e.isWork then 1 else 0) + s'.left ≤ s.left := by
  have hstop : s.stop = true := hs.stopped.mp (by rw [hjoining]; decide)
  cases stepped_of_step hstep with
  | sleep hworker hrunning hempty =>
      rw [hstop] at hrunning
      cases hrunning
  | @leave i hworker _ hempty =>
      refine ⟨hjoining, ?_⟩
      have hawake := countP_set_add .returned isAwake hworker
      have hrunning := countP_set_add .returned isRunning hworker
      simp only [isAwake, isRunning, if_true, Bool.false_eq_true, if_false] at hawake hrunning
      simp only [left, Event.isWork, if_true]
      omega
  | @start i task tasks hworker htasks =>
      refine ⟨hjoining, ?_⟩
      have hawake := countP_set_add (.running task) isAwake hworker
      have hrunning := countP_set_add (.running task) isRunning hworker
      simp only [isAwake, isRunning, if_true, Bool.false_eq_true, if_false] at hawake hrunning
      simp only [left, Event.isWork, if_true, htasks, List.length_cons]
      omega
  | @finish i task hworker =>
      refine ⟨hjoining, ?_⟩
      have hawake := countP_set_add .awake isAwake hworker
      have hrunning := countP_set_add .awake isRunning hworker
      simp only [isAwake, isRunning, if_true, Bool.false_eq_true, if_false] at hawake hrunning
      simp only [left, Event.isWork, if_true]
      omega
  | wake hworker =>
      have hnone := hs.joining hjoining
      rw [any_of_waiting hworker] at hnone
      cases hnone
  | refused task _ => exact ⟨hjoining, Nat.le_of_eq (Nat.zero_add _)⟩
  | accepted task hrunning =>
      rw [hstop] at hrunning
      cases hrunning
  | notified hnotifying hworker =>
      have hnone := hs.joining hjoining
      rw [any_of_waiting hworker] at hnone
      cases hnone
  | nobody i hnotifying hnobody => exact ⟨hjoining, Nat.le_of_eq (Nat.zero_add _)⟩
  | stop hcall =>
      rw [hjoining] at hcall
      cases hcall
  | notifyAll hcall =>
      rw [hjoining] at hcall
      cases hcall

theorem left_of_run {t : ThreadPool τ} {es : List (Event τ)} (hs : Inv s)
    (hjoining : s.destructor = .joining) (hrun : run step s es = some t) :
    es.countP Event.isWork + t.left ≤ s.left := by
  induction es generalizing s with
  | nil =>
      obtain rfl : s = t := by simpa using hrun
      exact Nat.le_of_eq (Nat.zero_add _)
  | cons e es ih =>
      obtain ⟨s₁, hstep, hrest⟩ := run_cons_eq_some.mp hrun
      obtain ⟨hjoining₁, hless⟩ := left_step hs hjoining hstep
      have hmore := ih (inv_step hs hstep) hjoining₁ hrest
      rw [List.countP_cons]
      omega

/-- While the destructor joins the workers, one that has not returned can do something. -/
theorem work_of_joining (hs : Inv s) (hjoining : s.destructor = .joining) (hjoined : ¬s.Joined) :
    ∃ e : Event τ, e.isWork = true ∧ (s.step e).isSome := by
  obtain ⟨w, hw, hne⟩ : ∃ w ∈ s.workers, w ≠ .returned := by
    by_contra hall
    push Not at hall
    exact hjoined ⟨hjoining, hall⟩
  obtain ⟨i, hi⟩ := List.mem_iff_getElem?.mp hw
  cases w with
  | awake => exact ⟨.look i, rfl, by simp [step, hi]⟩
  | running task => exact ⟨.finish i, rfl, by simp [step, hi]⟩
  | waiting =>
      have hnone := hs.joining hjoining
      rw [any_of_waiting hi] at hnone
      cases hnone
  | returned => exact absurd rfl hne

/-- The destructor: the workers take a bounded number of steps until it returns, one of them can
always go on before, and then every task that was accepted has been run. -/
theorem drained_of_run {threads : Nat} {es : List (Event τ)} (hthreads : 0 < threads)
    (hrun : run step (init τ threads) es = some s) (hjoining : s.destructor = .joining) :
    (∀ es' t, run step s es' = some t → es'.countP Event.isWork ≤ s.left) ∧
      (¬s.Joined → ∃ e : Event τ, e.isWork = true ∧ (s.step e).isSome) ∧
      (s.Joined → s.started = s.enqueued ∧ s.tasks = []) := by
  have hs := inv_of_run hrun
  refine ⟨fun es' t hrun' => ?_, work_of_joining hs hjoining, fun hjoined => ?_⟩
  · exact Nat.le_trans (Nat.le_add_right _ _) (left_of_run hs hjoining hrun')
  · have hne : s.workers ≠ [] :=
      List.ne_nil_of_length_pos (by rw [length_of_run hrun]; exact hthreads)
    obtain ⟨w, workers, hcons⟩ := List.exists_cons_of_ne_nil hne
    have hw : w ∈ s.workers := hcons ▸ List.mem_cons_self
    obtain ⟨-, hempty⟩ := hs.returned (hjoined.2 w hw ▸ hw)
    have hconserves : s.enqueued = s.started ++ s.tasks := hs.conserves
    rw [hempty, List.append_nil] at hconserves
    exact ⟨hconserves.symm, hempty⟩

/-- The destructor comes after the two tasks, and the workers run the second one before they leave. -/
def twoTasksStopped : List (Event Nat) :=
  twoTasks ++ [.stop, .enqueue 9, .notifyAll, .look 0, .finish 1, .look 1, .finish 0, .look 0]

theorem drained_of_run_two : ∃ s, run step (init Nat 2) twoTasksStopped = some s ∧
    s.started = [7, 8] ∧ s.started = s.enqueued := by
  obtain ⟨s, hrun⟩ := Option.isSome_iff_exists.mp
    (show (run step (init Nat 2) twoTasksStopped).isSome by decide)
  have hdrained := drained_of_run (by decide) hrun
  obtain rfl : _ = s := Option.some.inj hrun
  exact ⟨_, rfl, by decide, ((hdrained (by decide)).2.2 ⟨by decide, by decide⟩).1⟩

end ThreadPool

end CloudEdgePush.Client
