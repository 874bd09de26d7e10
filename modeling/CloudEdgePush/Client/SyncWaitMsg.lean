import CloudEdgePush.Client.MessageHandler

/-!
# `SyncWaitMsg` with many threads

The calls of `wait`, `receive` and `reset` on one object, interleaved.  `_waitingMsg` is written
and compared outside the mutex, so these are steps of their own; what a call does under the mutex
is one step.  A call of `wait` remembers whether its answer was called meanwhile.

`_ready` and `_waitingMsg` outlive the calls.  A wait is `Justified` as long as none begins while a
reply is pending and no reply is accepted while a wait without its answer is under way.
-/

namespace CloudEdgePush.Client

open CloudEdgePush.Lib.Transition

namespace SyncWaitMsg

inductive WaitStage
  /-- Before `_waitingMsg = msg`. -/
  | called
  /-- Before the mutex is taken for the first time. -/
  | stored
  /-- In `wait_for`. -/
  | blocked
deriving DecidableEq, Repr

structure WaitCall where
  msg : UInt32
  stage : WaitStage
  /-- `receive(msg)` was called since this call began. -/
  answered : Bool
deriving DecidableEq, Repr

structure ReceiveCall where
  msg : UInt32
  /-- The message is the one that was awaited; `_ready` is not set yet. -/
  accepted : Bool
deriving DecidableEq, Repr

structure WaitResult where
  msg : UInt32
  result : Bool
  answered : Bool
deriving DecidableEq, Repr

/-- The object, the calls under way, and the results of the waits that have returned. -/
structure Calls where
  object : SyncWaitMsg
  waits : List WaitCall
  receives : List ReceiveCall
  results : List WaitResult
deriving DecidableEq, Repr

inductive CallEvent
  | wait (msg : UInt32)
  /-- `_waitingMsg = msg`. -/
  | store (i : Nat)
  /-- `_ready` is looked at: for the first time, when notified, or for no reason. -/
  | look (i : Nat)
  | timeout (i : Nat)
  | receive (msg : UInt32)
  /-- `msg == _waitingMsg`. -/
  | compare (j : Nat)
  /-- `_ready = true` and `notify_all`. -/
  | signal (j : Nat)
  | reset
deriving DecidableEq, Repr

def CallEvent.finishes : CallEvent → Bool
  | .store _ | .look _ | .timeout _ | .signal _ => true
  | _ => false

def WaitCall.answer (msg : UInt32) (w : WaitCall) : WaitCall :=
  if w.msg = msg then { w with answered := true } else w

namespace Calls

def init : Calls := ⟨{}, [], [], []⟩

/-- The wait `i` returns; `_ready` is false then. -/
def finish (s : Calls) (i : Nat) (w : WaitCall) (result : Bool) : Calls :=
  { s with
    object.ready := false
    waits := s.waits.eraseIdx i
    results := s.results ++ [⟨w.msg, result, w.answered⟩] }

def step (s : Calls) : CallEvent → Option Calls
  | .wait msg =>
      if msg = 0 then some { s with results := s.results ++ [⟨msg, false, false⟩] }
      else some { s with waits := s.waits ++ [⟨msg, .called, false⟩] }
  | .store i =>
      match s.waits[i]? with
      | some ⟨msg, .called, answered⟩ =>
          some { s with
            object.waitingMsg := msg
            waits := s.waits.set i ⟨msg, .stored, answered⟩ }
      | _ => none
  | .look i =>
      match s.waits[i]? with
      | none | some ⟨_, .called, _⟩ => none
      | some w =>
          if s.object.ready then some (s.finish i w true)
          else some { s with waits := s.waits.set i { w with stage := .blocked } }
  | .timeout i =>
      match s.waits[i]? with
      | some ⟨msg, .blocked, answered⟩ => some (s.finish i ⟨msg, .blocked, answered⟩ false)
      | _ => none
  | .receive msg =>
      some { s with
        waits := s.waits.map (WaitCall.answer msg)
        receives := s.receives ++ [⟨msg, false⟩] }
  | .compare j =>
      match s.receives[j]? with
      | some ⟨msg, false⟩ =>
          if msg = s.object.waitingMsg then
            some { s with receives := s.receives.set j ⟨msg, true⟩ }
          else some { s with receives := s.receives.eraseIdx j }
      | _ => none
  | .signal j =>
      match s.receives[j]? with
      | some ⟨_, true⟩ =>
          some { s with object.ready := true, receives := s.receives.eraseIdx j }
      | _ => none
  | .reset => some { s with object.waitingMsg := 0 }

/-- Every wait that returned true has had its answer called after it began. -/
def Justified (s : Calls) : Prop := ∀ r ∈ s.results, r.result = true → r.answered = true

instance (s : Calls) : Decidable (Justified s) :=
  inferInstanceAs (Decidable (∀ r ∈ s.results, r.result = true → r.answered = true))

/-- `_ready` is set, or a reply that was accepted is about to set it. -/
def Pending (s : Calls) : Prop := s.object.ready = true ∨ ∃ r ∈ s.receives, r.accepted = true

instance (s : Calls) : Decidable (Pending s) :=
  inferInstanceAs (Decidable (s.object.ready = true ∨ ∃ r ∈ s.receives, r.accepted = true))

def AllAnswered (s : Calls) : Prop := ∀ w ∈ s.waits, w.answered = true

instance (s : Calls) : Decidable (AllAnswered s) :=
  inferInstanceAs (Decidable (∀ w ∈ s.waits, w.answered = true))

/-- A wait begins only when no reply is pending, and a reply is accepted only when every wait under
way has its answer. -/
def InOrder (s : Calls) : CallEvent → Prop
  | .wait msg => msg ≠ 0 → ¬Pending s
  | .compare j => (∃ r ∈ s.receives[j]?, r.msg = s.object.waitingMsg) → AllAnswered s
  | _ => True

instance (s : Calls) (e : CallEvent) : Decidable (InOrder s e) :=
  match e with
  | .wait msg => inferInstanceAs (Decidable (msg ≠ 0 → ¬Pending s))
  | .compare j =>
      inferInstanceAs
        (Decidable ((∃ r ∈ s.receives[j]?, r.msg = s.object.waitingMsg) → AllAnswered s))
  | .store _ | .look _ | .timeout _ | .receive _ | .signal _ | .reset => isTrue trivial

/-! ## One thread -/

inductive Call
  | wait (msg : UInt32)
  | receive (msg : UInt32)
deriving DecidableEq, Repr

/-- What a call does when no other is under way. -/
def Call.events (object : SyncWaitMsg) : Call → List CallEvent
  | .wait msg =>
      if msg = 0 then [.wait msg]
      else [.wait msg, .store 0, .look 0] ++ if object.ready then [] else [.timeout 0]
  | .receive msg => [.receive msg, .compare 0] ++ if msg = object.waitingMsg then [.signal 0] else []

def Call.apply (object : SyncWaitMsg) (results : List WaitResult) :
    Call → SyncWaitMsg × List WaitResult
  | .wait msg => ((object.wait msg).2, results ++ [⟨msg, (object.wait msg).1, false⟩])
  | .receive msg => (object.receive msg, results)

def eventsOf (object : SyncWaitMsg) : List Call → List CallEvent
  | [] => []
  | call :: calls => call.events object ++ eventsOf (call.apply object []).1 calls

theorem run_call (object : SyncWaitMsg) (results : List WaitResult) (call : Call) :
    run step ⟨object, [], [], results⟩ (call.events object) =
      some ⟨(call.apply object results).1, [], [], (call.apply object results).2⟩ := by
  obtain ⟨waitingMsg, ready⟩ := object
  cases call with
  | wait msg =>
      by_cases hmsg : msg = 0
      · simp [Call.events, Call.apply, run_cons, step, SyncWaitMsg.wait, hmsg]
      · cases ready with
        | true => simp [Call.events, Call.apply, run_cons, step, finish, SyncWaitMsg.wait, hmsg]
        | false => simp [Call.events, Call.apply, run_cons, step, finish, SyncWaitMsg.wait, hmsg]
  | receive msg =>
      by_cases hmsg : msg = waitingMsg
      · simp [Call.events, Call.apply, run_cons, step, SyncWaitMsg.receive, ← hmsg]
      · simp [Call.events, Call.apply, run_cons, step, SyncWaitMsg.receive, hmsg]

/-- With one thread the machine is `wait` and `receive` of `SyncWaitMsg`. -/
theorem run_eventsOf (object : SyncWaitMsg) (results : List WaitResult) (calls : List Call) :
    ∃ all, run step ⟨object, [], [], results⟩ (eventsOf object calls) = some
      ⟨calls.foldl (fun object call => (call.apply object []).1) object, [], [], results ++ all⟩ := by
  induction calls generalizing object results with
  | nil => exact ⟨[], by simp [eventsOf]⟩
  | cons call calls ih =>
      obtain ⟨all, hrest⟩ := ih (call.apply object []).1 (call.apply object results).2
      have hsame : (call.apply object results).1 = (call.apply object []).1 := by
        cases call with
        | wait msg => rfl
        | receive msg => rfl
      have hgrows : (call.apply object results).2 = results ++ (call.apply object []).2 := by
        cases call with
        | wait msg => rfl
        | receive msg => exact (List.append_nil _).symm
      refine ⟨(call.apply object []).2 ++ all, ?_⟩
      rw [eventsOf, run_append, run_call, Option.bind_some, hsame, hrest, hgrows,
        List.append_assoc]
      rfl

/-! ## Many threads -/

structure Inv (s : Calls) : Prop where
  justified : Justified s
  pending : Pending s → AllAnswered s

variable {s : Calls}

theorem justified_concat {results : List WaitResult} {r : WaitResult}
    (h : ∀ r ∈ results, r.result = true → r.answered = true)
    (hr : r.result = true → r.answered = true) :
    ∀ r' ∈ results ++ [r], r'.result = true → r'.answered = true := by
  intro r' hr'
  rcases List.mem_append.mp hr' with hold | hnew
  · exact h r' hold
  · obtain rfl := List.mem_singleton.mp hnew
    exact hr

theorem Inv.finish (h : Inv s) {i : Nat} {w : WaitCall} {result : Bool}
    (hresult : result = true → w.answered = true) : Inv (s.finish i w result) := by
  refine ⟨justified_concat h.justified hresult, ?_⟩
  rintro (hready | haccepted)
  · cases hready
  · intro w' hw'
    exact h.pending (.inr haccepted) w' (List.mem_of_mem_eraseIdx hw')

theorem Inv.setStage (h : Inv s) {i : Nat} {w w' : WaitCall} (hw : s.waits[i]? = some w)
    (hanswered : w'.answered = w.answered) {object : SyncWaitMsg}
    (hready : object.ready = s.object.ready) :
    Inv { s with object := object, waits := s.waits.set i w' } := by
  refine ⟨h.justified, fun hpending => ?_⟩
  have hall : AllAnswered s := h.pending (hpending.imp_left hready.symm.trans)
  intro v hv
  rcases List.mem_or_eq_of_mem_set hv with hold | rfl
  · exact hall v hold
  · exact hanswered.trans (hall w (List.mem_of_getElem? hw))

theorem Inv.dropReceive (h : Inv s) {j : Nat} {object : SyncWaitMsg}
    (hready : object.ready = true → Pending s) :
    Inv { s with object := object, receives := s.receives.eraseIdx j } := by
  refine ⟨h.justified, fun hpending => h.pending ?_⟩
  rcases hpending with hset | ⟨r, hr, haccepted⟩
  · exact hready hset
  · exact .inr ⟨r, List.mem_of_mem_eraseIdx hr, haccepted⟩

theorem inv_step (s : Calls) (e : CallEvent) (s' : Calls) (h : Inv s) (hguard : InOrder s e)
    (hstep : step s e = some s') : Inv s' := by
  cases e with
  | wait msg =>
      by_cases hmsg : msg = 0
      · obtain rfl := Option.some.inj ((if_pos hmsg).symm.trans hstep)
        exact ⟨justified_concat h.justified nofun, h.pending⟩
      · obtain rfl := Option.some.inj ((if_neg hmsg).symm.trans hstep)
        exact ⟨h.justified, fun hpending => absurd hpending (hguard hmsg)⟩
  | store i =>
      simp only [step] at hstep
      split at hstep
      · rename_i msg answered hw
        obtain rfl := Option.some.inj hstep
        apply h.setStage hw
        · rfl
        · rfl
      · cases hstep
  | look i =>
      simp only [step] at hstep
      split at hstep
      · cases hstep
      · cases hstep
      · rename_i w hstored hw
        split at hstep
        · rename_i hready
          obtain rfl := Option.some.inj hstep
          exact h.finish fun _ => h.pending (.inl hready) w (List.mem_of_getElem? hw)
        · obtain rfl := Option.some.inj hstep
          apply h.setStage hw
          · rfl
          · rfl
  | timeout i =>
      simp only [step] at hstep
      split at hstep
      · obtain rfl := Option.some.inj hstep
        exact h.finish nofun
      · cases hstep
  | receive msg =>
      obtain rfl := Option.some.inj hstep
      refine ⟨h.justified, fun hpending => ?_⟩
      have hall : AllAnswered s := by
        apply h.pending
        refine hpending.imp_right ?_
        rintro ⟨r, hr, haccepted⟩
        rcases List.mem_append.mp hr with hold | hnew
        · exact ⟨r, hold, haccepted⟩
        · obtain rfl := List.mem_singleton.mp hnew
          cases haccepted
      intro w hw
      obtain ⟨v, hv, rfl⟩ := List.mem_map.mp hw
      unfold WaitCall.answer
      split
      · rfl
      · exact hall v hv
  | compare j =>
      simp only [step] at hstep
      split at hstep
      · rename_i msg hr
        split at hstep
        · rename_i hmsg
          obtain rfl := Option.some.inj hstep
          exact ⟨h.justified, fun _ => hguard ⟨_, hr, hmsg⟩⟩
        · obtain rfl := Option.some.inj hstep
          exact h.dropReceive .inl
      · cases hstep
  | signal j =>
      simp only [step] at hstep
      split at hstep
      · rename_i msg hr
        obtain rfl := Option.some.inj hstep
        exact h.dropReceive fun _ => .inr ⟨_, List.mem_of_getElem? hr, rfl⟩
      · cases hstep
  | reset =>
      obtain rfl := Option.some.inj hstep
      exact ⟨h.justified, h.pending⟩

/-- In every run in which each wait begins with no reply pending and each reply is accepted only
when every wait under way has its answer: a wait returns true only if `receive` with its number
was called after it began. -/
theorem justified_run {events : List CallEvent} {s : Calls}
    (horder : AllSteps step InOrder init events) (hrun : run step init events = some s) :
    Justified s := by
  have hinit : Inv init := ⟨nofun, fun _ => nofun⟩
  exact (run_guarded inv_step hinit horder hrun).justified

def inTime : List CallEvent :=
  [.wait kLoginRsp, .store 0, .look 0, .receive kLoginRsp, .compare 0, .signal 0, .look 0]

theorem justified_inTime : ∃ s, run step init inTime = some s ∧
    s.results = [⟨kLoginRsp, true, true⟩] ∧ Justified s := by
  have hsteps : AllSteps step InOrder init inTime ∧
      ∃ s ∈ run step init inTime, s.results = [⟨kLoginRsp, true, true⟩] := by
    decide +kernel
  obtain ⟨horder, s, hrun, hresults⟩ := hsteps
  exact ⟨s, hrun, hresults, justified_run horder hrun⟩

/-- A wait that times out, its late reply, and a wait for another message. -/
def lateReply : List CallEvent :=
  [.wait kLoginRsp, .store 0, .look 0, .timeout 0, .receive kLoginRsp, .compare 0, .signal 0,
    .wait kHeartRsp, .store 0, .look 0]

theorem late_reply_satisfies_wait : ¬ ∀ (events : List CallEvent) (s : Calls),
    run step init events = some s → Justified s := by
  intro h
  have hbad : ∃ s ∈ run step init lateReply, ¬Justified s := by
    decide +kernel
  obtain ⟨s, hrun, hnot⟩ := hbad
  exact hnot (h _ s hrun)

/-! ## The order is needed -/

/-- However the calls under way go on with the replies accepted so far, no wait returns true without
its answer. -/
def Safe (s : Calls) : Prop :=
  ∀ rest m, (∀ e ∈ rest, e.finishes = true) → run step s rest = some m → Justified m

theorem Safe.step {t : Calls} {e : CallEvent} (h : Safe s) (he : e.finishes = true)
    (hstep : step s e = some t) : Safe t := by
  intro rest m hrest hrun
  apply h (e :: rest) m
  · exact List.forall_mem_cons.mpr ⟨he, hrest⟩
  · exact run_cons_eq_some.mpr ⟨t, hstep, hrun⟩

theorem safe_of_inv (h : Inv s) : Safe s := by
  intro rest m hrest hrun
  have hfinishes : AllSteps step (fun _ e => e.finishes = true) s rest :=
    allSteps_of_forall_mem hrest s
  have horder : AllSteps step InOrder s rest := by
    apply allSteps_of_guarded (I := fun _ => True) (fun _ _ _ _ _ _ => trivial) _ trivial hfinishes
    intro t e _ he
    cases e with
    | wait msg => cases he
    | receive msg => cases he
    | compare j => cases he
    | reset => cases he
    | _ => trivial
  exact (run_guarded inv_step h horder hrun).justified

theorem step_look {i : Nat} {w : WaitCall} (hready : s.object.ready = true)
    (hw : s.waits[i]? = some w) (hstage : w.stage ≠ .called) :
    step s (.look i) = some (s.finish i w true) := by
  obtain ⟨msg, stage, answered⟩ := w
  cases stage with
  | called => exact absurd rfl hstage
  | stored => simp [step, hw, hready]
  | blocked => simp [step, hw, hready]

theorem not_safe_of_look {i : Nat} {w : WaitCall} (hready : s.object.ready = true)
    (hw : s.waits[i]? = some w) (hstage : w.stage ≠ .called) (hanswer : w.answered = false) :
    ¬Safe s := by
  intro hsafe
  have hlook := hsafe.step rfl (step_look hready hw hstage)
  have hjustified := hlook [] (s.finish i w true) nofun rfl
  have hanswered : w.answered = true := hjustified ⟨w.msg, true, w.answered⟩ (by simp [finish]) rfl
  rw [hanswer] at hanswered
  cases hanswered

theorem not_safe_of_ready {w : WaitCall} (hready : s.object.ready = true) (hw : w ∈ s.waits)
    (hanswer : w.answered = false) : ¬Safe s := by
  obtain ⟨i, hi⟩ := List.mem_iff_getElem?.mp hw
  by_cases hstage : w.stage = .called
  · intro hsafe
    obtain ⟨msg, stage, answered⟩ := w
    obtain rfl : stage = .called := hstage
    have hstore : step s (.store i) = some { s with
        object.waitingMsg := msg
        waits := s.waits.set i ⟨msg, .stored, answered⟩ } := by
      simp [step, hi]
    have hlt : i < s.waits.length := (List.getElem?_eq_some_iff.mp hi).1
    refine not_safe_of_look (i := i) (w := ⟨msg, .stored, answered⟩) ?_ ?_ ?_ hanswer
      (hsafe.step rfl hstore)
    · exact hready
    · simp [hlt]
    · nofun
  · exact not_safe_of_look hready hi hstage hanswer

theorem inv_of_safe (h : Safe s) : Inv s := by
  refine ⟨h [] s nofun rfl, fun hpending w hw => ?_⟩
  by_contra hnot
  have hanswer : w.answered = false := by simpa using hnot
  rcases hpending with hready | ⟨r, hr, haccepted⟩
  · exact not_safe_of_ready hready hw hanswer h
  · obtain ⟨j, hj⟩ := List.mem_iff_getElem?.mp hr
    obtain ⟨msg, accepted⟩ := r
    obtain rfl : accepted = true := haccepted
    have hsignal : step s (.signal j) = some { s with
        object.ready := true
        receives := s.receives.eraseIdx j } := by
      simp [step, hj]
    exact not_safe_of_ready (s := { s with
      object.ready := true
      receives := s.receives.eraseIdx j }) rfl hw hanswer (h.step rfl hsignal)

/-- The first step out of order leaves calls that can end in a wait without its answer. -/
theorem inOrder_of_inv (s : Calls) (e : CallEvent) (s' : Calls) (hstep : step s e = some s')
    (h : Inv s') : InOrder s e := by
  cases e with
  | wait msg =>
      intro hmsg hpending
      obtain rfl := Option.some.inj ((if_neg hmsg).symm.trans hstep)
      have hanswered := h.pending hpending ⟨msg, .called, false⟩ (by simp)
      cases hanswered
  | compare j =>
      rintro ⟨⟨msg, accepted⟩, hr, hmsg⟩
      have hr : s.receives[j]? = some ⟨msg, accepted⟩ := hr
      have hmsg : msg = s.object.waitingMsg := hmsg
      simp only [step, hr] at hstep
      cases accepted with
      | true => cases hstep
      | false =>
          obtain rfl := Option.some.inj ((if_pos hmsg).symm.trans hstep)
          have hlt : j < s.receives.length := (List.getElem?_eq_some_iff.mp hr).1
          exact h.pending (.inr ⟨⟨msg, true⟩, List.mem_set hlt _, rfl⟩)
  | _ => trivial

/-- In every run: no state is one from which the calls under way can end in a wait that returns true
without its answer, if and only if all steps are in order. -/
theorem safe_iff {events : List CallEvent} {s : Calls} (hrun : run step init events = some s) :
    (∀ before m, before <+: events → run step init before = some m → Safe m) ↔
      AllSteps step InOrder init events := by
  have hinit : Inv init := ⟨nofun, fun _ => nofun⟩
  exact prefixes_iff_of_guarded inv_step (fun _ h => safe_of_inv h)
    (fun s e s' _ hstep h => inOrder_of_inv s e s' hstep (inv_of_safe h)) hinit hrun

end Calls

end SyncWaitMsg

end CloudEdgePush.Client
