import CloudEdgePush.Lib.Transition

/-!
# Event loops with one thread

A loop is a state and a queue of handlers that are ready.  The environment changes the state and
makes handlers ready; the loop runs the handler at the front of the queue.  What becomes ready
goes to the end of the queue, so handlers run in the order in which they became ready.

* `Leads a b` — whichever `b` is in the queue, an `a` runs before it;
* `Trails a b` — whichever `a` is in the queue, a `b` runs after it.
-/

namespace CloudEdgePush.Lib.EventLoop

variable {σ ρ ε : Type*}

structure Program (σ ρ ε : Type*) where
  environment : σ → ε → Option (σ × List ρ)
  handler : σ → ρ → σ × List ρ

structure Loop (σ ρ : Type*) where
  state : σ
  queue : List ρ
deriving DecidableEq

inductive Event (ε : Type*)
  | env (e : ε)
  | run
deriving DecidableEq, Repr

variable (p : Program σ ρ ε)

def step (s : Loop σ ρ) : Event ε → Option (Loop σ ρ)
  | .env e => (p.environment s.state e).map fun next => ⟨next.1, s.queue ++ next.2⟩
  | .run =>
      match s.queue with
      | [] => none
      | r :: rest => some ⟨(p.handler s.state r).1, rest ++ (p.handler s.state r).2⟩

variable {p}

theorem step_env_eq_some {s s' : Loop σ ρ} {e : ε} :
    step p s (.env e) = some s' ↔ ∃ state ready, p.environment s.state e = some (state, ready) ∧
      s' = ⟨state, s.queue ++ ready⟩ := by
  simp only [step, Option.map_eq_some_iff, Prod.exists, @eq_comm _ s']

theorem step_run_eq_some {s s' : Loop σ ρ} :
    step p s .run = some s' ↔ ∃ r rest, s.queue = r :: rest ∧
      s' = ⟨(p.handler s.state r).1, rest ++ (p.handler s.state r).2⟩ := by
  cases hqueue : s.queue with
  | nil => simp [step, hqueue]
  | cons r rest => simp [step, hqueue, @eq_comm _ s']

/-! ## The order of the queue -/

def Leads (a b : ρ → Prop) : List ρ → Prop
  | [] => True
  | r :: q => a r ∨ ¬b r ∧ Leads a b q

def Trails (a b : ρ → Prop) : List ρ → Prop
  | [] => True
  | r :: q => (a r → ∃ later ∈ q, b later) ∧ Trails a b q

variable {a b : ρ → Prop} {r : ρ} {q q' : List ρ}

namespace Leads

theorem tail (h : Leads a b (r :: q)) (hr : ¬a r) : Leads a b q := (h.resolve_left hr).2

theorem not_head (h : Leads a b (r :: q)) (hr : ¬a r) : ¬b r := (h.resolve_left hr).1

theorem of_forall_not (h : ∀ r ∈ q, ¬b r) : Leads a b q := by
  induction q with
  | nil => trivial
  | cons r q ih =>
      obtain ⟨hr, hq⟩ := List.forall_mem_cons.mp h
      exact .inr ⟨hr, ih hq⟩

theorem append (h : Leads a b q) (hq : ∃ r ∈ q, a r) : Leads a b (q ++ q') := by
  induction q with
  | nil =>
      obtain ⟨r, hr, -⟩ := hq
      cases hr
  | cons r q ih =>
      by_cases hr : a r
      · exact .inl hr
      · have hq : ∃ r ∈ q, a r := by simpa [hr] using hq
        exact .inr ⟨h.not_head hr, ih (h.tail hr) hq⟩

theorem append_of_forall_not (h : Leads a b q) (hq' : ∀ r ∈ q', ¬b r) : Leads a b (q ++ q') := by
  induction q with
  | nil => exact of_forall_not hq'
  | cons r q ih => exact h.imp_right fun hr => ⟨hr.1, ih hr.2⟩

end Leads

namespace Trails

theorem tail (h : Trails a b (r :: q)) : Trails a b q := h.2

theorem after_head (h : Trails a b (r :: q)) (hr : a r) : ∃ later ∈ q, b later := h.1 hr

theorem of_forall_not (h : ∀ r ∈ q, ¬a r) : Trails a b q := by
  induction q with
  | nil => trivial
  | cons r q ih =>
      obtain ⟨hr, hq⟩ := List.forall_mem_cons.mp h
      exact ⟨fun ha => absurd ha hr, ih hq⟩

theorem append_of_forall_not (h : Trails a b q) (hq' : ∀ r ∈ q', ¬a r) : Trails a b (q ++ q') := by
  induction q with
  | nil => exact of_forall_not hq'
  | cons r q ih =>
      refine ⟨fun ha => ?_, ih h.2⟩
      obtain ⟨later, hlater, hb⟩ := h.1 ha
      exact ⟨later, List.mem_append_left _ hlater, hb⟩

theorem concat (q : List ρ) (hb : b r) (ha : ¬a r) : Trails a b (q ++ [r]) := by
  induction q with
  | nil => exact ⟨fun h => absurd h ha, trivial⟩
  | cons first q ih => exact ⟨fun _ => ⟨r, by simp, hb⟩, ih⟩

end Trails

end CloudEdgePush.Lib.EventLoop
