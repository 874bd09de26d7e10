import Mathlib.Tactic.Common

/-!
# FIFO queues over their history

A queue that loses and repeats nothing: what was pushed is what was popped followed by what the
queue holds (`Conserves`).  Pushes go to the end, pops take the front, and both keep the equation.
When the front of the queue is worked on before it is popped, what was started is what was popped
and the front (`InFlight`).  `tagged` takes the entries of one tag out of a log.
-/

namespace CloudEdgePush.Lib.Fifo

variable {α κ : Type*}

def Conserves (pushed popped held : List α) : Prop := pushed = popped ++ held

namespace Conserves

variable {pushed popped held : List α}

theorem start (held : List α) : Conserves held [] held := rfl

theorem push (h : Conserves pushed popped held) (xs : List α) :
    Conserves (pushed ++ xs) popped (held ++ xs) := by
  unfold Conserves at h ⊢
  rw [h, List.append_assoc]

theorem pop {x : α} (h : Conserves pushed popped (x :: held)) :
    Conserves pushed (popped ++ [x]) held := by
  unfold Conserves at h ⊢
  rw [h, List.append_assoc, List.singleton_append]

theorem popped_prefix (h : Conserves pushed popped held) : popped <+: pushed := ⟨held, h.symm⟩

end Conserves

/-! ## The front in flight -/

def InFlight (pushed started held : List α) : Prop :=
  ∃ popped, Conserves pushed popped held ∧ started = popped ++ held.take 1

namespace InFlight

variable {pushed started held : List α} {x y : α}

theorem empty : InFlight ([] : List α) [] [] := ⟨[], .start _, rfl⟩

theorem push_empty (h : InFlight pushed started []) :
    InFlight (pushed ++ [x]) (started ++ [x]) [x] := by
  obtain ⟨popped, hconserves, rfl⟩ := h
  refine ⟨popped, hconserves.push [x], ?_⟩
  rw [List.take_nil, List.append_nil]
  rfl

theorem push (h : InFlight pushed started (y :: held)) :
    InFlight (pushed ++ [x]) started (y :: held ++ [x]) := by
  obtain ⟨popped, hconserves, rfl⟩ := h
  exact ⟨popped, hconserves.push [x], rfl⟩

theorem pop_last (h : InFlight pushed started [x]) : InFlight pushed started [] := by
  obtain ⟨popped, hconserves, rfl⟩ := h
  exact ⟨popped ++ [x], hconserves.pop, (List.append_nil _).symm⟩

theorem pop (h : InFlight pushed started (x :: y :: held)) :
    InFlight pushed (started ++ [y]) (y :: held) := by
  obtain ⟨popped, hconserves, rfl⟩ := h
  exact ⟨popped ++ [x], hconserves.pop, rfl⟩

theorem started_prefix (h : InFlight pushed started held) : started <+: pushed := by
  obtain ⟨popped, hconserves, rfl⟩ := h
  rw [hconserves]
  exact (List.prefix_append_right_inj popped).mpr (List.take_prefix 1 held)

end InFlight

/-! ## Logs with tags -/

section Tagged

variable [DecidableEq κ] {log : List (κ × α)} {tag : κ}

def tagged (tag : κ) (log : List (κ × α)) : List α :=
  log.filterMap fun entry => if entry.1 = tag then some entry.2 else none

theorem tagged_eq_nil (h : ∀ entry ∈ log, entry.1 ≠ tag) : tagged tag log = [] := by
  unfold tagged
  rw [List.filterMap_eq_nil_iff]
  intro entry hentry
  rw [if_neg (h entry hentry)]

theorem tagged_append (log' : List (κ × α)) :
    tagged tag (log ++ log') = tagged tag log ++ tagged tag log' := List.filterMap_append

@[simp] theorem tagged_singleton (x : α) : tagged tag [(tag, x)] = [x] := by simp [tagged]

end Tagged

end CloudEdgePush.Lib.Fifo
