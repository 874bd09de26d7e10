import Mathlib.Tactic.Common

/-!
# The last entry of a history

A history lists what happened, the newest last.  `last p` is the newest entry that satisfies
`p`: what a store holds under a key when every write replaces the one before.
`forall_split_concat` extends a property of all places of one entry by one more entry.
-/

namespace CloudEdgePush.Lib.History

variable {α : Type*}

def last (p : α → Bool) (history : List α) : Option α := history.reverse.find? p

theorem last_concat (p : α → Bool) (history : List α) (x : α) :
    last p (history ++ [x]) = if p x then some x else last p history := by
  rw [last, List.reverse_append, List.reverse_singleton, List.singleton_append, List.find?_cons]
  cases p x with
  | true => rfl
  | false => rfl

theorem last_mem {p : α → Bool} {history : List α} {x : α} (h : last p history = some x) :
    x ∈ history := List.mem_reverse.mp (List.mem_of_find?_eq_some h)

theorem last_holds {p : α → Bool} {history : List α} {x : α} (h : last p history = some x) :
    p x = true := List.find?_some h

theorem last_eq_none {p : α → Bool} {history : List α} :
    last p history = none ↔ ∀ x ∈ history, p x = false := by
  simp [last, List.find?_eq_none]

/-- Among the entries of a larger kind the newest is of the smaller kind: then it is the newest
of that kind. -/
theorem last_of_imp {p q : α → Bool} (himp : ∀ x, p x = true → q x = true) {history : List α}
    {x : α} (hlast : last q history = some x) (hp : p x = true) : last p history = some x := by
  obtain ⟨-, newer, older, hreverse, hnewer⟩ := List.find?_eq_some_iff_append.mp hlast
  refine List.find?_eq_some_iff_append.mpr ⟨hp, newer, older, hreverse, ?_⟩
  intro y hy
  have hq := hnewer y hy
  cases hpy : p y with
  | false => rfl
  | true => simp [himp y hpy] at hq

theorem forall_split_concat {P : List α → Prop} {history : List α} {x y : α} :
    (∀ before after, history ++ [y] = before ++ x :: after → P before) ↔
      (∀ before after, history = before ++ x :: after → P before) ∧ (y = x → P history) := by
  constructor
  · intro h
    refine ⟨fun before after hsplit => h before (after ++ [y]) (by simp [hsplit]), ?_⟩
    rintro rfl
    exact h history [] rfl
  · rintro ⟨hinside, hnew⟩ before after hsplit
    rcases List.eq_nil_or_concat after with rfl | ⟨middle, z, rfl⟩
    · obtain ⟨rfl, hlast⟩ := List.append_inj' hsplit rfl
      exact hnew (List.singleton_inj.mp hlast)
    · have hlonger : history ++ [y] = (before ++ x :: middle) ++ [z] := by simpa using hsplit
      obtain ⟨hhistory, -⟩ := List.append_inj' hlonger rfl
      exact hinside before middle hhistory

end CloudEdgePush.Lib.History
