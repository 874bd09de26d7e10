import Mathlib.Tactic.Common

/-!
# A loop that can be left

The body of the loop changes a state and says whether the loop goes on.  When that depends on
the element alone, the loop is a fold over the elements up to the first one that leaves it; an
invariant takes care of what the body reads of the state.
-/

namespace CloudEdgePush.Lib

variable {σ α β : Type*}

/-- The state after the loop, and whether it was not left. -/
def forEach (body : σ → α → σ × Bool) : σ → List α → σ × Bool
  | s, [] => (s, true)
  | s, a :: as => if (body s a).2 then forEach body (body s a).1 as else ((body s a).1, false)

def upTo (goes : α → Bool) : List α → List α
  | [] => []
  | a :: as => if goes a then a :: upTo goes as else [a]

def behind (goes : α → Bool) : List α → List α
  | [] => []
  | a :: as => if goes a then behind goes as else as

theorem upTo_append_behind (goes : α → Bool) (as : List α) :
    upTo goes as ++ behind goes as = as := by
  induction as with
  | nil => rfl
  | cons a as ih =>
      by_cases ha : goes a = true
      · rw [upTo, behind, if_pos ha, if_pos ha, List.cons_append, ih]
      · rw [upTo, behind, if_neg ha, if_neg ha, List.singleton_append]

theorem upTo_eq_self {goes : α → Bool} {as : List α} (h : ∀ a ∈ as, goes a = true) :
    upTo goes as = as := by
  induction as with
  | nil => rfl
  | cons a as ih =>
      obtain ⟨hhead, htail⟩ := List.forall_mem_cons.mp h
      rw [upTo, if_pos hhead, ih htail]

section

variable {body body' : σ → α → σ × Bool} {s : σ} {a : α}

theorem forEach_cons_of_goes (h : (body s a).2 = true) (as : List α) :
    forEach body s (a :: as) = forEach body (body s a).1 as := by
  rw [forEach, if_pos h]

theorem forEach_cons_of_leaves (h : (body s a).2 = false) (as : List α) :
    forEach body s (a :: as) = body s a := by
  rw [forEach, h, if_neg Bool.false_ne_true]
  exact Prod.ext rfl h.symm

theorem forEach_append (body : σ → α → σ × Bool) (s : σ) (as as' : List α) :
    forEach body s (as ++ as') =
      if (forEach body s as).2 then forEach body (forEach body s as).1 as'
      else forEach body s as := by
  induction as generalizing s with
  | nil => rfl
  | cons a as ih =>
      rw [List.cons_append]
      cases hgoes : (body s a).2 with
      | true => rw [forEach_cons_of_goes hgoes, forEach_cons_of_goes hgoes, ih]
      | false =>
          rw [forEach_cons_of_leaves hgoes, forEach_cons_of_leaves hgoes, hgoes,
            if_neg Bool.false_ne_true]

theorem forEach_map (body : σ → β → σ × Bool) (s : σ) (f : α → β) (as : List α) :
    forEach body s (as.map f) = forEach (fun s a => body s (f a)) s as := by
  induction as generalizing s with
  | nil => rfl
  | cons a as ih => rw [List.map_cons, forEach, forEach, ih]

/-- A loop in a loop is one loop over the pairs. -/
theorem forEach_flatMap (inner : α → σ → β → σ × Bool) (s : σ) (as : List α) (bs : List β) :
    forEach (fun s a => forEach (inner a) s bs) s as =
      forEach (fun s t => inner t.1 s t.2) s (as.flatMap fun a => bs.map (Prod.mk a)) := by
  induction as generalizing s with
  | nil => rfl
  | cons a as ih =>
      rw [List.flatMap_cons, forEach_append, forEach_map]
      cases hgoes : (forEach (inner a) s bs).2 with
      | true =>
          rw [if_pos rfl, ← ih]
          apply forEach_cons_of_goes
          exact hgoes
      | false =>
          rw [if_neg Bool.false_ne_true]
          apply forEach_cons_of_leaves
          exact hgoes

theorem forEach_invariant (Inv : σ → Prop) (hbody : ∀ s a, Inv s → Inv (body s a).1)
    (as : List α) (hs : Inv s) : Inv (forEach body s as).1 := by
  induction as generalizing s with
  | nil => exact hs
  | cons a as ih =>
      have hnext := hbody s a hs
      cases hgoes : (body s a).2 with
      | true =>
          rw [forEach_cons_of_goes hgoes]
          exact ih hnext
      | false =>
          rw [forEach_cons_of_leaves hgoes]
          exact hnext

theorem forEach_congr (Inv : σ → Prop) (hsame : ∀ s a, Inv s → body s a = body' s a)
    (hbody : ∀ s a, Inv s → Inv (body s a).1) (as : List α) (hs : Inv s) :
    forEach body s as = forEach body' s as := by
  induction as generalizing s with
  | nil => rfl
  | cons a as ih => rw [forEach, forEach, ← hsame s a hs, ih (hbody s a hs)]

theorem forEach_eq_foldl (Inv : σ → Prop) {goes : α → Bool}
    (hbody : ∀ s a, Inv s → Inv (body s a).1) (as : List α)
    (hgoes : ∀ s, ∀ a ∈ as, Inv s → (body s a).2 = goes a) (hs : Inv s) :
    forEach body s as = ((upTo goes as).foldl (fun s a => (body s a).1) s, as.all goes) := by
  induction as generalizing s with
  | nil => rfl
  | cons a as ih =>
      have hhead : (body s a).2 = goes a := hgoes s a List.mem_cons_self hs
      have htail : ∀ s, ∀ a ∈ as, Inv s → (body s a).2 = goes a := fun s a ha =>
        hgoes s a (List.mem_cons_of_mem _ ha)
      rw [upTo, List.all_cons]
      cases ha : goes a with
      | true =>
          rw [forEach_cons_of_goes (hhead.trans ha), ih htail (hbody s a hs), if_pos rfl,
            Bool.true_and, List.foldl_cons]
      | false =>
          rw [forEach_cons_of_leaves (hhead.trans ha), if_neg Bool.false_ne_true, Bool.false_and,
            List.foldl_cons, List.foldl_nil]
          exact Prod.ext rfl (hhead.trans ha)

end

end CloudEdgePush.Lib
