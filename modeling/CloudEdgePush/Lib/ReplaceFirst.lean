import Mathlib.Data.List.Nodup
import Mathlib.Tactic.Common

/-!
# Replacing the first match

`replaceFirst m t l` puts `t` in the place of the first element of `l` that matches, or at the
end.  A list that is kept in this way has unique keys as long as the match goes by the key; when
it also goes by something else, a step can leave two elements with one key, or lose an element
that has nothing to do with `t`.  The last two theorems say when.
-/

namespace CloudEdgePush.Lib

variable {α κ : Type*} {m : α → Bool} {t : α} {l : List α}

def replaceFirst (m : α → Bool) (t : α) : List α → List α
  | [] => [t]
  | x :: rest => if m x then t :: rest else x :: replaceFirst m t rest

theorem replaceFirst_of_none (h : ∀ x ∈ l, m x = false) : replaceFirst m t l = l ++ [t] := by
  induction l with
  | nil => rfl
  | cons x rest ih =>
      obtain ⟨hx, hrest⟩ := List.forall_mem_cons.mp h
      rw [replaceFirst, hx, if_neg Bool.false_ne_true, ih hrest, List.cons_append]

theorem replaceFirst_append {before after : List α} {x : α} (hbefore : ∀ y ∈ before, m y = false)
    (hx : m x = true) : replaceFirst m t (before ++ x :: after) = before ++ t :: after := by
  induction before with
  | nil => rw [List.nil_append, replaceFirst, if_pos hx, List.nil_append]
  | cons y before ih =>
      obtain ⟨hy, hrest⟩ := List.forall_mem_cons.mp hbefore
      rw [List.cons_append, replaceFirst, hy, if_neg Bool.false_ne_true, ih hrest,
        List.cons_append]

inductive Replaced (m : α → Bool) (t : α) : List α → List α → Prop
  | added {l : List α} (h : ∀ x ∈ l, m x = false) : Replaced m t l (l ++ [t])
  | replaced {before after : List α} {x : α} (hbefore : ∀ y ∈ before, m y = false)
      (hx : m x = true) : Replaced m t (before ++ x :: after) (before ++ t :: after)

theorem replaced_replaceFirst (m : α → Bool) (t : α) (l : List α) :
    Replaced m t l (replaceFirst m t l) := by
  cases hfind : l.find? m with
  | none =>
      have hnone : ∀ x ∈ l, m x = false := by simpa using hfind
      rw [replaceFirst_of_none hnone]
      exact .added hnone
  | some x =>
      obtain ⟨hx, before, after, rfl, hbefore⟩ := List.find?_eq_some_iff_append.mp hfind
      have hbefore' : ∀ y ∈ before, m y = false := by simpa using hbefore
      rw [replaceFirst_append hbefore' hx]
      exact .replaced hbefore' hx

theorem filter_key_eq_singleton [DecidableEq κ] {key : α → κ} (hunique : (l.map key).Nodup)
    (ht : t ∈ l) : l.filter (fun x => key x = key t) = [t] := by
  induction l with
  | nil => cases ht
  | cons x rest ih =>
      rw [List.map_cons, List.nodup_cons] at hunique
      by_cases hkey : key x = key t
      · have hnone : rest.filter (fun y => key y = key t) = [] := by
          rw [List.filter_eq_nil_iff]
          intro y hy hsame
          rw [hkey, ← of_decide_eq_true hsame] at hunique
          exact hunique.1 (List.mem_map_of_mem hy)
        rcases List.mem_cons.mp ht with rfl | hmem
        · rw [List.filter_cons_of_pos (by simp), hnone]
        · rw [hkey] at hunique
          exact absurd (List.mem_map_of_mem hmem) hunique.1
      · rcases List.mem_cons.mp ht with rfl | hmem
        · exact absurd rfl hkey
        · rw [List.filter_cons_of_neg (by simpa using hkey), ih hunique.2 hmem]

/-- Unique keys stay unique exactly if the first match has the key of the new element, or no
element has. -/
theorem nodup_replaceFirst_iff {key : α → κ} (hunique : (l.map key).Nodup)
    (hmatch : ∀ x ∈ l, key x = key t → m x = true) :
    ((replaceFirst m t l).map key).Nodup ↔
      ∀ x, l.find? m = some x → key x = key t ∨ ∀ y ∈ l, key y ≠ key t := by
  have hreplaced := replaced_replaceFirst m t l
  generalize replaceFirst m t l = l' at hreplaced ⊢
  cases hreplaced with
  | added h =>
      have hfind : l.find? m = none := by simpa using h
      have hkey : key t ∉ l.map key := by
        intro hmem
        obtain ⟨x, hx, hsame⟩ := List.mem_map.mp hmem
        have hmatched := hmatch x hx hsame
        rw [h x hx] at hmatched
        cases hmatched
      refine iff_of_true ?_ (by simp [hfind])
      rw [List.map_append, List.map_singleton, List.nodup_append_comm]
      exact List.nodup_cons.mpr ⟨hkey, hunique⟩
  | replaced hbefore hx =>
      rename_i before after x
      have hfind : (before ++ x :: after).find? m = some x :=
        List.find?_eq_some_iff_append.mpr ⟨hx, before, after, rfl, by simpa using hbefore⟩
      simp only [hfind, Option.some.injEq, forall_eq']
      rw [List.map_append, List.map_cons, List.nodup_middle, List.nodup_cons] at hunique ⊢
      by_cases hkey : key x = key t
      · rw [← hkey]
        exact iff_of_true hunique (.inl rfl)
      · rw [or_iff_right hkey, and_iff_left hunique.2]
        constructor
        · intro hnot y hy hsame
          rcases List.mem_append.mp hy with hmem | hmem
          · exact hnot (List.mem_append_left _ (hsame ▸ List.mem_map_of_mem hmem))
          · rcases List.mem_cons.mp hmem with rfl | hmem
            · exact hkey hsame
            · exact hnot (List.mem_append_right _ (hsame ▸ List.mem_map_of_mem hmem))
        · intro hnone hmem
          rw [← List.map_append] at hmem
          obtain ⟨y, hy, hsame⟩ := List.mem_map.mp hmem
          refine hnone y ?_ hsame
          rcases List.mem_append.mp hy with hy | hy
          · exact List.mem_append_left _ hy
          · exact List.mem_append_right _ (List.mem_cons_of_mem _ hy)

/-- Elements with `P` are not lost exactly if the first match has not `P`, or occurs again. -/
theorem forall_mem_replaceFirst_iff {P : α → Prop} (ht : ¬ P t) :
    (∀ u ∈ l, P u → u ∈ replaceFirst m t l) ↔
      ∀ before x after, l = before ++ x :: after → (∀ y ∈ before, m y = false) → m x = true →
        P x → x ∈ after := by
  constructor
  · rintro h before x after rfl hbefore hx hP
    have hmem := h x (by simp) hP
    rw [replaceFirst_append hbefore hx, List.mem_append, List.mem_cons] at hmem
    rcases hmem with hmem | rfl | hmem
    · rw [hbefore x hmem] at hx
      cases hx
    · exact absurd hP ht
    · exact hmem
  · intro h u hu hP
    have hreplaced := replaced_replaceFirst m t l
    generalize replaceFirst m t l = l' at hreplaced ⊢
    cases hreplaced with
    | added hnone => exact List.mem_append_left _ hu
    | replaced hbefore hx =>
        rename_i before after x
        rcases List.mem_append.mp hu with hmem | hmem
        · exact List.mem_append_left _ hmem
        · refine List.mem_append_right _ (List.mem_cons_of_mem _ ?_)
          rcases List.mem_cons.mp hmem with rfl | hmem
          · exact h before u after rfl hbefore hx hP
          · exact hmem

end CloudEdgePush.Lib
