import Mathlib.Data.List.Infix
import Mathlib.Tactic.Common

/-!
# Reading up to a pattern

`splitUntil pat s` is what comes before and behind the first `pat` in `s`.  When the first element
of the pattern does not occur again in it, the first `pat` in `d ++ pat ++ rest` is the one behind
`d`, for every `d` that does not contain it.
-/

namespace CloudEdgePush.Lib.Until

variable {α : Type*} [DecidableEq α] {pat s d rest : List α}

def splitUntil (pat : List α) : List α → Option (List α × List α)
  | [] => if pat = [] then some ([], []) else none
  | x :: s =>
      if pat <+: x :: s then some ([], (x :: s).drop pat.length)
      else (splitUntil pat s).map (Prod.map (x :: ·) id)

theorem splitUntil_of_isPrefix (h : pat <+: s) : splitUntil pat s = some ([], s.drop pat.length) := by
  cases s with
  | nil =>
      obtain rfl := List.prefix_nil.mp h
      rfl
  | cons x s => exact if_pos h

theorem splitUntil_here (pat rest : List α) : splitUntil pat (pat ++ rest) = some ([], rest) := by
  rw [splitUntil_of_isPrefix (List.prefix_append pat rest), List.drop_left]

theorem splitUntil_sound (h : splitUntil pat s = some (d, rest)) : s = d ++ pat ++ rest := by
  induction s generalizing d with
  | nil =>
      obtain ⟨rfl, heq⟩ := Option.ite_none_right_eq_some.mp h
      obtain ⟨rfl, rfl⟩ := Prod.mk.inj (Option.some.inj heq)
      rfl
  | cons x s ih =>
      unfold splitUntil at h
      split at h
      · rename_i hhere
        obtain ⟨rfl, rfl⟩ := Prod.mk.inj (Option.some.inj h)
        exact List.prefix_iff_eq_append.mp hhere |>.symm
      · obtain ⟨⟨before, after⟩, hsplit, heq⟩ := Option.map_eq_some_iff.mp h
        obtain ⟨rfl, rfl⟩ := Prod.mk.inj heq
        exact congrArg (x :: ·) (ih hsplit)

theorem splitUntil_eq_none_iff : splitUntil pat s = none ↔ ¬pat <:+: s := by
  induction s with
  | nil => simp [splitUntil]
  | cons x s ih =>
      rw [List.infix_cons_iff]
      unfold splitUntil
      split
      · rename_i hhere
        simp [hhere]
      · rename_i hhere
        simp [hhere, ih]

theorem splitUntil_drop (h : splitUntil pat s = none) (n : Nat) :
    splitUntil pat (s.drop n) = none := by
  rw [splitUntil_eq_none_iff] at h ⊢
  exact fun hin => h (hin.trans (List.drop_suffix n s).isInfix)

theorem splitUntil_least {d' rest' : List α} (h : splitUntil pat s = some (d, rest))
    (hs : s = d' ++ pat ++ rest') : d.length ≤ d'.length := by
  induction s generalizing d d' with
  | nil =>
      obtain ⟨-, heq⟩ := Option.ite_none_right_eq_some.mp h
      obtain ⟨rfl, -⟩ := Prod.mk.inj (Option.some.inj heq)
      exact Nat.zero_le _
  | cons x s ih =>
      unfold splitUntil at h
      split at h
      · obtain ⟨rfl, -⟩ := Prod.mk.inj (Option.some.inj h)
        exact Nat.zero_le _
      · rename_i hnot
        obtain ⟨⟨before, after⟩, hsplit, heq⟩ := Option.map_eq_some_iff.mp h
        obtain ⟨rfl, rfl⟩ := Prod.mk.inj heq
        cases d' with
        | nil =>
            rw [List.nil_append] at hs
            exact absurd ⟨rest', hs.symm⟩ hnot
        | cons y d' =>
            rw [List.length_cons, List.length_cons]
            exact Nat.succ_le_succ (ih hsplit (List.cons.inj hs).2)

theorem splitUntil_of_short {p : List α} (h : splitUntil pat s = some (d, rest)) (hp : p <+: s)
    (hshort : p.length < d.length + pat.length) : splitUntil pat p = none := by
  rw [splitUntil_eq_none_iff]
  rintro ⟨d', rest', rfl⟩
  obtain ⟨later, rfl⟩ := hp
  have hle := splitUntil_least h (List.append_assoc _ _ _)
  rw [List.length_append, List.length_append] at hshort
  omega

omit [DecidableEq α] in
/-- Where a stream ends that was to hold `a` and then `b`. -/
theorem prefix_append_cases {p a b : List α} (h : p <+: a ++ b) :
    (p <+: a ∧ p.length < a.length) ∨ ∃ q, q <+: b ∧ p = a ++ q := by
  rcases Nat.lt_or_ge p.length a.length with hlt | hge
  · exact .inl ⟨List.prefix_of_prefix_length_le h (List.prefix_append a b) hlt.le, hlt⟩
  · obtain ⟨q, rfl⟩ := List.prefix_of_prefix_length_le (List.prefix_append a b) h hge
    exact .inr ⟨q, (List.prefix_append_right_inj a).mp h, rfl⟩

/-- The pattern does not begin inside of `d` when its first element is not in its tail. -/
theorem splitUntil_append {c : α} {tail : List α} (hpat : pat = c :: tail) (hc : c ∉ tail)
    (hd : ¬pat <:+: d) (rest : List α) : splitUntil pat (d ++ pat ++ rest) = some (d, rest) := by
  induction d with
  | nil => exact splitUntil_here pat rest
  | cons x d ih =>
      have hnot : ¬pat <+: x :: d ++ pat ++ rest := by
        intro hprefix
        rw [List.append_assoc] at hprefix
        rcases List.prefix_or_prefix_of_prefix hprefix (List.prefix_append _ _) with hin | hover
        · exact hd hin.isInfix
        · obtain ⟨later, hlater⟩ := hover
          rw [← hlater, List.prefix_append_right_inj, hlater] at hprefix
          cases later with
          | nil =>
              rw [List.append_nil] at hlater
              exact hd (hlater ▸ List.infix_rfl)
          | cons y later =>
              rw [hpat, List.cons_append] at hprefix hlater
              obtain ⟨rfl, -⟩ := List.cons_prefix_cons.mp hprefix
              apply hc
              rw [← (List.cons.inj hlater).2]
              exact List.mem_append_right _ List.mem_cons_self
      have hrest : ¬pat <:+: d := fun h => hd (h.trans (List.suffix_cons x d).isInfix)
      show splitUntil pat (x :: (d ++ pat ++ rest)) = _
      rw [splitUntil, ih hrest]
      exact if_neg hnot

omit [DecidableEq α] in
theorem eq_of_marker {init a s : List α} {c : α} (hinit : c ∉ init) (ha : c ∉ a)
    (h : init ++ [c] <+: a ++ c :: s) : init = a := by
  obtain ⟨t, ht⟩ := h
  rw [List.append_assoc, List.singleton_append] at ht
  rcases List.append_eq_append_iff.mp ht with ⟨between, rfl, hrest⟩ | ⟨between, rfl, hrest⟩
  · cases between with
    | nil => exact (List.append_nil _).symm
    | cons y between =>
        obtain ⟨rfl, -⟩ := List.cons.inj hrest
        exact absurd (List.mem_append_right _ List.mem_cons_self) ha
  · cases between with
    | nil => exact List.append_nil _
    | cons y between =>
        obtain ⟨rfl, -⟩ := List.cons.inj hrest
        exact absurd (List.mem_append_right _ List.mem_cons_self) hinit

/-- A pattern that ends with an element that is not in the rest of it is found behind the first
such element, or after it. -/
theorem splitUntil_marker {init a : List α} {c : α} (hinit : c ∉ init) (ha : c ∉ a) (s : List α) :
    splitUntil (init ++ [c]) (a ++ c :: s) =
      if init <:+ a then some (a.take (a.length - init.length), s)
      else (splitUntil (init ++ [c]) s).map (Prod.map (a ++ c :: ·) id) := by
  induction a with
  | nil =>
      by_cases hnil : init = []
      · rw [hnil, if_pos (List.suffix_refl _)]
        exact splitUntil_here [c] s
      · have hnot : ¬init ++ [c] <+: c :: s := by
          obtain ⟨x, init, rfl⟩ := List.exists_cons_of_ne_nil hnil
          intro hprefix
          obtain ⟨rfl, -⟩ := List.cons_prefix_cons.mp hprefix
          exact hinit List.mem_cons_self
        rw [if_neg (fun h => hnil (List.suffix_nil.mp h)), List.nil_append, splitUntil, if_neg hnot]
        rfl
  | cons x a ih =>
      have ha' : c ∉ a := fun h => ha (List.mem_cons_of_mem _ h)
      have hhere : init ++ [c] <+: x :: (a ++ c :: s) ↔ init = x :: a :=
        ⟨fun h => eq_of_marker hinit ha h, fun h => ⟨s, by simp [h]⟩⟩
      rw [List.cons_append, splitUntil, ih ha']
      by_cases heq : init = x :: a
      · rw [if_pos (hhere.mpr heq), heq, if_pos (List.suffix_refl _), Nat.sub_self, List.take_zero]
        simp
      · have hlater : init <:+ x :: a ↔ init <:+ a := by simp [List.suffix_cons_iff, heq]
        rw [if_neg (fun h => heq (hhere.mp h))]
        by_cases hsuffix : init <:+ a
        · have hle := hsuffix.length_le
          rw [if_pos hsuffix, if_pos (hlater.mpr hsuffix), Option.map_some]
          simp only [Prod.map_apply, id_eq, List.length_cons]
          rw [Nat.succ_sub hle, List.take_succ_cons]
        · rw [if_neg hsuffix, if_neg (fun h => hsuffix (hlater.mp h)), Option.map_map]
          rfl

end CloudEdgePush.Lib.Until
