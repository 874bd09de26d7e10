import Mathlib.Tactic.Common

/-!
# Patterns of `string.match`

A pattern is a list of classes, each with a quantifier and perhaps captured.  As in Lua a match is
tried from the left, and a repeated class takes as much as it can and gives back what the rest of
the pattern needs.
-/

namespace CloudEdgePush.Lib.LuaPattern

def text (s : String) : List UInt8 := s.toList.map fun c => UInt8.ofNat c.toNat

def isSpace (b : UInt8) : Bool := b == 32 || 9 ≤ b && b ≤ 13

/-- `%w` and `_`, which is `\w` of a regular expression. -/
def isWord (b : UInt8) : Bool :=
  48 ≤ b && b ≤ 57 || 65 ≤ b && b ≤ 90 || 97 ≤ b && b ≤ 122 || b == 95

def lower (s : List UInt8) : List UInt8 := s.map fun b => if 65 ≤ b && b ≤ 90 then b + 32 else b

inductive Quantifier
  | once
  /-- `+`. -/
  | plus
  /-- `*`. -/
  | star

structure Item where
  cls : UInt8 → Bool
  quantifier : Quantifier
  captured : Bool

def literal (s : String) : List Item := (text s).map fun c => ⟨(· == c), .once, false⟩

/-- A class that may be repeated, behind `taken`, and what `after` makes of the rest. -/
def expand (cls : UInt8 → Bool) (after : List UInt8 → List UInt8 → Option (List (List UInt8)))
    (taken : List UInt8) : List UInt8 → Option (List (List UInt8))
  | [] => after taken []
  | b :: s =>
      if cls b then (expand cls after (taken ++ [b]) s).or (after taken (b :: s))
      else after taken (b :: s)

def capture (captured : Bool) (taken : List UInt8) (captures : List (List UInt8)) :
    List (List UInt8) := if captured then taken :: captures else captures

def matchHere : List Item → List UInt8 → Option (List (List UInt8))
  | [], _ => some []
  | ⟨cls, quantifier, captured⟩ :: items, s =>
      let after (taken s : List UInt8) := (matchHere items s).map (capture captured taken)
      match quantifier with
      | .star => expand cls after [] s
      | .plus =>
          match s with
          | b :: s => if cls b then expand cls after [b] s else none
          | [] => none
      | .once =>
          match s with
          | b :: s => if cls b then after [b] s else none
          | [] => none

def find (items : List Item) : List UInt8 → Option (List (List UInt8))
  | [] => matchHere items []
  | b :: s => (matchHere items (b :: s)).or (find items s)

section Items

variable (cls : UInt8 → Bool) (captured : Bool) (items : List Item) (b : UInt8) (s : List UInt8)

theorem matchHere_star : matchHere (⟨cls, .star, captured⟩ :: items) s =
    expand cls (fun taken s => (matchHere items s).map (capture captured taken)) [] s := rfl

theorem matchHere_plus : matchHere (⟨cls, .plus, captured⟩ :: items) (b :: s) =
    if cls b then expand cls (fun taken s => (matchHere items s).map (capture captured taken)) [b] s
    else none := rfl

theorem matchHere_once : matchHere (⟨cls, .once, captured⟩ :: items) (b :: s) =
    if cls b then (matchHere items s).map (capture captured [b]) else none := rfl

end Items

theorem find_of_here {items : List Item} {s : List UInt8} {captures : List (List UInt8)}
    (h : matchHere items s = some captures) : find items s = some captures := by
  cases s with
  | nil => exact h
  | cons b s => rw [find, h, Option.some_or]

/-- A run of the class in front of something else is taken whole if the rest matches there. -/
theorem expand_run {cls : UInt8 → Bool}
    {after : List UInt8 → List UInt8 → Option (List (List UInt8))} {run rest : List UInt8}
    {captures : List (List UInt8)} (hrun : ∀ b ∈ run, cls b = true)
    (hrest : ∀ b ∈ rest.head?, cls b = false) (taken : List UInt8)
    (h : after (taken ++ run) rest = some captures) :
    expand cls after taken (run ++ rest) = some captures := by
  induction run generalizing taken with
  | nil =>
      rw [List.append_nil] at h
      cases rest with
      | nil => exact h
      | cons b rest =>
          have hb : cls b = false := hrest b rfl
          rw [List.nil_append, expand, hb, if_neg Bool.false_ne_true, h]
  | cons b run ih =>
      obtain ⟨hb, hrun⟩ := List.forall_mem_cons.mp hrun
      rw [List.cons_append, expand, if_pos hb, ih hrun (taken ++ [b]), Option.some_or]
      rw [List.append_assoc, List.singleton_append]
      exact h

theorem matchHere_rest (b : UInt8) (s : List UInt8) :
    matchHere [⟨fun _ => true, .plus, true⟩] (b :: s) = some [b :: s] := by
  rw [matchHere_plus, if_pos rfl, ← List.append_nil s]
  exact expand_run (fun _ _ => rfl) (by simp) [b] (by simp [matchHere, capture])

end CloudEdgePush.Lib.LuaPattern
