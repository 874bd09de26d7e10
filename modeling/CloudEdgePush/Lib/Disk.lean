import Mathlib.Data.Set.Function

/-!
# Files on a disk

A disk maps the names of files to their contents.  A program opens, appends to, renames and
removes files; each operation has one lemma for the files it changes and one for all others.
Names are those of files, not paths: two paths that lead to one file have one name.
-/

namespace CloudEdgePush.Lib

variable {ν α : Type*}

structure Disk (ν α : Type*) where
  /-- The content of a file, if it exists. -/
  file : ν → Option (List α)

namespace Disk

variable [DecidableEq ν]

def write (d : Disk ν α) (n : ν) (content : List α) : Disk ν α :=
  ⟨Function.update d.file n (some content)⟩

def remove (d : Disk ν α) (n : ν) : Disk ν α := ⟨Function.update d.file n none⟩

def contentOf (d : Disk ν α) (n : ν) : List α := (d.file n).getD []

/-- Open for appending, which creates the file, and write at its end. -/
def append (d : Disk ν α) (n : ν) (data : List α) : Disk ν α := d.write n (d.contentOf n ++ data)

/-- Move a file over another one; nothing happens when both are the same file. -/
def rename (d : Disk ν α) (src dst : ν) : Disk ν α :=
  if src = dst then d
  else
    match d.file src with
    | none => d
    | some content => (d.write dst content).remove src

@[simp] theorem write_same (d : Disk ν α) (n : ν) (content : List α) :
    (d.write n content).file n = some content := Function.update_self _ _ _

theorem write_of_ne (d : Disk ν α) {n m : ν} (h : m ≠ n) (content : List α) :
    (d.write n content).file m = d.file m := Function.update_of_ne h _ _

@[simp] theorem remove_same (d : Disk ν α) (n : ν) : (d.remove n).file n = none :=
  Function.update_self _ _ _

theorem remove_of_ne (d : Disk ν α) {n m : ν} (h : m ≠ n) : (d.remove n).file m = d.file m :=
  Function.update_of_ne h _ _

@[simp] theorem append_same (d : Disk ν α) (n : ν) (data : List α) :
    (d.append n data).file n = some (d.contentOf n ++ data) := write_same _ _ _

theorem append_of_ne (d : Disk ν α) {n m : ν} (h : m ≠ n) (data : List α) :
    (d.append n data).file m = d.file m := write_of_ne _ h _

theorem append_write (d : Disk ν α) (n : ν) (content data : List α) :
    (d.write n content).append n data = d.write n (content ++ data) := by
  have hcontent : (d.write n content).contentOf n = content :=
    congrArg (Option.getD · []) (write_same d n content)
  rw [append, hcontent]
  exact congrArg Disk.mk (Function.update_idem _ _ _)

theorem rename_self (d : Disk ν α) (n : ν) : d.rename n n = d := if_pos rfl

theorem rename_target {d : Disk ν α} {src : ν} {content : List α} (h : d.file src = some content)
    (dst : ν) : (d.rename src dst).file dst = some content := by
  unfold rename
  by_cases heq : src = dst
  · rw [if_pos heq, ← heq, h]
  · rw [if_neg heq, h]
    dsimp only
    rw [remove_of_ne _ (Ne.symm heq), write_same]

theorem rename_source {d : Disk ν α} {src dst : ν} {content : List α}
    (h : d.file src = some content) (hne : src ≠ dst) : (d.rename src dst).file src = none := by
  rw [rename, if_neg hne, h]
  exact remove_same _ _

theorem rename_of_ne (d : Disk ν α) {src dst n : ν} (hsrc : n ≠ src) (hdst : n ≠ dst) :
    (d.rename src dst).file n = d.file n := by
  unfold rename
  split
  · rfl
  · split
    · rfl
    · rw [remove_of_ne _ hsrc, write_of_ne _ hdst]

theorem rename_of_none {d : Disk ν α} {src : ν} (h : d.file src = none) (dst : ν) :
    d.rename src dst = d := by
  rw [rename, h]
  exact ite_self d

/-! ## Several files -/

def writes (d : Disk ν α) (files : List (ν × List α)) : Disk ν α :=
  files.foldl (fun d file => d.write file.1 file.2) d

def renames (d : Disk ν α) (moves : List (ν × ν)) : Disk ν α :=
  moves.foldl (fun d move => d.rename move.1 move.2) d

theorem renames_append (d : Disk ν α) (moves moves' : List (ν × ν)) :
    d.renames (moves ++ moves') = (d.renames moves).renames moves' := List.foldl_append

theorem writes_of_notMem {d : Disk ν α} {files : List (ν × List α)} {n : ν}
    (h : n ∉ files.map Prod.fst) : (d.writes files).file n = d.file n := by
  induction files generalizing d with
  | nil => rfl
  | cons file files ih =>
      rw [List.map_cons, List.mem_cons, not_or] at h
      exact (ih h.2).trans (write_of_ne d h.1 file.2)

theorem writes_of_mem {d : Disk ν α} {files : List (ν × List α)} {file : ν × List α}
    (hnames : (files.map Prod.fst).Nodup) (h : file ∈ files) :
    (d.writes files).file file.1 = some file.2 := by
  induction files generalizing d with
  | nil => cases h
  | cons first files ih =>
      obtain ⟨hfirst, hnames⟩ := List.nodup_cons.mp hnames
      rcases List.mem_cons.mp h with rfl | h
      · exact (writes_of_notMem hfirst).trans (write_same d file.1 file.2)
      · exact ih hnames h

theorem renames_of_notMem {d : Disk ν α} {moves : List (ν × ν)} {n : ν}
    (h : n ∉ moves.flatMap fun move => [move.1, move.2]) : (d.renames moves).file n = d.file n := by
  induction moves generalizing d with
  | nil => rfl
  | cons move moves ih =>
      rw [List.flatMap_cons, List.mem_append, not_or] at h
      rw [List.mem_cons, List.mem_singleton, not_or] at h
      exact (ih h.2).trans (rename_of_ne d h.1.1 h.1.2)

/-- When no file is named twice, every target ends with what its source began with. -/
theorem renames_target {d : Disk ν α} {moves : List (ν × ν)} {move : ν × ν} {content : List α}
    (hnames : (moves.flatMap fun move => [move.1, move.2]).Nodup) (h : move ∈ moves)
    (hsrc : d.file move.1 = some content) : (d.renames moves).file move.2 = some content := by
  induction moves generalizing d with
  | nil => cases h
  | cons first moves ih =>
      rw [List.flatMap_cons, List.nodup_append] at hnames
      obtain ⟨-, hrest, hapart⟩ := hnames
      rcases List.mem_cons.mp h with rfl | h
      · have hlater : move.2 ∉ moves.flatMap fun move => [move.1, move.2] :=
          fun hmem => hapart move.2 (by simp) move.2 hmem rfl
        exact (renames_of_notMem hlater).trans (rename_target hsrc move.2)
      · have hmem : move.1 ∈ moves.flatMap fun move => [move.1, move.2] :=
          List.mem_flatMap.mpr ⟨move, h, List.mem_cons_self⟩
        refine ih hrest h ((rename_of_ne d ?_ ?_).trans hsrc)
        · exact fun heq => hapart first.1 (by simp) move.1 hmem heq.symm
        · exact fun heq => hapart first.2 (by simp) move.1 hmem heq.symm

/-! ## Changes of other files -/

def Leaves (files : Set ν) (change : Disk ν α → Disk ν α) : Prop :=
  ∀ d, Set.EqOn (change d).file d.file files

theorem eqOn_rename {d d' : Disk ν α} {files : Set ν} {src dst : ν} (hsrc : src ∈ files)
    (h : Set.EqOn d.file d'.file files) :
    Set.EqOn (d.rename src dst).file (d'.rename src dst).file files := by
  intro n hn
  unfold rename
  rw [h hsrc]
  split
  · exact h hn
  · split
    · exact h hn
    · by_cases hremoved : n = src
      · rw [hremoved, remove_same, remove_same]
      · rw [remove_of_ne _ hremoved, remove_of_ne _ hremoved]
        by_cases hwritten : n = dst
        · rw [hwritten, write_same, write_same]
        · rw [write_of_ne _ hwritten, write_of_ne _ hwritten, h hn]

/-- Moves of these files do not look at others. -/
theorem eqOn_renames {d d' : Disk ν α} {files : Set ν} {moves : List (ν × ν)}
    (hmoves : ∀ move ∈ moves, move.1 ∈ files) (h : Set.EqOn d.file d'.file files) :
    Set.EqOn (d.renames moves).file (d'.renames moves).file files := by
  induction moves generalizing d d' with
  | nil => exact h
  | cons move moves ih =>
      obtain ⟨hfirst, hrest⟩ := List.forall_mem_cons.mp hmoves
      exact ih hrest (eqOn_rename hfirst h)

/-! ## What a file holds -/

def Holds (d : Disk ν α) (n : ν) (P : List α → Prop) : Prop :=
  ∃ content, d.file n = some content ∧ P content

theorem Holds.write {d : Disk ν α} {n m : ν} {content : List α} {P : List α → Prop}
    (h : d.Holds m P) (hwritten : m = n → P content) : (d.write n content).Holds m P := by
  by_cases heq : m = n
  · subst heq
    exact ⟨content, write_same _ _ _, hwritten rfl⟩
  · obtain ⟨old, hold, hP⟩ := h
    exact ⟨old, (write_of_ne d heq content).trans hold, hP⟩

/-- A rename that moves a file takes the source away and replaces the target. -/
theorem Holds.rename {d : Disk ν α} {src dst m : ν} {content : List α} {P : List α → Prop}
    (hsrc : d.file src = some content) (h : d.Holds m P) (hm : m ≠ src)
    (hdst : m = dst → P content) : (d.rename src dst).Holds m P := by
  by_cases heq : m = dst
  · subst heq
    exact ⟨content, rename_target hsrc m, hdst rfl⟩
  · obtain ⟨old, hold, hP⟩ := h
    exact ⟨old, (rename_of_ne d hm heq).trans hold, hP⟩

end Disk

end CloudEdgePush.Lib
