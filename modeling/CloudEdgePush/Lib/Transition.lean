import Mathlib.Logic.Basic
import Mathlib.Tactic.Common

/-!
# Runs of a partial step function

A machine is a step function `σ → ε → Option σ`: it takes an event in a state, or
refuses it.  `run` feeds a list of events, `AllSteps P` says that every step of a run
is taken in a state and on an event that satisfy `P`.

* `run_invariant`    — what every step preserves holds at the end of every run;
* `run_guarded`      — the same when only the steps that satisfy a guard preserve it;
* `run_of_prefixes`  — the same when all states on the way satisfy a condition;
* `prefixes_iff_of_guarded`, `prefixes_iff_allSteps` — the same for all states on the way;
* `run_iff_allSteps` — when a step keeps a property exactly if it meets the guard, a
  run keeps the property exactly if all of its steps meet the guard.
-/

namespace CloudEdgePush.Lib.Transition

variable {σ ε : Type*}

/-- Feed a list of events, in order; `none` when one of them is refused. -/
def run (step : σ → ε → Option σ) : σ → List ε → Option σ
  | s, [] => some s
  | s, e :: es => (step s e).bind fun s' => run step s' es

/-- Every step that the run of the events takes from `s` satisfies `P`. -/
def AllSteps (step : σ → ε → Option σ) (P : σ → ε → Prop) : σ → List ε → Prop
  | _, [] => True
  | s, e :: es => P s e ∧ ∀ s', step s e = some s' → AllSteps step P s' es

instance decidableAllSteps (step : σ → ε → Option σ) (P : σ → ε → Prop)
    [∀ s e, Decidable (P s e)] : ∀ s es, Decidable (AllSteps step P s es)
  | _, [] => isTrue trivial
  | s, e :: es =>
      have : Decidable (∀ s', step s e = some s' → AllSteps step P s' es) :=
        match _h : step s e with
        | none => isTrue nofun
        | some s' =>
            have := decidableAllSteps step P s' es
            decidable_of_iff (AllSteps step P s' es) ⟨fun hall _ heq => Option.some.inj heq ▸ hall,
              fun hall => hall s' rfl⟩
      inferInstanceAs (Decidable (P s e ∧ ∀ s', step s e = some s' → AllSteps step P s' es))

@[simp] theorem run_nil (step : σ → ε → Option σ) (s : σ) : run step s [] = some s := rfl

theorem run_cons (step : σ → ε → Option σ) (s : σ) (e : ε) (es : List ε) :
    run step s (e :: es) = (step s e).bind fun s' => run step s' es := rfl

theorem run_cons_eq_some {step : σ → ε → Option σ} {s t : σ} {e : ε} {es : List ε} :
    run step s (e :: es) = some t ↔ ∃ s', step s e = some s' ∧ run step s' es = some t := by
  rw [run_cons, Option.bind_eq_some_iff]

theorem run_append (step : σ → ε → Option σ) (s : σ) (es fs : List ε) :
    run step s (es ++ fs) = (run step s es).bind fun m => run step m fs := by
  induction es generalizing s with
  | nil => rfl
  | cons e es ih => simp only [List.cons_append, run_cons, ih, Option.bind_assoc]

theorem run_concat {step : σ → ε → Option σ} {s t : σ} {es : List ε} (hrun : run step s es = some t)
    (e : ε) : run step s (es ++ [e]) = step t e := by
  induction es generalizing s with
  | nil =>
      obtain rfl : s = t := by simpa using hrun
      exact Option.bind_fun_some _
  | cons f es ih =>
      obtain ⟨s', hs', hrest⟩ := run_cons_eq_some.mp hrun
      rw [List.cons_append, run_cons, hs', Option.bind_some, ih hrest]

theorem run_concat_eq_some {step : σ → ε → Option σ} {s t : σ} {es : List ε} {e : ε} :
    run step s (es ++ [e]) = some t ↔ ∃ m, run step s es = some m ∧ step m e = some t := by
  constructor
  · intro h
    induction es generalizing s with
    | nil => exact ⟨s, rfl, by simpa [run_cons] using h⟩
    | cons f es ih =>
        obtain ⟨s', hs', hrest⟩ := run_cons_eq_some.mp h
        obtain ⟨m, hm, hlast⟩ := ih hrest
        exact ⟨m, run_cons_eq_some.mpr ⟨s', hs', hm⟩, hlast⟩
  · rintro ⟨m, hm, hlast⟩
    rw [run_concat hm, hlast]

@[simp] theorem allSteps_nil (step : σ → ε → Option σ) (P : σ → ε → Prop) (s : σ) :
    AllSteps step P s [] := trivial

theorem allSteps_cons {step : σ → ε → Option σ} {P : σ → ε → Prop} {s s' : σ} {e : ε}
    {es : List ε} (hstep : step s e = some s') :
    AllSteps step P s (e :: es) ↔ P s e ∧ AllSteps step P s' es := by
  simp [AllSteps, hstep]

theorem allSteps_of_forall_mem {step : σ → ε → Option σ} {P : ε → Prop} {es : List ε}
    (h : ∀ e ∈ es, P e) (s : σ) : AllSteps step (fun _ e => P e) s es := by
  induction es generalizing s with
  | nil => trivial
  | cons e es ih =>
      obtain ⟨he, hes⟩ := List.forall_mem_cons.mp h
      exact ⟨he, fun s' _ => ih hes s'⟩

theorem allSteps_true {step : σ → ε → Option σ} (s : σ) (es : List ε) :
    AllSteps step (fun _ _ => True) s es := allSteps_of_forall_mem (fun _ _ => trivial) s

theorem AllSteps.and {step : σ → ε → Option σ} {P Q : σ → ε → Prop} {s : σ} {es : List ε}
    (hP : AllSteps step P s es) (hQ : AllSteps step Q s es) :
    AllSteps step (fun s e => P s e ∧ Q s e) s es := by
  induction es generalizing s with
  | nil => trivial
  | cons e es ih => exact ⟨⟨hP.1, hQ.1⟩, fun s' hs' => ih (hP.2 s' hs') (hQ.2 s' hs')⟩

theorem AllSteps.of_initial {step : σ → ε → Option σ} {P : σ → ε → Prop} {s : σ} {es fs : List ε}
    (hP : AllSteps step P s es) (hfs : fs <+: es) : AllSteps step P s fs := by
  induction fs generalizing s es with
  | nil => trivial
  | cons f fs ih =>
      obtain ⟨rest, rfl⟩ := hfs
      exact ⟨hP.1, fun s' hs' => ih (hP.2 s' hs') (List.prefix_append fs rest)⟩

/-- A condition on the state of every step, and on the last state. -/
theorem prefixes_of_allSteps {step : σ → ε → Option σ} {Q : σ → Prop} {s t : σ} {es : List ε}
    (hall : AllSteps step (fun s _ => Q s) s es) (hrun : run step s es = some t) (ht : Q t)
    {fs : List ε} {m : σ} (hfs : fs <+: es) (hm : run step s fs = some m) : Q m := by
  induction es generalizing s fs with
  | nil =>
      obtain rfl := List.prefix_nil.mp hfs
      obtain rfl := Option.some.inj (hm.symm.trans hrun)
      exact ht
  | cons e es ih =>
      obtain ⟨s', hs', hrest⟩ := run_cons_eq_some.mp hrun
      cases fs with
      | nil =>
          obtain rfl := Option.some.inj hm
          exact hall.1
      | cons f fs =>
          obtain ⟨rfl, htake⟩ := List.cons_prefix_cons.mp hfs
          obtain ⟨s'', hs'', hm⟩ := run_cons_eq_some.mp hm
          obtain rfl := Option.some.inj (hs'.symm.trans hs'')
          exact ih (hall.2 s' hs') hrest htake hm

/-! ## Invariant rules -/

theorem allSteps_congr_of_invariant {step : σ → ε → Option σ} {I : σ → Prop} {P Q : σ → ε → Prop}
    (hstep : ∀ s e s', I s → step s e = some s' → I s')
    (h : ∀ s e, I s → (P s e ↔ Q s e)) {s : σ} (hinit : I s) (es : List ε) :
    AllSteps step P s es ↔ AllSteps step Q s es := by
  induction es generalizing s with
  | nil => exact Iff.rfl
  | cons e es ih =>
      refine and_congr (h s e hinit) (forall_congr' fun s' => ?_)
      refine forall_congr' fun hs' => ?_
      exact ih (hstep s e s' hinit hs')

/-- An invariant that is kept as long as all states of the run satisfy `Q`. -/
theorem run_of_prefixes {step : σ → ε → Option σ} {I Q : σ → Prop} {P : σ → ε → Prop}
    (hstep : ∀ s e s', I s → Q s → Q s' → P s e → step s e = some s' → I s') {s t : σ} {es : List ε}
    (hinit : I s) (hQ : ∀ fs m, fs <+: es → run step s fs = some m → Q m)
    (hguard : AllSteps step P s es) (hrun : run step s es = some t) : I t := by
  induction es generalizing s with
  | nil =>
      obtain rfl : s = t := by simpa using hrun
      exact hinit
  | cons e es ih =>
      obtain ⟨s', hs', hrest⟩ := run_cons_eq_some.mp hrun
      obtain ⟨hP, hguard'⟩ := (allSteps_cons hs').mp hguard
      have htail (fs : List ε) (m : σ) (hfs : fs <+: es) (hm : run step s' fs = some m) : Q m :=
        hQ (e :: fs) m ((List.prefix_cons_inj e).mpr hfs) (run_cons_eq_some.mpr ⟨s', hs', hm⟩)
      have hs : Q s := hQ [] s List.nil_prefix rfl
      have hs'' : Q s' := htail [] s' List.nil_prefix rfl
      exact ih (hstep s e s' hinit hs hs'' hP hs') htail hguard' hrest

theorem run_guarded {step : σ → ε → Option σ} {I : σ → Prop} {P : σ → ε → Prop}
    (hstep : ∀ s e s', I s → P s e → step s e = some s' → I s') {s t : σ} {es : List ε}
    (hinit : I s) (hguard : AllSteps step P s es) (hrun : run step s es = some t) : I t := by
  apply run_of_prefixes (Q := fun _ => True) (fun s e s' hs _ _ hP => hstep s e s' hs hP) hinit
  · intro fs m hfs hm
    trivial
  · exact hguard
  · exact hrun

theorem run_invariant {step : σ → ε → Option σ} {I : σ → Prop}
    (hstep : ∀ s e s', I s → step s e = some s' → I s') {s t : σ} {es : List ε}
    (hinit : I s) (hrun : run step s es = some t) : I t := by
  exact run_guarded (fun s e s' hs _ => hstep s e s' hs) hinit (allSteps_true s es) hrun

/-- Under an invariant that guarded steps keep, the guard of every step gives more. -/
theorem allSteps_of_guarded {step : σ → ε → Option σ} {I : σ → Prop} {G P : σ → ε → Prop}
    (hstep : ∀ s e s', I s → G s e → step s e = some s' → I s')
    (hP : ∀ s e, I s → G s e → P s e) {s : σ} {es : List ε} (hinit : I s)
    (hguard : AllSteps step G s es) : AllSteps step P s es := by
  induction es generalizing s with
  | nil => trivial
  | cons e es ih =>
      refine ⟨hP s e hinit hguard.1, ?_⟩
      intro s' hs'
      exact ih (hstep s e s' hinit hguard.1 hs') (hguard.2 s' hs')

/-- On the steps of a run, two conditions may differ where the machine refuses the event. -/
theorem allSteps_congr_of_run {step : σ → ε → Option σ} {P Q : σ → ε → Prop}
    (h : ∀ s e s', step s e = some s' → (P s e ↔ Q s e)) {s t : σ} {es : List ε}
    (hrun : run step s es = some t) : AllSteps step P s es ↔ AllSteps step Q s es := by
  induction es generalizing s with
  | nil => exact Iff.rfl
  | cons e es ih =>
      obtain ⟨s', hs', hrest⟩ := run_cons_eq_some.mp hrun
      rw [allSteps_cons hs', allSteps_cons hs', h s e s' hs', ih hrest]

/-- The exact-guard rule: under the invariant `I`, a step keeps `Q` exactly when it meets
`P`; so a run keeps `Q` exactly when all of its steps meet `P`. -/
theorem run_iff_allSteps {step : σ → ε → Option σ} {I Q : σ → Prop} {P : σ → ε → Prop}
    (hI : ∀ s e s', I s → step s e = some s' → I s')
    (hQ : ∀ s e s', I s → step s e = some s' → (Q s' ↔ Q s ∧ P s e))
    {s t : σ} {es : List ε} (hinit : I s) (hrun : run step s es = some t) :
    Q t ↔ Q s ∧ AllSteps step P s es := by
  induction es generalizing s with
  | nil =>
      obtain rfl : s = t := by simpa using hrun
      simp
  | cons e es ih =>
      obtain ⟨s', hs', hrest⟩ := run_cons_eq_some.mp hrun
      rw [ih (hI s e s' hinit hs') hrest, hQ s e s' hinit hs', allSteps_cons hs', and_assoc]

/-- The same for a property `Q` of all states that the run passes.  `J` is an invariant that
steps with `P` keep and that implies `Q`; a step without `P` loses `Q`. -/
theorem prefixes_iff_of_guarded {step : σ → ε → Option σ} {J Q : σ → Prop} {P : σ → ε → Prop}
    (hkeep : ∀ s e s', J s → P s e → step s e = some s' → J s') (hQ : ∀ s, J s → Q s)
    (hlose : ∀ s e s', J s → step s e = some s' → Q s' → P s e) {s t : σ} {es : List ε}
    (hinit : J s) (hrun : run step s es = some t) :
    (∀ fs m, fs <+: es → run step s fs = some m → Q m) ↔ AllSteps step P s es := by
  induction es generalizing s with
  | nil =>
      simp only [List.prefix_nil, allSteps_nil, iff_true]
      rintro fs m rfl hm
      obtain rfl : s = m := by simpa using hm
      exact hQ s hinit
  | cons e es ih =>
      obtain ⟨s', hs', hrest⟩ := run_cons_eq_some.mp hrun
      rw [allSteps_cons hs']
      constructor
      · intro h
        have htail (fs : List ε) (m : σ) (hfs : fs <+: es) (hm : run step s' fs = some m) : Q m :=
          h (e :: fs) m ((List.prefix_cons_inj e).mpr hfs) (run_cons_eq_some.mpr ⟨s', hs', hm⟩)
        have hP : P s e := hlose s e s' hinit hs' (htail [] s' List.nil_prefix rfl)
        exact ⟨hP, (ih (hkeep s e s' hinit hP hs') hrest).mp htail⟩
      · rintro ⟨hP, htail⟩ fs m hfs hm
        cases fs with
        | nil =>
            obtain rfl : s = m := by simpa using hm
            exact hQ s hinit
        | cons f fs =>
            obtain ⟨rfl, htake⟩ := List.cons_prefix_cons.mp hfs
            obtain ⟨s'', hs'', hm⟩ := run_cons_eq_some.mp hm
            obtain rfl : s' = s'' := Option.some.inj (hs'.symm.trans hs'')
            exact (ih (hkeep s f s' hinit hP hs') hrest).mpr htail fs m htake hm

/-- When exactly the steps with `P` keep the property, it need not hold at the start. -/
theorem prefixes_iff_allSteps {step : σ → ε → Option σ} {I : σ → Prop} {P : σ → ε → Prop}
    (hstep : ∀ s e s', I s → step s e = some s' → (I s' ↔ P s e)) {s t : σ} {es : List ε}
    (hrun : run step s es = some t) :
    (∀ fs m, fs <+: es → run step s fs = some m → I m) ↔ I s ∧ AllSteps step P s es := by
  have hiff (hs : I s) := prefixes_iff_of_guarded (fun s e s' hs hP hs' => (hstep s e s' hs hs').mpr hP)
    (fun s hs => hs) (fun s e s' hs hs' hI => (hstep s e s' hs hs').mp hI) hs hrun
  constructor
  · intro h
    have hs : I s := h [] s List.nil_prefix rfl
    exact ⟨hs, (hiff hs).mp h⟩
  · rintro ⟨hs, hall⟩
    exact (hiff hs).mpr hall

end CloudEdgePush.Lib.Transition
