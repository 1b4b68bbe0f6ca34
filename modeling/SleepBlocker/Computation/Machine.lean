import Mathlib.Data.List.Basic
import Mathlib.Data.Option.Basic

/-!
# Labelled machines and what holds along their runs

A machine is a partial step function: a label names the party that moves together
with everything it is told by the outside, so a step is a function and every order of
labels is an interleaving. `run` plays a list of labels, `Everywhere P` says that `P`
holds of every state a run visits, and `Along C` says that every step a run takes
meets the condition `C` on the state before it and its label.

The rules are the invariant rule (`everywhere_of_along`, `everywhere_congr`), the rule for
a condition that is exact (`everywhere_iff_along`), the refinement rule for a machine whose
steps emit effects (`run_emitted`), and the rule that a history variable restricts nothing
(`run_monitor`), with which a condition may speak of the history (`monitor_iff_along`).
-/

set_option autoImplicit false

namespace SleepBlocker.Computation

/-- A machine with states `σ` and labels `ι`; a label that is not enabled gives `none`. -/
structure Machine (σ ι : Type) where
  step : σ → ι → Option σ

namespace Machine

variable {σ ι β ε γ : Type} (M : Machine σ ι)

/-- Plays the labels in order, stopping with `none` at the first that is not enabled. -/
def run : σ → List ι → Option σ
  | s, [] => some s
  | s, a :: l => (M.step s a).bind fun t => run t l

/-- `P` holds of every state that the run of these labels visits, both ends included. -/
def Everywhere (P : σ → Prop) : σ → List ι → Prop
  | s, [] => P s
  | s, a :: l => P s ∧ ∀ t, M.step s a = some t → Everywhere P t l

/-- Every step that the run of these labels takes meets the condition `C`. -/
def Along (C : σ → ι → Prop) : σ → List ι → Prop
  | _, [] => True
  | s, a :: l => C s a ∧ ∀ t, M.step s a = some t → Along C t l

variable {M}

/-! ## Runs -/

/-- The empty run stays where it is. -/
@[simp] theorem run_nil (s : σ) : M.run s [] = some s := rfl

/-- A run takes its first step and goes on from there. -/
@[simp] theorem run_cons (s : σ) (a : ι) (l : List ι) :
    M.run s (a :: l) = (M.step s a).bind fun t => M.run t l := rfl

/-- A run of a nonempty list goes through the state after its first step. -/
theorem run_cons_eq_some {s u : σ} {a : ι} {l : List ι} :
    M.run s (a :: l) = some u ↔ ∃ t, M.step s a = some t ∧ M.run t l = some u := by
  simp [Option.bind_eq_some_iff]

/-- A run of an appended list is the run of the second part from where the first ends. -/
theorem run_append (s : σ) (k l : List ι) :
    M.run s (k ++ l) = (M.run s k).bind fun t => M.run t l := by
  induction k generalizing s with
  | nil => rfl
  | cons a k ih =>
      simp only [List.cons_append, run_cons, ih]
      cases M.step s a <;> rfl

/-- What a run plays to its end, it plays to the end of every prefix. -/
theorem run_of_prefix {s u : σ} {k l : List ι} (hr : M.run s l = some u) (hk : k <+: l) :
    ∃ t, M.run s k = some t := by
  obtain ⟨m, rfl⟩ := hk
  rw [run_append, Option.bind_eq_some_iff] at hr
  obtain ⟨t, ht, -⟩ := hr
  exact ⟨t, ht⟩

/-- A run of an appended list goes through the state where the first part ends. -/
theorem run_append_eq_some {s u : σ} {k l : List ι} :
    M.run s (k ++ l) = some u ↔ ∃ t, M.run s k = some t ∧ M.run t l = some u := by
  simp [run_append, Option.bind_eq_some_iff]

/-- What relates the states before and after a step, and composes, relates those before and
after a run. -/
theorem rel_of_run {R : σ → σ → Prop} {C : ι → Prop} (hrefl : ∀ s, R s s)
    (htrans : ∀ s t u, R s t → R t u → R s u)
    (hstep : ∀ s a t, C a → M.step s a = some t → R s t) {s t : σ} {l : List ι}
    (hC : ∀ a ∈ l, C a) (hr : M.run s l = some t) : R s t := by
  induction l generalizing s with
  | nil =>
      simp only [run_nil, Option.some.injEq] at hr
      exact hr ▸ hrefl s
  | cons a l ih =>
      obtain ⟨u, hu, hr⟩ := run_cons_eq_some.mp hr
      obtain ⟨ha, hl⟩ := List.forall_mem_cons.mp hC
      exact htrans s u t (hstep s a u ha hu) (ih hl hr)

/-! ## Every state of a run -/

/-- `Everywhere` unfolded at the first step. -/
theorem everywhere_cons (P : σ → Prop) (s : σ) (a : ι) (l : List ι) :
    M.Everywhere P s (a :: l) ↔ P s ∧ ∀ t, M.step s a = some t → M.Everywhere P t l := Iff.rfl

/-- What holds everywhere holds at the start. -/
theorem Everywhere.start {P : σ → Prop} {s : σ} {l : List ι} (h : M.Everywhere P s l) : P s := by
  cases l with
  | nil => exact h
  | cons a l => exact h.1

/-- `Everywhere` is what it says: the run of every prefix ends in a state with `P`. -/
theorem everywhere_iff_visited {P : σ → Prop} {s : σ} {l : List ι} :
    M.Everywhere P s l ↔ ∀ k t, k <+: l → M.run s k = some t → P t := by
  induction l generalizing s with
  | nil =>
      constructor
      · intro h k t hk ht
        rw [List.prefix_nil] at hk
        subst hk
        simp only [run_nil, Option.some.injEq] at ht
        exact ht ▸ h
      · intro h
        exact h [] s List.prefix_rfl rfl
  | cons a l ih =>
      constructor
      · rintro ⟨hs, hl⟩ k t hk ht
        cases k with
        | nil =>
            simp only [run_nil, Option.some.injEq] at ht
            exact ht ▸ hs
        | cons b k =>
            obtain ⟨rfl, hkl⟩ := List.cons_prefix_cons.mp hk
            obtain ⟨u, hu, ht⟩ := run_cons_eq_some.mp ht
            exact ih.mp (hl u hu) k t hkl ht
      · intro h
        refine ⟨h [] s (List.nil_prefix) rfl, fun t ht => ih.mpr fun k u hk hu => ?_⟩
        exact h (a :: k) u (List.cons_prefix_cons.mpr ⟨rfl, hk⟩)
          (run_cons_eq_some.mpr ⟨t, ht, hu⟩)

/-- What holds everywhere may be weakened. -/
theorem Everywhere.mono {P Q : σ → Prop} (hPQ : ∀ s, P s → Q s) {s : σ} {l : List ι}
    (h : M.Everywhere P s l) : M.Everywhere Q s l := by
  rw [everywhere_iff_visited] at h ⊢
  exact fun k t hk ht => hPQ t (h k t hk ht)

/-- The last state of a run is one of the states it visits. -/
theorem Everywhere.last {P : σ → Prop} {s t : σ} {l : List ι} (h : M.Everywhere P s l)
    (hr : M.run s l = some t) : P t :=
  everywhere_iff_visited.mp h l t List.prefix_rfl hr

/-- What holds along an appended run holds along its first part, and along its second
from where the first ends. -/
theorem everywhere_append {P : σ → Prop} {s t : σ} {k l : List ι} (ht : M.run s k = some t) :
    M.Everywhere P s (k ++ l) ↔ M.Everywhere P s k ∧ M.Everywhere P t l := by
  induction k generalizing s with
  | nil =>
      simp only [run_nil, Option.some.injEq] at ht
      subst ht
      exact ⟨fun h => ⟨h.start, h⟩, fun h => h.2⟩
  | cons a k ih =>
      obtain ⟨u, hu, ht⟩ := run_cons_eq_some.mp ht
      have hsame : ∀ {Q : σ → Prop}, (∀ v, M.step s a = some v → Q v) ↔ Q u := by
        intro Q
        simp [hu]
      rw [List.cons_append, everywhere_cons, everywhere_cons, hsame, hsame, ih ht, and_assoc]

/-- A condition on the labels alone is met along a run when all its labels meet it. -/
theorem along_of_forall {C : ι → Prop} {l : List ι} (h : ∀ a ∈ l, C a) (s : σ) :
    M.Along (fun _ a => C a) s l := by
  induction l generalizing s with
  | nil => trivial
  | cons a l ih =>
      obtain ⟨ha, hl⟩ := List.forall_mem_cons.mp h
      exact ⟨ha, fun t _ => ih hl t⟩

/-- A condition met by the first step and along the rest is met along the run. -/
theorem Along.cons {C : σ → ι → Prop} {s t : σ} {a : ι} {l : List ι} (hs : M.step s a = some t)
    (ha : C s a) (hl : M.Along C t l) : M.Along C s (a :: l) := by
  refine ⟨ha, fun u hu => ?_⟩
  rw [hs, Option.some.injEq] at hu
  exact hu ▸ hl

/-- A run of an appended list meets a condition when both of its parts do. -/
theorem along_append {C : σ → ι → Prop} {s t : σ} {k l : List ι} (ht : M.run s k = some t) :
    M.Along C s (k ++ l) ↔ M.Along C s k ∧ M.Along C t l := by
  induction k generalizing s with
  | nil =>
      simp only [run_nil, Option.some.injEq] at ht
      subst ht
      exact ⟨fun h => ⟨trivial, h⟩, fun h => h.2⟩
  | cons a k ih =>
      obtain ⟨u, hu, ht⟩ := run_cons_eq_some.mp ht
      simp only [List.cons_append, Along, hu, Option.some.injEq, forall_eq', ih ht, and_assoc]

/-- Whether a run meets a decidable condition is decided by playing it. -/
instance Along.decidable (C : σ → ι → Prop) [∀ s a, Decidable (C s a)] (s : σ) (l : List ι) :
    Decidable (M.Along C s l) :=
  match l with
  | [] => .isTrue trivial
  | a :: l =>
    match hs : M.step s a with
    | none => decidable_of_iff (C s a) (by simp [Along, hs])
    | some t =>
      have := Along.decidable C t l
      decidable_of_iff (C s a ∧ M.Along C t l) (by simp [Along, hs])

/-! ## Invariants -/

/-- The invariant rule for runs whose steps meet a condition, at every state visited. -/
theorem everywhere_of_along {I : σ → Prop} {C : σ → ι → Prop}
    (hstep : ∀ s a t, M.step s a = some t → C s a → I s → I t)
    {s : σ} {l : List ι} (hC : M.Along C s l) (hs : I s) : M.Everywhere I s l := by
  induction l generalizing s with
  | nil => exact hs
  | cons a l ih => exact ⟨hs, fun t ht => ih (hC.2 t ht) (hstep s a t ht hC.1 hs)⟩

/-- The invariant rule for every run. -/
theorem everywhere_of_step {I : σ → Prop} (hstep : ∀ s a t, M.step s a = some t → I s → I t)
    {s : σ} (l : List ι) (hs : I s) : M.Everywhere I s l := by
  induction l generalizing s with
  | nil => exact hs
  | cons a l ih => exact ⟨hs, fun t ht => ih (hstep s a t ht hs)⟩

/-- The steps that a run takes meet what an invariant implies of every step. -/
theorem along_of_run {I : σ → Prop} {C : σ → ι → Prop}
    (hI : ∀ s a t, M.step s a = some t → I s → I t)
    (hC : ∀ s a t, M.step s a = some t → I s → C s a)
    {s t : σ} {l : List ι} (hr : M.run s l = some t) (hs : I s) : M.Along C s l := by
  induction l generalizing s with
  | nil => trivial
  | cons a l ih =>
      obtain ⟨u, hu, hr⟩ := run_cons_eq_some.mp hr
      exact .cons hu (hC s a u hu hs) (ih hr (hI s a u hu hs))

/-- Properties that an invariant makes equivalent hold everywhere together. -/
theorem everywhere_congr {I P Q : σ → Prop} (hI : ∀ s a t, M.step s a = some t → I s → I t)
    (hPQ : ∀ s, I s → (P s ↔ Q s)) {s : σ} (l : List ι) (hs : I s) :
    M.Everywhere P s l ↔ M.Everywhere Q s l := by
  induction l generalizing s with
  | nil => exact hPQ s hs
  | cons a l ih =>
      rw [everywhere_cons, everywhere_cons, hPQ s hs]
      apply and_congr_right
      intro _
      apply forall₂_congr
      intro t ht
      exact ih (hI s a t ht hs)

/-- **Exact conditions.** If, from states with the invariant `I` and the property `P`, a
step keeps `P` exactly when it meets `C`, then a run keeps `P` throughout exactly when all
its steps meet `C`. -/
theorem everywhere_iff_along {I P : σ → Prop} {C : σ → ι → Prop}
    (hI : ∀ s a t, M.step s a = some t → I s → I t)
    (hexact : ∀ s a t, M.step s a = some t → I s → P s → (P t ↔ C s a))
    {s t : σ} {l : List ι} (hr : M.run s l = some t) (hs : I s) (hp : P s) :
    M.Everywhere P s l ↔ M.Along C s l := by
  induction l generalizing s with
  | nil => exact ⟨fun _ => trivial, fun _ => hp⟩
  | cons a l ih =>
      obtain ⟨u, hu, hr⟩ := run_cons_eq_some.mp hr
      have hsame : ∀ {Q : σ → Prop}, (∀ v, M.step s a = some v → Q v) ↔ Q u := by
        intro Q
        simp [hu]
      show P s ∧ (∀ v, M.step s a = some v → _) ↔ C s a ∧ (∀ v, M.step s a = some v → _)
      rw [hsame, hsame]
      constructor
      · rintro ⟨-, h⟩
        have hC := (hexact s a u hu hs hp).mp h.start
        exact ⟨hC, (ih hr (hI s a u hu hs) h.start).mp h⟩
      · rintro ⟨hC, h⟩
        have hpu := (hexact s a u hu hs hp).mpr hC
        exact ⟨hp, (ih hr (hI s a u hu hs) hpu).mpr h⟩

/-! ## Emitted effects and refinement -/

/-- The effects a run emits, in order, when a step from `s` with label `a` emits `out s a`. -/
def emitted (M : Machine σ ι) (out : σ → ι → List ε) : σ → List ι → List ε
  | _, [] => []
  | s, a :: l => out s a ++ ((M.step s a).elim [] fun t => emitted M out t l)

/-- The effects of a run are those of its first step and those of the rest. -/
theorem emitted_cons {out : σ → ι → List ε} {s t : σ} {a : ι} {l : List ι}
    (h : M.step s a = some t) : M.emitted out s (a :: l) = out s a ++ M.emitted out t l := by
  simp [emitted, h]

/-- **Refinement.** If the effects of every step with an admitted label play on the abstract
machine `A` from any related state, visiting only states with `P` and ending in a related
one, then so do the effects of every run with admitted labels. -/
theorem run_emitted (A : Machine β ε) (out : σ → ι → List ε) (R : σ → β → Prop) (P : β → Prop)
    (C : ι → Prop)
    (hstep : ∀ s b a t, C a → M.step s a = some t → R s b →
      ∃ c, A.run b (out s a) = some c ∧ A.Everywhere P b (out s a) ∧ R t c)
    {s t : σ} {b : β} {l : List ι} (hC : ∀ a ∈ l, C a) (hr : M.run s l = some t) (hb : R s b)
    (hp : P b) :
    ∃ c, A.run b (M.emitted out s l) = some c ∧ A.Everywhere P b (M.emitted out s l) ∧ R t c := by
  induction l generalizing s b with
  | nil =>
      simp only [run_nil, Option.some.injEq] at hr
      subst hr
      exact ⟨b, rfl, hp, hb⟩
  | cons a l ih =>
      obtain ⟨u, hu, hr⟩ := run_cons_eq_some.mp hr
      obtain ⟨c, hc, hall, hR⟩ := hstep s b a u (hC a List.mem_cons_self) hu hb
      obtain ⟨d, hd, hall', hR'⟩ :=
        ih (fun a ha => hC a (List.mem_cons_of_mem _ ha)) hr hR (hall.last hc)
      rw [emitted_cons hu]
      exact ⟨d, run_append_eq_some.mpr ⟨c, hc, hd⟩, (everywhere_append hc).mpr ⟨hall, hall'⟩, hR'⟩

/-! ## History variables -/

/-- The machine with a history variable, updated from the state before each step and its
label. -/
def monitor (M : Machine σ ι) (upd : γ → σ → ι → γ) : Machine (σ × γ) ι where
  step s a := (M.step s.1 a).map fun t => (t, upd s.2 s.1 a)

/-- A step of a monitored machine is a step of the machine, with the history brought up to date.
-/
theorem monitor_step_eq_some {upd : γ → σ → ι → γ} {s t : σ × γ} {a : ι} :
    (M.monitor upd).step s a = some t ↔ M.step s.1 a = some t.1 ∧ t.2 = upd s.2 s.1 a := by
  simp only [monitor, Option.map_eq_some_iff]
  constructor
  · rintro ⟨u, hu, rfl⟩
    exact ⟨hu, rfl⟩
  · rintro ⟨hu, ht⟩
    exact ⟨t.1, hu, by rw [← ht]⟩

/-- A history variable restricts nothing: the monitored machine runs exactly when the
machine does, to the same state. -/
theorem run_monitor (upd : γ → σ → ι → γ) (s : σ) (g : γ) (l : List ι) :
    ((M.monitor upd).run (s, g) l).map Prod.fst = M.run s l := by
  induction l generalizing s g with
  | nil => rfl
  | cons a l ih =>
      simp only [run_cons, monitor]
      cases M.step s a with
      | none => rfl
      | some t => exact ih t _

/-- Exact conditions on runs of a machine, where invariant, property and condition may speak
of its history. -/
theorem monitor_iff_along {upd : γ → σ → ι → γ} {I P : σ × γ → Prop} {C : σ × γ → ι → Prop}
    (hI : ∀ x a y, (M.monitor upd).step x a = some y → I x → I y)
    (hexact : ∀ x a y, (M.monitor upd).step x a = some y → I x → P x → (P y ↔ C x a))
    {s t : σ} {g : γ} {l : List ι} (hr : M.run s l = some t) (hs : I (s, g)) (hp : P (s, g)) :
    (M.monitor upd).Everywhere P (s, g) l ↔ (M.monitor upd).Along C (s, g) l := by
  have hrun := run_monitor (M := M) upd s g l
  rw [hr, Option.map_eq_some_iff] at hrun
  obtain ⟨x, hx, -⟩ := hrun
  exact everywhere_iff_along hI hexact hx hs hp

end Machine

end SleepBlocker.Computation
