import Mathlib.Data.List.Perm.Basic
import SleepBlocker.Computation.Machine

/-!
# Orders of overlapping operations

The operations of a history each begin at some point and are decided at a later one; both
are counted in operations decided before. A serialization puts the operations in an order
that never places one before another that was decided before the first began (`InTime`),
and plays that order on a machine in which each operation is one step (`Plays`).

The rules build an order along a run of the history: a new operation goes last
(`inTime_concat`), or before operations that were all decided since it began
(`inTime_insert`), and part of a play may be replaced by another that plays the same
(`Plays.replace`).
-/

set_option autoImplicit false

namespace SleepBlocker.Computation

namespace Machine

variable {σ ι ε : Type} {M : Machine σ ι}

/-! ## Plays -/

section Plays

variable {out : σ → ι → List ε} {C : σ → ι → Prop}

/-- `l` plays from `s` to `t`, emitting `es`, and every step meets `C`. -/
structure Plays (M : Machine σ ι) (out : σ → ι → List ε) (C : σ → ι → Prop) (s : σ) (l : List ι)
    (es : List ε) (t : σ) : Prop where
  run : M.run s l = some t
  emits : M.emitted out s l = es
  meets : M.Along C s l

/-- Playing nothing emits nothing and stays where it is. -/
theorem plays_nil {s t : σ} {es : List ε} : M.Plays out C s [] es t ↔ es = [] ∧ s = t := by
  constructor
  · rintro ⟨hr, he, -⟩
    exact ⟨he.symm, Option.some.inj hr⟩
  · rintro ⟨rfl, rfl⟩
    exact ⟨rfl, rfl, trivial⟩

/-- Playing an order plays its first action and then the rest. -/
theorem plays_cons {s u : σ} {a : ι} {l : List ι} {es : List ε} :
    M.Plays out C s (a :: l) es u ↔ ∃ t fs, M.step s a = some t ∧ C s a ∧
      M.Plays out C t l fs u ∧ es = out s a ++ fs := by
  constructor
  · rintro ⟨hr, he, hC⟩
    obtain ⟨t, ht, hr⟩ := run_cons_eq_some.mp hr
    rw [emitted_cons ht] at he
    exact ⟨t, _, ht, hC.1, ⟨hr, rfl, hC.2 t ht⟩, he.symm⟩
  · rintro ⟨t, fs, ht, ha, ⟨hr, rfl, hC⟩, rfl⟩
    refine ⟨run_cons_eq_some.mpr ⟨t, ht, hr⟩, emitted_cons ht, ha, fun v hv => ?_⟩
    rw [ht] at hv
    exact Option.some.inj hv ▸ hC

/-- A play of an appended list is a play of its first part and one of its second from where
the first ends. -/
theorem plays_append {s u : σ} {k l : List ι} {es : List ε} :
    M.Plays out C s (k ++ l) es u ↔ ∃ t fs gs, M.Plays out C s k fs t ∧
      M.Plays out C t l gs u ∧ es = fs ++ gs := by
  induction k generalizing s es with
  | nil =>
      constructor
      · intro h
        exact ⟨s, [], es, plays_nil.mpr ⟨rfl, rfl⟩, h, rfl⟩
      · rintro ⟨t, fs, gs, hk, hl, rfl⟩
        obtain ⟨rfl, rfl⟩ := plays_nil.mp hk
        exact hl
  | cons a k ih =>
      rw [List.cons_append, plays_cons]
      constructor
      · rintro ⟨t, fs, ht, ha, hkl, rfl⟩
        obtain ⟨v, gs, hs, hk, hl, rfl⟩ := ih.mp hkl
        refine ⟨v, out s a ++ gs, hs, ?_, hl, by rw [List.append_assoc]⟩
        exact plays_cons.mpr ⟨t, gs, ht, ha, hk, rfl⟩
      · rintro ⟨v, fs, gs, hak, hl, rfl⟩
        obtain ⟨t, hs, ht, ha, hk, rfl⟩ := plays_cons.mp hak
        exact ⟨t, hs ++ gs, ht, ha, ih.mpr ⟨v, hs, gs, hk, hl, rfl⟩, by rw [List.append_assoc]⟩

/-- A play may be continued by one step. -/
theorem Plays.concat {s t u : σ} {l : List ι} {a : ι} {es : List ε} (h : M.Plays out C s l es t)
    (hstep : M.step t a = some u) (ha : C t a) :
    M.Plays out C s (l ++ [a]) (es ++ out t a) u := by
  refine plays_append.mpr ⟨t, es, out t a, h, ?_, rfl⟩
  exact plays_cons.mpr ⟨u, [], hstep, ha, plays_nil.mpr ⟨rfl, rfl⟩, by rw [List.append_nil]⟩

/-- A part of a play may be replaced by another that plays the same from where it starts. -/
theorem Plays.replace {s u : σ} {pre post : List ι} (mid mid' : List ι) {es : List ε}
    (h : M.Plays out C s (pre ++ (mid ++ post)) es u)
    (hmid : ∀ fs gs t v, M.Plays out C s pre fs t → M.Plays out C t mid gs v →
      M.Plays out C t mid' gs v) :
    M.Plays out C s (pre ++ (mid' ++ post)) es u := by
  obtain ⟨t, fs, gs, hpre, hrest, rfl⟩ := plays_append.mp h
  obtain ⟨v, gs, hs, hm, hpost, rfl⟩ := plays_append.mp hrest
  refine plays_append.mpr ⟨t, fs, gs ++ hs, hpre, ?_, rfl⟩
  exact plays_append.mpr ⟨v, gs, hs, hmid fs gs t v hpre hm, hpost, rfl⟩

end Plays

end Machine

/-! ## Orders in time -/

/-- When an operation began and when it was decided, in operations decided before. -/
structure Interval where
  begun : ℕ
  decided : ℕ
  deriving DecidableEq, Repr

section InTime

variable {α : Type} {time : α → Interval}

/-- No operation stands before one that was decided before it began. -/
def InTime (time : α → Interval) (order : List α) : Prop :=
  order.Pairwise fun e f => ¬ (time f).decided < (time e).begun

/-- An order stays in time when an action is appended before which all the others have begun. -/
theorem inTime_concat {order : List α} {e : α} (h : InTime time order)
    (he : ∀ f ∈ order, (time f).begun ≤ (time e).decided) : InTime time (order ++ [e]) := by
  refine List.pairwise_append.mpr ⟨h, List.pairwise_singleton _ e, fun f hf x hx => ?_⟩
  rw [List.mem_singleton] at hx
  subst hx
  have := he f hf
  omega

/-- An operation may stand before operations that were all decided after it began. -/
theorem inTime_insert {pre post : List α} {e : α} (h : InTime time (pre ++ post))
    (hpre : ∀ f ∈ pre, (time f).begun ≤ (time e).decided)
    (hpost : ∀ f ∈ post, (time e).begun ≤ (time f).decided) :
    InTime time (pre ++ (e :: post)) := by
  obtain ⟨hpairs, hposts, hcross⟩ := List.pairwise_append.mp h
  refine List.pairwise_append.mpr ⟨hpairs, List.pairwise_cons.mpr ⟨?_, hposts⟩, ?_⟩
  · intro f hf
    have := hpost f hf
    omega
  · intro f hf x hx
    rcases List.mem_cons.mp hx with rfl | hx
    · have := hpre f hf
      omega
    · exact hcross f hf x hx

end InTime

end SleepBlocker.Computation
