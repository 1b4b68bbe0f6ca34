import Mathlib.Data.Nat.Find
import Mathlib.Logic.Function.Basic

/-!
# Sampling a changing record field by field

A record changes while its fields are sampled one at a time, so that the samples may not be
those of any one record. They are if the changes keep to the order of the sampling: once a
field that has been sampled changes, no field changes that is still to be sampled
(`whole_of_inOrder`). Where no field changes twice they are in no other case
(`whole_iff_inOrder`).
-/

set_option autoImplicit false

namespace SleepBlocker.Computation

/-- The record at each instant, the present instant, and the one at which a field is sampled. -/
structure Sampling (ρ κ : Type) where
  record : ℕ → ρ
  now : ℕ
  sampledAt : κ → ℕ
  sampledAt_le : ∀ k, sampledAt k ≤ now

namespace Sampling

variable {ρ κ α : Type}

/-- The first instant. -/
def start (r : ρ) : Sampling ρ κ := ⟨fun _ => r, 0, fun _ => 0, fun _ => Nat.le_refl 0⟩

/-- A field is sampled now. -/
def sample [DecidableEq κ] (s : Sampling ρ κ) (k : κ) : Sampling ρ κ where
  record := s.record
  now := s.now
  sampledAt := Function.update s.sampledAt k s.now
  sampledAt_le l := by
    by_cases h : l = k
    · rw [h, Function.update_self]
    · rw [Function.update_of_ne h]
      exact s.sampledAt_le l

/-- The next instant, with this record. -/
def change (s : Sampling ρ κ) (r : ρ) : Sampling ρ κ where
  record := Function.update s.record (s.now + 1) r
  now := s.now + 1
  sampledAt := s.sampledAt
  sampledAt_le k := Nat.le_succ_of_le (s.sampledAt_le k)

/-- The records of the instants before are not affected. -/
theorem record_change {s : Sampling ρ κ} {i : ℕ} (h : i ≤ s.now) (r : ρ) :
    (s.change r).record i = s.record i :=
  Function.update_of_ne (Nat.ne_of_lt (Nat.lt_succ_of_le h)) ..

section

variable (s : Sampling ρ κ) (value : ρ → κ → α)

/-- What a field was when it was sampled. -/
def result (k : κ) : α := value (s.record (s.sampledAt k)) k

/-- The samples are the fields of the record at some instant. -/
def Whole : Prop := ∃ i ≤ s.now, ∀ k, value (s.record i) k = s.result value k

/-- The field changes between this instant and the next. -/
def Changes (k : κ) (i : ℕ) : Prop :=
  i < s.now ∧ value (s.record i) k ≠ value (s.record (i + 1)) k

/-- Once a field that has been sampled changes, or in the same step, no field changes that is
still to be sampled. -/
def InOrder : Prop :=
  ∀ i j k l, i ≤ j → s.Changes value k i → s.sampledAt k ≤ i → s.Changes value l j →
    s.sampledAt l ≤ j

/-- No field changes twice. -/
def ChangesOnce : Prop := ∀ k i j, s.Changes value k i → s.Changes value k j → i = j

end

variable {s : Sampling ρ κ} {value : ρ → κ → α}

/-- A field that does not change keeps its value. -/
theorem value_eq_of_still {k : κ} {i j : ℕ} (hij : i ≤ j) (hj : j ≤ s.now)
    (h : ∀ m, i ≤ m → m < j → ¬ s.Changes value k m) :
    value (s.record i) k = value (s.record j) k := by
  induction j, hij using Nat.le_induction with
  | base => rfl
  | succ j hij ih =>
      have hlast : value (s.record j) k = value (s.record (j + 1)) k := by
        by_contra hne
        exact h j hij (Nat.lt_succ_self j) ⟨hj, hne⟩
      rw [ih (Nat.le_of_succ_le hj) fun m him hmj => h m him (Nat.lt_succ_of_lt hmj), hlast]

/-- **Samples in order are whole.** They are the record just before the first change of a field
that had been sampled, or the present one. -/
theorem whole_of_inOrder (h : s.InOrder value) : s.Whole value := by
  classical
  by_cases hlate : ∃ i, ∃ k, s.Changes value k i ∧ s.sampledAt k ≤ i
  · obtain ⟨k, hk, hki⟩ := Nat.find_spec hlate
    refine ⟨Nat.find hlate, Nat.le_of_lt hk.1, fun l => ?_⟩
    rcases Nat.le_total (s.sampledAt l) (Nat.find hlate) with hl | hl
    · -- a sampled field has not changed yet
      refine (value_eq_of_still hl (Nat.le_of_lt hk.1) fun m hlm hm hchanges => ?_).symm
      exact Nat.find_min hlate hm ⟨l, hchanges, hlm⟩
    · -- and the others do not change any more until they are sampled
      refine value_eq_of_still hl (s.sampledAt_le l) fun m hm hml hchanges => ?_
      exact Nat.not_lt.mpr (h _ m k l hm hk hki hchanges) hml
  · refine ⟨s.now, Nat.le_refl _, fun l => ?_⟩
    refine (value_eq_of_still (s.sampledAt_le l) (Nat.le_refl _) fun m hlm _ hchanges => ?_).symm
    exact hlate ⟨m, l, hchanges, hlm⟩

/-- A field that changes once, after it has been sampled, is not its sample afterwards. -/
theorem value_ne_of_late (honce : s.ChangesOnce value) {k : κ} {i m : ℕ}
    (hk : s.Changes value k i) (hki : s.sampledAt k ≤ i) (him : i < m) (hm : m ≤ s.now) :
    value (s.record m) k ≠ s.result value k := by
  have hbefore : s.result value k = value (s.record i) k :=
    value_eq_of_still hki (Nat.le_of_lt hk.1) fun n _ hn hchanges =>
      Nat.ne_of_lt hn (honce k n i hchanges hk)
  have hafter : value (s.record (i + 1)) k = value (s.record m) k :=
    value_eq_of_still him hm fun n hn _ hchanges =>
      Nat.ne_of_lt hn (honce k i n hk hchanges)
  rw [hbefore, ← hafter]
  exact fun heq => hk.2 heq.symm

/-- A field that changes once, before it is sampled, is not its sample until then. -/
theorem value_ne_of_early (honce : s.ChangesOnce value) {l : κ} {j m : ℕ}
    (hl : s.Changes value l j) (hjl : j < s.sampledAt l) (hmj : m ≤ j) :
    value (s.record m) l ≠ s.result value l := by
  have hbefore : value (s.record m) l = value (s.record j) l :=
    value_eq_of_still hmj (Nat.le_of_lt hl.1) fun n _ hn hchanges =>
      Nat.ne_of_lt hn (honce l n j hchanges hl)
  have hafter : value (s.record (j + 1)) l = s.result value l :=
    value_eq_of_still hjl (s.sampledAt_le l) fun n hn _ hchanges =>
      Nat.ne_of_lt hn (honce l j n hl hchanges)
  rw [hbefore, ← hafter]
  exact hl.2

/-- **Whole samples are in order**, where no field changes twice. -/
theorem whole_iff_inOrder (honce : s.ChangesOnce value) : s.Whole value ↔ s.InOrder value := by
  refine ⟨?_, whole_of_inOrder⟩
  rintro ⟨m, hm, hwhole⟩ i j k l hij hk hki hl
  by_contra hjl
  rcases Nat.lt_or_ge i m with him | hmi
  · exact value_ne_of_late honce hk hki him hm (hwhole k)
  · exact value_ne_of_early honce hl (Nat.not_le.mp hjl) (Nat.le_trans hmi hij) (hwhole l)

end Sampling

end SleepBlocker.Computation
