import Mathlib.Data.List.Basic

/-!
# Backtracking patterns

A pattern reads a text from a cursor. It has its ways of reading in an order of preference,
and `run` tries them in that order, each time going on with the continuation, which is the
rest of the pattern, until one of them succeeds. `Reads` says what the ways are and leaves
the order out: `run_sound` and `run_eq_none_iff` relate the two. Where the order matters,
`runGreedy_eq_some` and `runLazily_eq_some` say which way is taken. `search` is a pattern tried
from one position after the other.
-/

set_option autoImplicit false

namespace SleepBlocker.Computation

/-- A place in a text: what has been read, latest first, what is to come, and the groups
captured on the way, latest first. -/
structure Cursor (α γ : Type) where
  before : List α := []
  after : List α
  groups : List (γ × List α) := []
  deriving DecidableEq, Repr

namespace Cursor

variable {α γ : Type}

/-- The cursor after `word` has been read and `rest` is to come. -/
def skip (c : Cursor α γ) (word rest : List α) : Cursor α γ :=
  { c with before := word.reverse ++ c.before, after := rest }

/-- What has been read from `c` on is captured. -/
def capture (m : Cursor α γ) (name : γ) (c : Cursor α γ) : Cursor α γ :=
  { m with
    groups := (name, (m.before.take (m.before.length - c.before.length)).reverse) :: m.groups }

/-- The text of the group that was captured last under this name. -/
def group [BEq γ] (m : Cursor α γ) (name : γ) : Option (List α) := m.groups.lookup name

/-- The place is between a word character and another, or the edge of the text. -/
def atBoundary (isWord : α → Bool) (c : Cursor α γ) : Bool :=
  c.before.head?.any isWord != c.after.head?.any isWord

/-- Skipping nothing leaves the cursor. -/
@[simp] theorem skip_nil (c : Cursor α γ) : c.skip [] c.after = c := rfl

/-- Two skips in a row are one. -/
theorem skip_skip (c : Cursor α γ) (v w rest rest' : List α) :
    (c.skip v rest).skip w rest' = c.skip (v ++ w) rest' := by
  simp [skip]

/-- A group captures the word that was read under it. -/
theorem capture_skip (c : Cursor α γ) (name : γ) (word rest : List α) :
    (c.skip word rest).capture name c =
      { c.skip word rest with groups := (name, word) :: c.groups } := by
  simp [capture, skip]

end Cursor

/-- Patterns over characters `α` with groups named by `γ`. -/
inductive Pattern (α γ : Type) where
  /-- One character of a class. -/
  | one (k : α → Bool)
  /-- `\b`. -/
  | boundary (isWord : α → Bool)
  | seq (p q : Pattern α γ)
  /-- `k*`, as many characters as possible first. -/
  | greedy (k : α → Bool)
  /-- `k*?`, as few characters as possible first. -/
  | lazily (k : α → Bool)
  | group (name : γ) (p : Pattern α γ)

namespace Pattern

variable {α γ β : Type}

/-- The characters of a word, one after the other, and then `p`. -/
def literal [DecidableEq α] (word : List α) (p : Pattern α γ) : Pattern α γ :=
  word.foldr (fun x q => .seq (.one (· = x)) q) p

/-- A greedy repetition: as many characters as possible first, and fewer when the rest fails. -/
def runGreedy (k : α → Bool) (next : Cursor α γ → Option β) (before : List α)
    (groups : List (γ × List α)) : List α → Option β
  | [] => next ⟨before, [], groups⟩
  | x :: rest =>
    (if k x then runGreedy k next (x :: before) groups rest else none).or
      (next ⟨before, x :: rest, groups⟩)

/-- A lazy repetition: as few characters as possible first, and more when the rest fails. -/
def runLazily (k : α → Bool) (next : Cursor α γ → Option β) (before : List α)
    (groups : List (γ × List α)) : List α → Option β
  | [] => next ⟨before, [], groups⟩
  | x :: rest =>
    (next ⟨before, x :: rest, groups⟩).or
      (if k x then runLazily k next (x :: before) groups rest else none)

/-- Reads from a cursor in the first way that the continuation accepts. -/
def run : Pattern α γ → (Cursor α γ → Option β) → Cursor α γ → Option β
  | .one k, next, c =>
    match c.after with
    | [] => none
    | x :: rest => if k x then next (c.skip [x] rest) else none
  | .boundary isWord, next, c => if c.atBoundary isWord then next c else none
  | .seq p q, next, c => p.run (q.run next) c
  | .greedy k, next, c => runGreedy k next c.before c.groups c.after
  | .lazily k, next, c => runLazily k next c.before c.groups c.after
  | .group name p, next, c => p.run (fun m => next (m.capture name c)) c

/-- The first position at which the pattern matches: the cursor there, and the one after the
match. -/
def search (p : Pattern α γ) (text : List α) : Option (Cursor α γ × Cursor α γ) :=
  run (.lazily fun _ => true) (fun s => (p.run some s).map fun m => (s, m)) ⟨[], text, []⟩

/-- The pattern can read from `c` to `m`. -/
def Reads : Pattern α γ → Cursor α γ → Cursor α γ → Prop
  | .one k, c, m => ∃ x rest, c.after = x :: rest ∧ k x = true ∧ m = c.skip [x] rest
  | .boundary isWord, c, m => c.atBoundary isWord = true ∧ m = c
  | .seq p q, c, m => ∃ d, p.Reads c d ∧ q.Reads d m
  | .greedy k, c, m | .lazily k, c, m => ∃ word rest,
    c.after = word ++ rest ∧ (∀ x ∈ word, k x = true) ∧ m = c.skip word rest
  | .group name p, c, m => ∃ d, p.Reads c d ∧ m = d.capture name c

/-! ## What is read -/

section Runs

variable {next : Cursor α γ → Option β} {k : α → Bool} {groups : List (γ × List α)}

/-- The ways to split a text after a word of the class: nothing is read, or the first
character and then a word of the rest. -/
theorem forall_split_cons {x : α} {after : List α} {P : List α → List α → Prop} :
    (∀ word rest, x :: after = word ++ rest → (∀ y ∈ word, k y = true) → P word rest) ↔
      P [] (x :: after) ∧ (k x = true → ∀ word rest, after = word ++ rest →
        (∀ y ∈ word, k y = true) → P (x :: word) rest) := by
  constructor
  · intro h
    refine ⟨h [] _ rfl (by simp), fun hx word rest hafter hword => ?_⟩
    exact h (x :: word) rest (by rw [hafter, List.cons_append])
      (List.forall_mem_cons.mpr ⟨hx, hword⟩)
  · rintro ⟨hnil, hcons⟩ word rest hafter hword
    cases word with
    | nil =>
        simp only [List.nil_append] at hafter
        exact hafter ▸ hnil
    | cons y word =>
        simp only [List.cons_append, List.cons.injEq] at hafter
        obtain ⟨rfl, hafter⟩ := hafter
        obtain ⟨hx, hword⟩ := List.forall_mem_cons.mp hword
        exact hcons hx word rest hafter hword

/-- The empty text can be split in one way only. -/
theorem forall_split_nil {P : List α → List α → Prop} :
    (∀ word rest, [] = word ++ rest → (∀ y ∈ word, k y = true) → P word rest) ↔ P [] [] := by
  constructor
  · intro h
    exact h [] [] rfl (by simp)
  · intro h word rest hafter _
    obtain ⟨rfl, rfl⟩ := List.append_eq_nil_iff.mp hafter.symm
    exact h

/-- A greedy repetition fails exactly when the rest fails behind every split. -/
theorem runGreedy_eq_none_iff {before after : List α} :
    runGreedy k next before groups after = none ↔
      ∀ word rest, after = word ++ rest → (∀ x ∈ word, k x = true) →
        next ⟨word.reverse ++ before, rest, groups⟩ = none := by
  induction after generalizing before with
  | nil => rw [forall_split_nil, runGreedy, List.reverse_nil, List.nil_append]
  | cons x after ih =>
      rw [forall_split_cons, runGreedy, Option.or_eq_none_iff, and_comm]
      apply and_congr Iff.rfl
      cases hx : k x with
      | false => simp
      | true => simp [ih]

/-- A lazy repetition fails exactly when the rest fails behind every split. -/
theorem runLazily_eq_none_iff {before after : List α} :
    runLazily k next before groups after = none ↔
      ∀ word rest, after = word ++ rest → (∀ x ∈ word, k x = true) →
        next ⟨word.reverse ++ before, rest, groups⟩ = none := by
  induction after generalizing before with
  | nil => rw [forall_split_nil, runLazily, List.reverse_nil, List.nil_append]
  | cons x after ih =>
      rw [forall_split_cons, runLazily, Option.or_eq_none_iff]
      apply and_congr Iff.rfl
      cases hx : k x with
      | false => simp
      | true => simp [ih]

/-- A run fails exactly if the continuation fails after every way of reading. -/
theorem run_eq_none_iff (p : Pattern α γ) {next : Cursor α γ → Option β} {c : Cursor α γ} :
    p.run next c = none ↔ ∀ m, p.Reads c m → next m = none := by
  induction p generalizing next c with
  | one k =>
      cases hc : c.after with
      | nil => simp [run, Reads, hc]
      | cons x rest =>
          cases hx : k x with
          | false => simp [run, Reads, hc, hx]
          | true => simp [run, Reads, hc, hx]
  | boundary isWord => simp [run, Reads]
  | seq p q ihp ihq =>
      rw [run, ihp]
      constructor
      · rintro h m ⟨d, hp, hq⟩
        exact ihq.mp (h d hp) m hq
      · intro h d hp
        exact ihq.mpr fun m hq => h m ⟨d, hp, hq⟩
  | greedy k =>
      rw [run, runGreedy_eq_none_iff]
      constructor
      · rintro h m ⟨word, rest, hafter, hword, rfl⟩
        exact h word rest hafter hword
      · intro h word rest hafter hword
        exact h _ ⟨word, rest, hafter, hword, rfl⟩
  | lazily k =>
      rw [run, runLazily_eq_none_iff]
      constructor
      · rintro h m ⟨word, rest, hafter, hword, rfl⟩
        exact h word rest hafter hword
      · intro h word rest hafter hword
        exact h _ ⟨word, rest, hafter, hword, rfl⟩
  | group name p ih =>
      rw [run, ih]
      constructor
      · rintro h m ⟨d, hd, rfl⟩
        exact h d hd
      · intro h d hd
        exact h _ ⟨d, hd, rfl⟩

/-- The way taken by `k*?`: the shortest word that the continuation accepts. -/
theorem runLazily_eq_some {before after : List α} {b : β} :
    runLazily k next before groups after = some b ↔
      ∃ word rest, after = word ++ rest ∧ (∀ x ∈ word, k x = true) ∧
        next ⟨word.reverse ++ before, rest, groups⟩ = some b ∧
        ∀ v x w, word = v ++ x :: w →
          next ⟨v.reverse ++ before, x :: w ++ rest, groups⟩ = none := by
  induction after generalizing before with
  | nil =>
      constructor
      · intro h
        exact ⟨[], [], rfl, by simp, h, by simp⟩
      · rintro ⟨word, rest, hafter, -, hnext, -⟩
        obtain ⟨rfl, rfl⟩ := List.append_eq_nil_iff.mp hafter.symm
        exact hnext
  | cons x after ih =>
      rw [runLazily, Option.or_eq_some_iff]
      constructor
      · rintro (h | ⟨hnone, h⟩)
        · exact ⟨[], x :: after, rfl, by simp, h, by simp⟩
        · cases hx : k x with
          | false => simp [hx] at h
          | true =>
              rw [hx, if_pos rfl, ih] at h
              obtain ⟨word, rest, rfl, hword, hnext, hfirst⟩ := h
              refine ⟨x :: word, rest, rfl, List.forall_mem_cons.mpr ⟨hx, hword⟩, ?_, ?_⟩
              · simpa using hnext
              · rintro v y w hsplit
                cases v with
                | nil =>
                    simp only [List.nil_append, List.cons.injEq] at hsplit
                    obtain ⟨rfl, rfl⟩ := hsplit
                    exact hnone
                | cons z v =>
                    simp only [List.cons_append, List.cons.injEq] at hsplit
                    obtain ⟨rfl, hsplit⟩ := hsplit
                    simpa using hfirst v y w hsplit
      · rintro ⟨word, rest, hafter, hword, hnext, hfirst⟩
        cases word with
        | nil =>
            left
            simp only [List.nil_append] at hafter
            subst hafter
            exact hnext
        | cons y word =>
            simp only [List.cons_append, List.cons.injEq] at hafter
            obtain ⟨rfl, rfl⟩ := hafter
            obtain ⟨hx, hword⟩ := List.forall_mem_cons.mp hword
            right
            refine ⟨hfirst [] x word rfl, ?_⟩
            rw [hx, if_pos rfl, ih]
            refine ⟨word, rest, rfl, hword, by simpa using hnext, fun v y w hsplit => ?_⟩
            have hrest := hfirst (x :: v) y w (by rw [hsplit, List.cons_append])
            simpa using hrest

/-- The way taken by `k*`: the longest word that the continuation accepts. -/
theorem runGreedy_eq_some {before after : List α} {b : β} :
    runGreedy k next before groups after = some b ↔
      ∃ word rest, after = word ++ rest ∧ (∀ x ∈ word, k x = true) ∧
        next ⟨word.reverse ++ before, rest, groups⟩ = some b ∧
        ∀ x v w, rest = x :: v ++ w → (∀ y ∈ x :: v, k y = true) →
          next ⟨(word ++ x :: v).reverse ++ before, w, groups⟩ = none := by
  induction after generalizing before with
  | nil =>
      constructor
      · intro h
        exact ⟨[], [], rfl, by simp, h, by simp⟩
      · rintro ⟨word, rest, hafter, -, hnext, -⟩
        obtain ⟨rfl, rfl⟩ := List.append_eq_nil_iff.mp hafter.symm
        exact hnext
  | cons x after ih =>
      rw [runGreedy, Option.or_eq_some_iff]
      constructor
      · rintro (h | ⟨hnone, h⟩)
        · cases hx : k x with
          | false => simp [hx] at h
          | true =>
              rw [hx, if_pos rfl, ih] at h
              obtain ⟨word, rest, rfl, hword, hnext, hlast⟩ := h
              refine ⟨x :: word, rest, rfl, List.forall_mem_cons.mpr ⟨hx, hword⟩, ?_, ?_⟩
              · simpa using hnext
              · intro y v w hsplit hv
                simpa using hlast y v w hsplit hv
        · refine ⟨[], x :: after, rfl, by simp, h, fun y v w hsplit hv => ?_⟩
          simp only [List.cons_append, List.cons.injEq] at hsplit
          obtain ⟨rfl, rfl⟩ := hsplit
          obtain ⟨hx, hv⟩ := List.forall_mem_cons.mp hv
          rw [hx, if_pos rfl, runGreedy_eq_none_iff] at hnone
          simpa using hnone v w rfl hv
      · rintro ⟨word, rest, hafter, hword, hnext, hlast⟩
        cases word with
        | nil =>
            simp only [List.nil_append] at hafter
            subst hafter
            refine Or.inr ⟨?_, hnext⟩
            cases hx : k x with
            | false => rfl
            | true =>
                rw [if_pos rfl, runGreedy_eq_none_iff]
                rintro v w rfl hv
                simpa using hlast x v w rfl (List.forall_mem_cons.mpr ⟨hx, hv⟩)
        | cons y word =>
            simp only [List.cons_append, List.cons.injEq] at hafter
            obtain ⟨rfl, rfl⟩ := hafter
            obtain ⟨hx, hword⟩ := List.forall_mem_cons.mp hword
            left
            rw [hx, if_pos rfl, ih]
            refine ⟨word, rest, rfl, hword, by simpa using hnext, fun y v w hsplit hv => ?_⟩
            simpa using hlast y v w hsplit hv

/-- What a run returns, the continuation has returned after one of the ways of reading. -/
theorem run_sound (p : Pattern α γ) {next : Cursor α γ → Option β} {c : Cursor α γ} {b : β}
    (h : p.run next c = some b) : ∃ m, p.Reads c m ∧ next m = some b := by
  induction p generalizing next c with
  | one k =>
      cases hc : c.after with
      | nil => simp [run, hc] at h
      | cons x rest =>
          simp only [run, hc, Option.ite_none_right_eq_some] at h
          exact ⟨_, ⟨x, rest, hc, h.1, rfl⟩, h.2⟩
  | boundary isWord =>
      simp only [run, Option.ite_none_right_eq_some] at h
      exact ⟨c, ⟨h.1, rfl⟩, h.2⟩
  | seq p q ihp ihq =>
      obtain ⟨d, hp, hd⟩ := ihp h
      obtain ⟨m, hq, hm⟩ := ihq hd
      exact ⟨m, ⟨d, hp, hq⟩, hm⟩
  | greedy k =>
      obtain ⟨word, rest, hafter, hword, hnext, -⟩ := runGreedy_eq_some.mp h
      exact ⟨_, ⟨word, rest, hafter, hword, rfl⟩, hnext⟩
  | lazily k =>
      obtain ⟨word, rest, hafter, hword, hnext, -⟩ := runLazily_eq_some.mp h
      exact ⟨_, ⟨word, rest, hafter, hword, rfl⟩, hnext⟩
  | group name p ih =>
      obtain ⟨d, hd, hnext⟩ := ih h
      exact ⟨_, ⟨d, hd, rfl⟩, hnext⟩

/-- A pattern that reads, to a cursor that the continuation accepts, is run with success. -/
theorem isSome_run {p : Pattern α γ} {next : Cursor α γ → Option β} {c m : Cursor α γ}
    (hm : p.Reads c m) (hnext : (next m).isSome = true) : (p.run next c).isSome = true := by
  rw [← Option.ne_none_iff_isSome] at hnext ⊢
  intro h
  exact hnext (p.run_eq_none_iff.mp h m hm)

end Runs

/-- One character of a class and then any number reads a word of the class that is not
empty. -/
theorem reads_oneOrMore {k : α → Bool} {c m : Cursor α γ} :
    (seq (one k) (greedy k)).Reads c m ↔ ∃ word rest, word ≠ [] ∧ c.after = word ++ rest ∧
      (∀ x ∈ word, k x = true) ∧ m = c.skip word rest := by
  constructor
  · rintro ⟨d, ⟨x, after, hafter, hx, rfl⟩, word, rest, hrest, hword, rfl⟩
    refine ⟨x :: word, rest, by simp, ?_, List.forall_mem_cons.mpr ⟨hx, hword⟩, ?_⟩
    · rw [hafter, show after = word ++ rest from hrest, List.cons_append]
    · rw [Cursor.skip_skip, List.singleton_append]
  · rintro ⟨word, rest, hne, hafter, hword, rfl⟩
    obtain ⟨x, word, rfl⟩ := List.exists_cons_of_ne_nil hne
    obtain ⟨hx, hword⟩ := List.forall_mem_cons.mp hword
    refine ⟨_, ⟨x, word ++ rest, hafter, hx, rfl⟩, word, rest, rfl, hword, ?_⟩
    rw [Cursor.skip_skip, List.singleton_append]

/-! ## Searching -/

/-- A search finds the first position from which the pattern matches, and takes the match
that it prefers there. -/
theorem search_eq_some {p : Pattern α γ} {text : List α} {s m : Cursor α γ} :
    p.search text = some (s, m) ↔
      ∃ word rest, text = word ++ rest ∧ s = ⟨word.reverse, rest, []⟩ ∧ p.run some s = some m ∧
        ∀ v x w, word = v ++ x :: w → p.run some ⟨v.reverse, x :: w ++ rest, []⟩ = none := by
  rw [search, run, runLazily_eq_some]
  constructor
  · rintro ⟨word, rest, htext, -, hmatch, hfirst⟩
    simp only [List.append_nil, Option.map_eq_some_iff, Prod.mk.injEq] at hmatch hfirst
    obtain ⟨m', hm, rfl, rfl⟩ := hmatch
    refine ⟨word, rest, htext, rfl, hm, fun v x w hsplit => ?_⟩
    exact Option.map_eq_none_iff.mp (hfirst v x w hsplit)
  · rintro ⟨word, rest, htext, rfl, hm, hfirst⟩
    simp only [List.append_nil, Option.map_eq_some_iff, Prod.mk.injEq]
    refine ⟨word, rest, htext, by simp, ⟨m, hm, rfl, rfl⟩, fun v x w hsplit => ?_⟩
    exact Option.map_eq_none_iff.mpr (hfirst v x w hsplit)

/-- A pattern that matches at some position is found. -/
theorem isSome_search {p : Pattern α γ} {text word rest : List α} (htext : text = word ++ rest)
    (h : (p.run some ⟨word.reverse, rest, []⟩).isSome = true) : (p.search text).isSome = true := by
  apply isSome_run (m := ⟨word.reverse, rest, []⟩)
  · exact ⟨word, rest, htext, by simp, by simp [Cursor.skip]⟩
  · simpa using h

/-! ## Literals -/

/-- A literal reads its word. -/
theorem reads_literal [DecidableEq α] {word : List α} {p : Pattern α γ} {c m : Cursor α γ} :
    (literal word p).Reads c m ↔ ∃ rest, c.after = word ++ rest ∧ p.Reads (c.skip word rest) m := by
  induction word generalizing c with
  | nil => simp [literal]
  | cons x word ih =>
      have hread : (literal (x :: word) p).Reads c m ↔
          ∃ rest, c.after = x :: rest ∧ (literal word p).Reads (c.skip [x] rest) m := by
        constructor
        · rintro ⟨d, ⟨y, rest, hafter, hy, rfl⟩, hq⟩
          simp only [decide_eq_true_eq] at hy
          subst hy
          exact ⟨rest, hafter, hq⟩
        · rintro ⟨rest, hafter, hq⟩
          exact ⟨_, ⟨x, rest, hafter, by simp, rfl⟩, hq⟩
      rw [hread]
      constructor
      · rintro ⟨rest, hafter, hq⟩
        obtain ⟨rest', hrest, hp⟩ := ih.mp hq
        refine ⟨rest', ?_, ?_⟩
        · rw [hafter, show rest = word ++ rest' from hrest, List.cons_append]
        · rwa [Cursor.skip_skip] at hp
      · rintro ⟨rest, hafter, hp⟩
        refine ⟨word ++ rest, by rw [hafter, List.cons_append], ih.mpr ⟨rest, rfl, ?_⟩⟩
        rwa [Cursor.skip_skip]

/-- A literal is run by going past its word. -/
theorem run_literal_eq_some [DecidableEq α] {word : List α} {p : Pattern α γ}
    {next : Cursor α γ → Option β} {c : Cursor α γ} {b : β} :
    (literal word p).run next c = some b ↔
      ∃ rest, c.after = word ++ rest ∧ p.run next (c.skip word rest) = some b := by
  induction word generalizing c with
  | nil => simp [literal]
  | cons x word ih =>
      have hrun : (literal (x :: word) p).run next c = some b ↔
          ∃ rest, c.after = x :: rest ∧ (literal word p).run next (c.skip [x] rest) = some b := by
        show (Pattern.one (· = x)).run ((literal word p).run next) c = some b ↔ _
        cases hc : c.after with
        | nil => simp [run, hc]
        | cons y rest =>
            simp only [run, hc, decide_eq_true_eq, Option.ite_none_right_eq_some, List.cons.injEq]
            constructor
            · rintro ⟨rfl, h⟩
              exact ⟨rest, ⟨rfl, rfl⟩, h⟩
            · rintro ⟨rest', ⟨rfl, rfl⟩, h⟩
              exact ⟨rfl, h⟩
      rw [hrun]
      constructor
      · rintro ⟨rest, hafter, hq⟩
        obtain ⟨rest', hrest, hp⟩ := ih.mp hq
        refine ⟨rest', ?_, ?_⟩
        · rw [hafter, show rest = word ++ rest' from hrest, List.cons_append]
        · rwa [Cursor.skip_skip] at hp
      · rintro ⟨rest, hafter, hp⟩
        refine ⟨word ++ rest, by rw [hafter, List.cons_append], ih.mpr ⟨rest, rfl, ?_⟩⟩
        rwa [Cursor.skip_skip]

end Pattern

end SleepBlocker.Computation
