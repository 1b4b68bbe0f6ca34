import Mathlib.Data.List.Basic
import Mathlib.Order.Defs.LinearOrder

/-!
# The order of RPM versions

`rpmvercmp` takes a text apart into segments, the longest runs of digits and of letters with
everything else for separators, and compares them one after the other: numbers by their
value, letters by their codes, and a number is newer than letters. When one text is through,
the other is newer, except before a tilde, which is older than anything, the end included;
a caret is newer than the end only. Two packages are compared by version first and then
by release.

`segments_digits` reads a number off a text. `compareSegments_cons` and
`compareSegments_number` decide comparisons of texts that begin with numbers,
`compareSegments_numbers` those of texts that are nothing but numbers. The order is a total
preorder, an instance of `Std.TransCmp`.
-/

set_option autoImplicit false

namespace SleepBlocker.Computation.Rpm

/-- What a version is compared by: separators that matter, words and numbers. -/
inductive Segment where
  | tilde
  | caret
  | letters (word : List Char)
  | number (n : ℕ)
  deriving DecidableEq, Repr

namespace Segment

/-- The segment that a character begins; separators begin none. -/
def start (c : Char) : Option Segment :=
  if c.isDigit then some (.number (c.toNat - '0'.toNat))
  else if c.isAlpha then some (.letters [c])
  else if c = '~' then some .tilde
  else if c = '^' then some .caret
  else none

/-- The segment with one more character, if that belongs to it. -/
def extend : Segment → Char → Option Segment
  | .number n, c => if c.isDigit then some (.number (10 * n + (c.toNat - '0'.toNat))) else none
  | .letters word, c => if c.isAlpha then some (.letters (word ++ [c])) else none
  | .tilde, _ | .caret, _ => none

/-- The order of segments of different kinds: a tilde comes first and a number last. -/
def rank : Segment → ℕ
  | .tilde => 0
  | .caret => 1
  | .letters _ => 2
  | .number _ => 3

/-- Numbers are compared as numbers, words as strings, and different kinds by rank. -/
protected def compare : Segment → Segment → Ordering
  | .number m, .number n => Ord.compare m n
  | .letters v, .letters w => Ord.compare v w
  | s, t => Ord.compare s.rank t.rank

end Segment

/-- Goes through a text; `pending` is the segment that the last character belongs to. -/
def scan : Option Segment → List Char → List Segment
  | pending, [] => pending.toList
  | pending, c :: rest =>
    match pending.bind (·.extend c) with
    | some s => scan (some s) rest
    | none => pending.toList ++ scan (Segment.start c) rest

/-- The segments of a version. -/
def segments (text : List Char) : List Segment := scan none text

/-- Segments are compared one by one; where one version ends, what is left of the other decides,
and a tilde is less than nothing at all. -/
def compareSegments : List Segment → List Segment → Ordering
  | [], [] => .eq
  | [], .tilde :: _ => .gt
  | [], _ :: _ => .lt
  | .tilde :: _, [] => .lt
  | _ :: _, [] => .gt
  | s :: l, t :: m => (s.compare t).then (compareSegments l m)

/-- `rpmvercmp`. -/
def vercmp (a b : List Char) : Ordering := compareSegments (segments a) (segments b)

/-- What tells two builds of a package apart. -/
structure Label where
  version : List Char
  release : List Char
  deriving DecidableEq, Repr

/-- The version decides, and then the release. -/
protected def Label.compare (a b : Label) : Ordering :=
  (vercmp a.version b.version).then (vercmp a.release b.release)

/-! ## Reading segments -/

/-- A character that starts no number is no digit. -/
theorem isDigit_of_start {c : Char} (hc : ∀ n, Segment.start c ≠ some (.number n)) :
    c.isDigit = false := by
  rw [Bool.eq_false_iff]
  intro hdigit
  exact hc _ (if_pos hdigit)

/-- A digit goes on with a number. -/
theorem Segment.extend_number {c : Char} (hc : c.isDigit = true) (n : ℕ) :
    (Segment.number n).extend c = some (.number (10 * n + (c.toNat - '0'.toNat))) := if_pos hc

/-- A letter goes on with a word. -/
theorem Segment.extend_letters {c : Char} (hc : c.isAlpha = true) (word : List Char) :
    (Segment.letters word).extend c = some (.letters (word ++ [c])) := if_pos hc

/-- A segment ends where the text goes on with a character that it does not take. -/
theorem scan_some {s : Segment} {rest : List Char} (h : rest.head?.bind s.extend = none) :
    scan (some s) rest = s :: segments rest := by
  cases rest with
  | nil => rfl
  | cons c rest =>
      have hextend : (some s).bind (·.extend c) = none := h
      simp only [scan, hextend, Option.toList_some, segments, Option.bind_none, Option.toList_none,
        List.nil_append, List.singleton_append]

/-- A character that goes on with the segment under way is read into it. -/
theorem scan_extend {s t : Segment} {c : Char} (h : s.extend c = some t) (rest : List Char) :
    scan (some s) (c :: rest) = scan (some t) rest := by
  have hextend : (some s).bind (·.extend c) = some t := h
  rw [scan, hextend]

/-- A separator before the text changes nothing. -/
theorem segments_separator {c : Char} (h : Segment.start c = none) (rest : List Char) :
    segments (c :: rest) = segments rest := by
  simp only [segments, scan, Option.bind_none, Option.toList_none, List.nil_append, h]

/-- Separators in front make no segments. -/
theorem segments_separators {separators : List Char}
    (h : ∀ c ∈ separators, Segment.start c = none) (rest : List Char) :
    segments (separators ++ rest) = segments rest := by
  induction separators with
  | nil => rfl
  | cons c separators ih =>
      obtain ⟨hc, h⟩ := List.forall_mem_cons.mp h
      rw [List.cons_append, segments_separator hc, ih h]

/-- Digits are read into the number under way, in base ten. -/
theorem scan_digits {p : List Char} (hp : ∀ c ∈ p, c.isDigit = true) (n : ℕ) (rest : List Char) :
    scan (some (.number n)) (p ++ rest) =
      scan (some (.number (Nat.ofDigitChars 10 p n))) rest := by
  induction p generalizing n with
  | nil => rw [Nat.ofDigitChars_nil, List.nil_append]
  | cons c p ih =>
      obtain ⟨hc, hp⟩ := List.forall_mem_cons.mp hp
      rw [List.cons_append, scan_extend (Segment.extend_number hc n), Nat.ofDigitChars_cons]
      exact ih hp _

/-- Digits make a number that ends with them. -/
theorem segments_digits {p rest : List Char} (hne : p ≠ []) (hp : ∀ c ∈ p, c.isDigit = true)
    (hrest : rest.head?.any Char.isDigit = false) :
    segments (p ++ rest) = .number (Nat.ofDigitChars 10 p 0) :: segments rest := by
  obtain ⟨c, p, rfl⟩ := List.exists_cons_of_ne_nil hne
  obtain ⟨hc, hp⟩ := List.forall_mem_cons.mp hp
  have hstart : Segment.start c = some (.number (c.toNat - '0'.toNat)) := if_pos hc
  have hend : ∀ n, rest.head?.bind (Segment.number n).extend = none := by
    intro n
    cases rest with
    | nil => rfl
    | cons d rest =>
        have hd : d.isDigit = false := hrest
        simp [Segment.extend, hd]
  rw [List.cons_append, segments, scan, Option.bind_none, hstart]
  simp only [Option.toList_none, List.nil_append]
  rw [scan_digits hp, scan_some (hend _), Nat.ofDigitChars_cons, Nat.mul_zero, Nat.zero_add]

/-- A word under way becomes the first segment, perhaps longer. -/
theorem scan_letters (word rest : List Char) :
    ∃ more l, scan (some (.letters word)) rest = .letters (word ++ more) :: l := by
  induction rest generalizing word with
  | nil => exact ⟨[], [], by simp [scan]⟩
  | cons c rest ih =>
      by_cases hc : c.isAlpha = true
      · obtain ⟨more, l, hscan⟩ := ih (word ++ [c])
        refine ⟨c :: more, l, ?_⟩
        rw [scan_extend (Segment.extend_letters hc word), hscan, List.append_assoc,
          List.singleton_append]
      · have hend : ((c :: rest).head?).bind (Segment.letters word).extend = none := if_neg hc
        exact ⟨[], _, by rw [scan_some hend, List.append_nil]⟩

/-- A number under way becomes the first segment. -/
theorem scan_number (n : ℕ) (rest : List Char) :
    ∃ k l, scan (some (.number n)) rest = .number k :: l := by
  induction rest generalizing n with
  | nil => exact ⟨n, [], rfl⟩
  | cons c rest ih =>
      by_cases hc : c.isDigit = true
      · rw [scan_extend (Segment.extend_number hc n)]
        exact ih _
      · exact ⟨n, _, scan_some (if_neg hc)⟩

/-- What begins with a letter begins with a word. -/
theorem segments_letter {c : Char} (hc : Segment.start c = some (.letters [c]))
    (rest : List Char) :
    ∃ more l, segments (c :: rest) = .letters (c :: more) :: l := by
  rw [segments, scan, Option.bind_none, hc]
  exact scan_letters [c] rest

/-- What begins with a digit begins with a number. -/
theorem segments_digit {c : Char} (hc : c.isDigit = true) (rest : List Char) :
    ∃ k l, segments (c :: rest) = .number k :: l := by
  have hstart : Segment.start c = some (.number (c.toNat - '0'.toNat)) := if_pos hc
  rw [segments, scan, Option.bind_none, hstart]
  exact scan_number _ rest

/-! ## Comparing segments -/

/-- A segment is equal to itself. -/
theorem Segment.compare_self (s : Segment) : s.compare s = .eq := by
  cases s <;> simp [Segment.compare]

/-- Equal segments in front do not matter. -/
theorem compareSegments_cons (s : Segment) (l m : List Segment) :
    compareSegments (s :: l) (s :: m) = compareSegments l m := by
  rw [compareSegments, s.compare_self, Ordering.eq_then]

/-- A list of segments is equal to itself. -/
theorem compareSegments_self (l : List Segment) : compareSegments l l = .eq := by
  induction l with
  | nil => rfl
  | cons s l ih => rw [compareSegments_cons, ih]

/-- A version is equal to itself. -/
theorem vercmp_self (text : List Char) : vercmp text text = .eq := compareSegments_self _

/-- Only a number that is as great keeps a text from being older than one with the number
`n` in front. -/
theorem compareSegments_number {l : List Segment} {n : ℕ}
    (h : ∀ k, l.head? = some (.number k) → k < n) (m : List Segment) :
    compareSegments l (.number n :: m) = .lt := by
  cases l with
  | nil => rfl
  | cons s l =>
      have hs : s.compare (.number n) = .lt := by
        cases s with
        | number k => exact Nat.compare_eq_lt.mpr (h k rfl)
        | tilde | caret | letters => rfl
      rw [compareSegments, hs, Ordering.lt_then]

/-- A string comes before its extensions. -/
theorem compare_append_cons (w : List Char) (c : Char) (rest : List Char) :
    Ord.compare w (w ++ c :: rest) = .lt := by
  induction w with
  | nil => rfl
  | cons d w ih =>
      rw [List.cons_append, List.compare_cons_cons, Std.ReflOrd.compare_self]
      exact ih

/-- A text that goes on with a letter or a digit after a word is newer than the word. -/
theorem compareSegments_word {c : Char} (hc : c.isAlpha = true ∨ c.isDigit = true)
    (w rest : List Char) :
    compareSegments [.letters w] (scan (some (.letters w)) (c :: rest)) = .lt := by
  by_cases halpha : c.isAlpha = true
  · obtain ⟨more, l, hscan⟩ := scan_letters (w ++ [c]) rest
    have hw : (Segment.letters w).compare (.letters (w ++ [c] ++ more)) = .lt := by
      rw [List.append_assoc, List.singleton_append]
      exact compare_append_cons w c more
    rw [scan_extend (Segment.extend_letters halpha w), hscan, compareSegments, hw, Ordering.lt_then]
  · have hend : ((c :: rest).head?).bind (Segment.letters w).extend = none := if_neg halpha
    obtain ⟨k, l, hnumber⟩ := segments_digit (hc.resolve_left halpha) rest
    rw [scan_some hend, compareSegments_cons, hnumber]
    rfl

/-- Lists of numbers are compared as lists. -/
theorem compareSegments_numbers {l m : List ℕ} (h : l < m) :
    compareSegments (l.map .number) (m.map .number) = .lt := by
  induction l generalizing m with
  | nil =>
      cases m with
      | nil => exact absurd h (List.lt_irrefl _)
      | cons n m => rfl
  | cons k l ih =>
      cases m with
      | nil => exact absurd h (List.not_lt_nil _)
      | cons n m =>
          rw [List.map_cons, List.map_cons]
          rcases List.cons_lt_cons_iff.mp h with hlt | ⟨rfl, hlt⟩
          · apply compareSegments_number
            intro j hj
            simp only [List.head?_cons, Option.some.injEq, Segment.number.injEq] at hj
            omega
          · rw [compareSegments_cons]
            exact ih hlt

/-! ## An order of versions -/

/-- Comparing segments the other way gives the other answer. -/
instance : Std.OrientedCmp Segment.compare where
  eq_swap {s t} := by
    cases s <;> cases t <;> first | rfl | exact Std.OrientedOrd.eq_swap

/-- The order of segments is transitive. -/
instance : Std.TransCmp Segment.compare where
  isLE_trans {s t u} hst htu := by
    cases s <;> cases t <;> cases u <;>
      first
        | rfl
        | exact absurd hst Bool.false_ne_true
        | exact absurd htu Bool.false_ne_true
        | exact Std.TransOrd.isLE_trans hst htu

/-- Segments that compare as equal are equal. -/
theorem Segment.eq_of_compare {s t : Segment} (h : s.compare t = .eq) : s = t := by
  cases s with
  | tilde | caret => cases t <;> first | rfl | cases h
  | letters v =>
      cases t with
      | letters w => rw [Std.LawfulEqOrd.eq_of_compare h]
      | tilde | caret | number => cases h
  | number m =>
      cases t with
      | number n => rw [Std.LawfulEqOrd.eq_of_compare h]
      | tilde | caret | letters => cases h

/-- Nothing is less than a tilde. -/
theorem Segment.compare_tilde (s : Segment) : s.compare .tilde ≠ .lt := by
  intro h
  cases s <;> cases h

/-- A longer version is no greater exactly when it goes on with a tilde. -/
theorem isLE_cons_nil {s : Segment} {l : List Segment} :
    (compareSegments (s :: l) []).isLE = true ↔ s = .tilde := by
  cases s <;> simp [compareSegments]

/-- A shorter version is no greater exactly when the other does not go on with a tilde. -/
theorem isLE_nil_cons {s : Segment} {l : List Segment} :
    (compareSegments [] (s :: l)).isLE = true ↔ s ≠ .tilde := by
  cases s <;> simp [compareSegments]

/-- The first segments decide, unless they are equal. -/
theorem isLE_cons_cons {s t : Segment} {l m : List Segment} :
    (compareSegments (s :: l) (t :: m)).isLE = true ↔
      s.compare t = .lt ∨ s = t ∧ (compareSegments l m).isLE = true := by
  rw [compareSegments, Ordering.isLE_then_iff_or]
  constructor
  · rintro (hlt | ⟨heq, hle⟩)
    · exact Or.inl hlt
    · exact Or.inr ⟨Segment.eq_of_compare heq, hle⟩
  · rintro (hlt | ⟨rfl, hle⟩)
    · exact Or.inl hlt
    · exact Or.inr ⟨s.compare_self, hle⟩

/-- Comparing lists of segments the other way gives the other answer. -/
theorem compareSegments_swap (l m : List Segment) :
    compareSegments l m = (compareSegments m l).swap := by
  induction l generalizing m with
  | nil =>
      cases m with
      | nil => rfl
      | cons t m => cases t <;> rfl
  | cons s l ih =>
      cases m with
      | nil => cases s <;> rfl
      | cons t m =>
          have hhead : s.compare t = (t.compare s).swap := Std.OrientedCmp.eq_swap
          rw [compareSegments, compareSegments, Ordering.swap_then, ← ih m, ← hhead]

/-- The order of lists of segments is transitive. -/
theorem compareSegments_trans {l m k : List Segment} (hlm : (compareSegments l m).isLE = true)
    (hmk : (compareSegments m k).isLE = true) : (compareSegments l k).isLE = true := by
  induction l generalizing m k with
  | nil =>
      cases k with
      | nil => rfl
      | cons u k =>
          cases m with
          | nil => exact hmk
          | cons t m =>
              rw [isLE_nil_cons] at hlm ⊢
              rintro rfl
              rcases isLE_cons_cons.mp hmk with hlt | ⟨rfl, -⟩
              · exact t.compare_tilde hlt
              · exact hlm rfl
  | cons s l ih =>
      cases m with
      | nil =>
          obtain rfl := isLE_cons_nil.mp hlm
          cases k with
          | nil => rfl
          | cons u k =>
              rw [isLE_nil_cons] at hmk
              rw [isLE_cons_cons]
              left
              cases u <;> first | rfl | exact absurd rfl hmk
      | cons t m =>
          rw [isLE_cons_cons] at hlm
          cases k with
          | nil =>
              obtain rfl := isLE_cons_nil.mp hmk
              rcases hlm with hlt | ⟨rfl, -⟩
              · exact absurd hlt s.compare_tilde
              · rfl
          | cons u k =>
              rw [isLE_cons_cons] at hmk ⊢
              rcases hlm with hlt | ⟨rfl, hle⟩ <;> rcases hmk with hlt' | ⟨rfl, hle'⟩
              · exact Or.inl (Std.TransCmp.lt_trans hlt hlt')
              · exact Or.inl hlt
              · exact Or.inl hlt'
              · exact Or.inr ⟨rfl, ih hle hle'⟩

/-- Versions are totally preordered. -/
instance : Std.TransCmp vercmp where
  eq_swap := compareSegments_swap _ _
  isLE_trans := compareSegments_trans

end SleepBlocker.Computation.Rpm
