import SleepBlocker.Interface.VersionPattern
import SleepBlocker.Model.Makefile

/-!
# What the Makefile's version is

`sed` edits every line that begins with an opening and has a quote behind it, and takes away
the opening and the last quote (`edited_eq_some`). Only the first of these lines counts
(`makeVersion_eq`), and the rest of it is kept, but for the carriage return of its line end.
-/

set_option autoImplicit false

namespace SleepBlocker.Model

open SleepBlocker.Computation

/-! ## One line -/

/-- The beginning of a line that `sed` takes for the version's. -/
def LineOpening (w : Text) : Prop := Assignment (· == ' ') w

/-- What stands behind the last occurrence of a character is determined. -/
theorem last_unique {α : Type} {x : α} {a a' b b' : List α} (h : a ++ x :: b = a' ++ x :: b')
    (hb : x ∉ b) (hb' : x ∉ b') : a = a' ∧ b = b' := by
  have hreverse : b.reverse ++ x :: a.reverse = b'.reverse ++ x :: a'.reverse := by
    simpa using congrArg List.reverse h
  obtain ⟨hbb, haa⟩ := first_unique hreverse (by simpa using hb) (by simpa using hb')
  exact ⟨List.reverse_injective haa, List.reverse_injective hbb⟩

/-- An opening ends with its only quote, and has no digits. -/
theorem LineOpening.eq_concat {w : Text} (hw : LineOpening w) :
    ∃ w', w = w' ++ [quote] ∧ quote ∉ w' ∧ '\n' ∉ w' ∧ ∀ c ∈ w', c.isDigit = false := by
  obtain ⟨w', hconcat, hquote, -, hchars⟩ := Assignment.eq_concat hw (by decide)
  refine ⟨w', hconcat, hquote, fun hline => ?_, fun c hc => ?_⟩
  · have hmem := hchars '\n' hline
    revert hmem
    decide
  · have hdigits : key.all (fun c => !c.isDigit) = true := by decide
    rcases hchars c hc with hc | rfl | hc
    · simpa using List.all_eq_true.mp hdigits c hc
    · rfl
    · rw [beq_iff_eq.mp hc]
      rfl

/-- At most one beginning of a line is an opening. -/
theorem lineOpening_unique {w w' a a' : Text} (hw : LineOpening w) (hw' : LineOpening w')
    (h : w ++ a = w' ++ a') : w = w' ∧ a = a' := by
  obtain ⟨v, rfl, hv, -⟩ := hw.eq_concat
  obtain ⟨v', rfl, hv', -⟩ := hw'.eq_concat
  have hsplit : v ++ quote :: a = v' ++ quote :: a' := by
    simpa using h
  obtain ⟨rfl, rfl⟩ := first_unique hsplit hv hv'
  exact ⟨rfl, rfl⟩

/-- What the opening of the sed pattern matches is the opening of a version line. -/
theorem reads_sedOpening {c d : Cursor Char String} :
    sedOpening.Reads c d ↔ ∃ w rest, c.after = w ++ rest ∧ LineOpening w ∧ d = c.skip w rest :=
  reads_assignment

/-- **What an edited line is**: what stands behind its opening, without the last quote. -/
theorem edited_eq_some {line r : Text} :
    edited line = some r ↔
      ∃ w x y, LineOpening w ∧ line = w ++ x ++ quote :: y ∧ quote ∉ y ∧ r = x ++ y := by
  have hsome : ∀ {r}, edited line = some r →
      ∃ w x y, LineOpening w ∧ line = w ++ x ++ quote :: y ∧ quote ∉ y ∧ r = x ++ y := by
    intro r h
    obtain ⟨m, hm, rfl⟩ := Option.map_eq_some_iff.mp h
    obtain ⟨d, hd, htail⟩ := Pattern.run_sound sedOpening hm
    obtain ⟨w, rest, hline, hw, rfl⟩ := reads_sedOpening.mp hd
    obtain ⟨x, behind, hrest, -, hnext, hlast⟩ := Pattern.runGreedy_eq_some.mp htail
    have hrest : rest = x ++ behind := hrest
    have hline : line = w ++ rest := hline
    cases behind with
    | nil => simp [Pattern.run, Cursor.capture] at hnext
    | cons q y =>
        simp only [Pattern.run, Cursor.capture, beq_iff_eq, Option.ite_none_right_eq_some,
          Option.some.injEq] at hnext
        obtain ⟨rfl, rfl⟩ := hnext
        refine ⟨w, x, y, hw, by rw [hline, hrest, List.append_assoc], ?_, ?_⟩
        · -- a longer group would have been taken
          intro hquote
          obtain ⟨a, b, rfl⟩ := List.append_of_mem hquote
          have hnone := hlast quote a (quote :: b) rfl (by simp)
          simp [Pattern.run, Cursor.capture] at hnone
        · simp [Cursor.group, Cursor.skip]
  constructor
  · exact hsome
  · rintro ⟨w, x, y, hw, rfl, hy, rfl⟩
    have hmatch : (edited (w ++ x ++ quote :: y)).isSome = true := by
      rw [edited, Option.isSome_map]
      refine Pattern.isSome_run ⟨_, reads_sedOpening.mpr ⟨w, x ++ quote :: y, by simp, hw, rfl⟩,
        _, ⟨_, ⟨x, quote :: y, rfl, by simp, rfl⟩, rfl⟩, quote, y, rfl, by simp, rfl⟩ rfl
    obtain ⟨r, hr⟩ := Option.isSome_iff_exists.mp hmatch
    obtain ⟨w', x', y', hw', hline, hy', rfl⟩ := hsome hr
    simp only [List.append_assoc] at hline
    obtain ⟨rfl, hrest⟩ := lineOpening_unique hw hw' hline
    obtain ⟨rfl, rfl⟩ := last_unique hrest hy hy'
    exact hr

/-- An edited line has no characters but those of the line. -/
theorem mem_of_edited {line r : Text} (h : edited line = some r) {c : Char} (hc : c ∈ r) :
    c ∈ line := by
  obtain ⟨w, x, y, -, rfl, -, rfl⟩ := edited_eq_some.mp h
  rcases List.mem_append.mp hc with hx | hy
  · simp [hx]
  · simp [hy]

/-! ## The lines of a file -/

/-- The text of lines that have their line ends. -/
def unlines (lines : List Text) : Text := lines.flatMap (· ++ ['\n'])

/-- Lines put together come apart again. -/
theorem splitOn_unlines {lines : List Text} (h : ∀ l ∈ lines, '\n' ∉ l) (rest : Text) :
    (unlines lines ++ rest).splitOn '\n' = lines ++ rest.splitOn '\n' := by
  induction lines with
  | nil => rfl
  | cons l lines ih =>
      obtain ⟨hl, hlines⟩ := List.forall_mem_cons.mp h
      have hsplit := List.splitOn_append_cons_self_of_not_mem hl (unlines lines ++ rest)
      rw [ih hlines] at hsplit
      rw [List.cons_append, ← hsplit]
      simp [unlines]

/-- Every text is some lines and what stands behind the last line end. -/
theorem exists_unlines (text : Text) :
    ∃ lines last, text = unlines lines ++ last ∧ (∀ l ∈ lines, '\n' ∉ l) ∧ '\n' ∉ last := by
  induction text with
  | nil => exact ⟨[], [], rfl, by simp, by simp⟩
  | cons c text ih =>
      obtain ⟨lines, last, rfl, hlines, hlast⟩ := ih
      by_cases hc : c = '\n'
      · subst hc
        refine ⟨[] :: lines, last, by simp [unlines], ?_, hlast⟩
        exact List.forall_mem_cons.mpr ⟨by simp, hlines⟩
      · cases lines with
        | nil => exact ⟨[], c :: last, rfl, by simp, by simp [hlast, Ne.symm hc]⟩
        | cons l lines =>
            obtain ⟨hl, hlines⟩ := List.forall_mem_cons.mp hlines
            refine ⟨(c :: l) :: lines, last, by simp [unlines], ?_, hlast⟩
            exact List.forall_mem_cons.mpr ⟨by simp [hl, Ne.symm hc], hlines⟩

/-! ## The first edited line -/

/-- A line without the carriage return of its line end. -/
def withoutReturn (line : Text) : Text :=
  if line.getLast? = some '\r' then line.dropLast else line

/-- The version that the lines of a file give. -/
def versionOf : List Text → Text
  | [] => []
  | [last] => (edited last).getD []
  | line :: rest =>
    match edited line with
    | some r => withoutReturn r
    | none => versionOf rest

/-- A carriage return is folded only where a newline follows. -/
theorem foldReturns_cons {c : Char} {rest : Text} (h : c = '\r' → rest.head? ≠ some '\n') :
    foldReturns (c :: rest) = c :: foldReturns rest := by
  rw [foldReturns]
  rintro rest' rfl rfl
  exact h rfl rfl

/-- A text without newlines has nothing to fold. -/
theorem foldReturns_line {r : Text} (h : '\n' ∉ r) : foldReturns r = r := by
  induction r with
  | nil => rfl
  | cons c r ih =>
      simp only [List.mem_cons, not_or] at h
      rw [foldReturns_cons, ih h.2]
      exact fun _ hhead => h.2 (List.mem_of_head? hhead)

/-- Only a final carriage return is taken off. -/
theorem withoutReturn_cons (c d : Char) (r : Text) :
    withoutReturn (c :: d :: r) = c :: withoutReturn (d :: r) := by
  unfold withoutReturn
  rw [List.getLast?_cons_cons]
  split <;> rfl

/-- Folding a line with its newline takes off the carriage return before it. -/
theorem foldReturns_newline {r : Text} (h : '\n' ∉ r) :
    foldReturns (r ++ ['\n']) = withoutReturn r ++ ['\n'] := by
  induction r with
  | nil => rfl
  | cons c r ih =>
      simp only [List.mem_cons, not_or] at h
      cases r with
      | nil =>
          by_cases hreturn : c = '\r'
          · subst hreturn
            rfl
          · show foldReturns (c :: ['\n']) = _
            rw [foldReturns_cons fun hc => absurd hc hreturn]
            simp [withoutReturn, hreturn, foldReturns]
      | cons d r =>
          have hd : d ≠ '\n' := fun hd => h.2 (by simp [hd])
          have hfold : foldReturns (c :: (d :: r ++ ['\n'])) = c :: foldReturns (d :: r ++ ['\n']) :=
            foldReturns_cons fun _ => by simpa using hd
          rw [List.cons_append, hfold, ih h.2, withoutReturn_cons, List.cons_append]

/-- Taking off a carriage return adds no character. -/
theorem mem_of_withoutReturn {r : Text} {c : Char} (h : c ∈ withoutReturn r) : c ∈ r := by
  unfold withoutReturn at h
  split at h
  · exact List.dropLast_subset r h
  · exact h

/-- The output of one line, with its line end or without. -/
theorem shellOutput_line {r : Text} (h : '\n' ∉ r) :
    shellOutput r = r ∧ shellOutput (r ++ ['\n']) = withoutReturn r := by
  have hline : ∀ l : Text, '\n' ∉ l →
      ((l.rdropWhile (· == '\n')).map fun c => if c = '\n' then ' ' else c) = l := by
    intro l hl
    have hdrop : l.rdropWhile (· == '\n') = l := by
      rw [List.rdropWhile_eq_self_iff]
      intro hne hlast
      exact hl (by simpa using (beq_iff_eq.mp hlast) ▸ List.getLast_mem hne)
    rw [hdrop]
    refine (List.map_congr_left fun c hc => ?_).trans (List.map_id l)
    have hne : c ≠ '\n' := fun hne => hl (hne ▸ hc)
    rw [if_neg hne, id]
  constructor
  · rw [shellOutput, foldReturns_line h, hline r h]
  · rw [shellOutput, foldReturns_newline h, List.rdropWhile_concat_pos _ _ _ (by rfl), hline]
    exact fun hmem => h (mem_of_withoutReturn hmem)

/-- The first line of a text, alone and with others behind it. -/
theorem headLine_line {r : Text} (h : '\n' ∉ r) (rest : Text) :
    headLine r = r ∧ headLine (r ++ '\n' :: rest) = r ++ ['\n'] := by
  induction r with
  | nil => exact ⟨rfl, rfl⟩
  | cons c r ih =>
      simp only [List.mem_cons, not_or] at h
      obtain ⟨hhead, htail⟩ := ih h.2
      constructor
      · rw [headLine, if_neg (Ne.symm h.1), hhead]
      · rw [List.cons_append, headLine, if_neg (Ne.symm h.1), htail, List.cons_append]

/-- The first line of the output comes from the first line that is edited. -/
theorem shellOutput_sedLines {lines : List Text} (h : ∀ l ∈ lines, '\n' ∉ l) :
    shellOutput (headLine (sedLines lines)) = versionOf lines := by
  induction lines with
  | nil => rfl
  | cons line rest ih =>
      obtain ⟨hline, hrest⟩ := List.forall_mem_cons.mp h
      cases hedited : edited line with
      | none =>
          cases rest with
          | nil =>
              simp only [sedLines, versionOf, hedited]
              rfl
          | cons next rest =>
              simp only [sedLines, versionOf, hedited]
              exact ih hrest
      | some r =>
          have hr : '\n' ∉ r := fun hmem => hline (mem_of_edited hedited hmem)
          cases rest with
          | nil =>
              simp only [sedLines, versionOf, hedited, Option.getD_some]
              rw [(headLine_line hr []).1, (shellOutput_line hr).1]
          | cons next rest =>
              simp only [sedLines, versionOf, hedited, Option.map_some, Option.getD_some,
                List.append_assoc, List.singleton_append]
              rw [(headLine_line hr _).2, (shellOutput_line hr).2]

/-- **The Makefile's version** is that of the first line that is edited. -/
theorem makeVersion_eq (file : Text) : makeVersion file = versionOf (file.splitOn '\n') := by
  obtain ⟨lines, last, rfl, hlines, hlast⟩ := exists_unlines file
  have hsplit := splitOn_unlines hlines last
  rw [List.splitOn_eq_singleton hlast] at hsplit
  rw [makeVersion, sed, hsplit]
  apply shellOutput_sedLines
  intro l hl
  rcases List.mem_append.mp hl with hl | hl
  · exact hlines l hl
  · rwa [List.mem_singleton.mp hl]

/-- A first line is edited or the rest is searched. -/
theorem versionOf_cons (line : Text) {rest : List Text} (h : rest ≠ []) :
    versionOf (line :: rest) = match edited line with
      | some r => withoutReturn r
      | none => versionOf rest := by
  rw [versionOf]
  exact h

/-- Lines that are not edited do not count. -/
theorem versionOf_append_none {lines rest : List Text} (h : ∀ l ∈ lines, edited l = none)
    (hrest : rest ≠ []) : versionOf (lines ++ rest) = versionOf rest := by
  induction lines with
  | nil => rfl
  | cons l lines ih =>
      obtain ⟨hl, hlines⟩ := List.forall_mem_cons.mp h
      rw [List.cons_append, versionOf_cons l (List.append_ne_nil_of_right_ne_nil lines hrest), hl]
      exact ih hlines

/-- Behind a line that is edited, nothing counts. -/
theorem versionOf_append_some {lines rest rest' : List Text} {l : Text} (hl : l ∈ lines)
    (hedited : edited l ≠ none) (hrest : rest ≠ []) (hrest' : rest' ≠ []) :
    versionOf (lines ++ rest) = versionOf (lines ++ rest') := by
  induction lines with
  | nil => simp at hl
  | cons l' lines ih =>
      rw [List.cons_append, List.cons_append,
        versionOf_cons l' (List.append_ne_nil_of_right_ne_nil lines hrest),
        versionOf_cons l' (List.append_ne_nil_of_right_ne_nil lines hrest')]
      cases hl' : edited l' with
      | some r => rfl
      | none =>
          rcases List.mem_cons.mp hl with rfl | hl
          · exact absurd hl' hedited
          · exact ih hl

/-! ## A place in a file -/

/-- A line that `sed` edits: it begins with an opening and has another quote. -/
def VersionLine (line : Text) : Prop :=
  ∃ w rest, LineOpening w ∧ line = w ++ rest ∧ quote ∈ rest

/-- Exactly the lines that are no version lines are left alone. -/
theorem edited_eq_none {line : Text} : edited line = none ↔ ¬ VersionLine line := by
  rw [← not_iff_not, not_not, ← ne_eq, Option.ne_none_iff_exists']
  constructor
  · rintro ⟨r, hr⟩
    obtain ⟨w, x, y, hw, hline, -, -⟩ := edited_eq_some.mp hr
    exact ⟨w, x ++ quote :: y, hw, by rw [hline, List.append_assoc], by simp⟩
  · rintro ⟨w, rest, hw, rfl, hrest⟩
    -- the last quote, rather than any
    obtain ⟨y, x, hreverse, hy⟩ := List.eq_append_cons_of_mem (List.mem_reverse.mpr hrest)
    have hsplit : rest = x.reverse ++ quote :: y.reverse := by
      simpa using congrArg List.reverse hreverse
    exact ⟨_, edited_eq_some.mpr
      ⟨w, x.reverse, y.reverse, hw, by rw [hsplit, List.append_assoc], by simpa using hy, rfl⟩⟩

/-- The value behind `before` and in front of `quote :: behind` is on the line that counts,
right behind its opening, and nothing else is on the line behind its closing quote. -/
structure OnVersionLine (before behind : Text) : Prop where
  line : ∃ lines w, before = unlines lines ++ w ∧ LineOpening w ∧
    ∀ l ∈ lines, '\n' ∉ l ∧ ¬ VersionLine l
  ends : behind = [] ∨ (∃ rest, behind = '\n' :: rest) ∨ ∃ rest, behind = '\r' :: '\n' :: rest

/-- The lines of a file around a place. -/
theorem splitOn_place {lines : List Text} (h : ∀ l ∈ lines, '\n' ∉ l) (behind : Text) :
    ∃ line later, '\n' ∉ line ∧
      (later = [] ∧ behind = line ∨ later ≠ [] ∧ ∃ rest, behind = line ++ '\n' :: rest) ∧
      ∀ x, '\n' ∉ x → (unlines lines ++ (x ++ behind)).splitOn '\n' =
        lines ++ (x ++ line) :: later := by
  obtain ⟨ls, last, rfl, hls, hlast⟩ := exists_unlines behind
  cases ls with
  | nil =>
      refine ⟨last, [], hlast, Or.inl ⟨rfl, rfl⟩, fun x hx => ?_⟩
      rw [splitOn_unlines h]
      have hmem : '\n' ∉ x ++ last := by
        simp [hx, hlast]
      rw [show x ++ (unlines [] ++ last) = x ++ last from rfl, List.splitOn_eq_singleton hmem]
  | cons l ls =>
      obtain ⟨hl, hls⟩ := List.forall_mem_cons.mp hls
      refine ⟨l, (unlines ls ++ last).splitOn '\n', hl,
        Or.inr ⟨List.splitOn_ne_nil _ _, unlines ls ++ last, by simp [unlines]⟩, fun x hx => ?_⟩
      have hmem : '\n' ∉ x ++ l := by
        simp [hx, hl]
      rw [splitOn_unlines h, ← List.splitOn_append_cons_self_of_not_mem hmem]
      simp [unlines]

/-- A value on the version line is the version. -/
theorem makeVersion_of_onVersionLine {before behind x : Text} (h : OnVersionLine before behind)
    (hline : '\n' ∉ x) (hreturn : '\r' ∉ x) :
    makeVersion (before ++ x ++ quote :: behind) = x := by
  obtain ⟨⟨lines, w, rfl, hw, hlines⟩, hends⟩ := h
  obtain ⟨w', hconcat, -, hw', -⟩ := hw.eq_concat
  have hplace : '\n' ∉ w ++ x ++ [quote] := by
    have hquote : '\n' ≠ quote := by decide
    simp [hconcat, hw', hline, hquote]
  obtain ⟨b, later, hb, hlater, hsplit⟩ := splitOn_place (fun l hl => (hlines l hl).1) behind
  have hfile := hsplit _ hplace
  rw [show unlines lines ++ (w ++ x ++ [quote] ++ behind) =
    unlines lines ++ w ++ x ++ quote :: behind by simp] at hfile
  have hnone : ∀ l ∈ lines, edited l = none := fun l hl => edited_eq_none.mpr (hlines l hl).2
  rw [makeVersion_eq, hfile, versionOf_append_none hnone (by simp)]
  -- what is left of the line behind the closing quote
  have hedited : quote ∉ b → edited (w ++ x ++ [quote] ++ b) = some (x ++ b) := fun hquote =>
    edited_eq_some.mpr ⟨w, x, b, hw, by simp, hquote, rfl⟩
  have hchomp : withoutReturn x = x := by
    rw [withoutReturn, if_neg]
    exact fun hlast => hreturn (List.mem_of_getLast? hlast)
  rcases hlater with ⟨rfl, rfl⟩ | ⟨hne, rest, rfl⟩
  · have hnil : behind = [] := by
      rcases hends with rfl | ⟨rest, rfl⟩ | ⟨rest, rfl⟩
      · rfl
      · simp at hb
      · simp at hb
    subst hnil
    rw [versionOf, hedited (by simp), Option.getD_some, List.append_nil]
  · rw [versionOf_cons _ hne]
    rcases hends with hend | ⟨rest', hend⟩ | ⟨rest', hend⟩
    · simp at hend
    · have hend : b ++ '\n' :: rest = [] ++ '\n' :: rest' := hend
      obtain ⟨rfl, -⟩ := first_unique hend hb (by simp)
      rw [hedited (by simp), List.append_nil]
      exact hchomp
    · have hend : b ++ '\n' :: rest = ['\r'] ++ '\n' :: rest' := hend
      obtain ⟨rfl, -⟩ := first_unique hend hb (by decide)
      rw [hedited (by decide)]
      simp [withoutReturn]

/-- A digit is no other character. -/
theorem ne_of_isDigit {d c : Char} (hd : d.isDigit = true) (hc : c.isDigit = false) : d ≠ c := by
  rintro rfl
  rw [hd] at hc
  cases hc

/-- If only one digit stands between `last` and a quote, and `sed` leaves nothing but this digit
and perhaps a carriage return of the line, then `last` is an opening. -/
theorem opening_of_digit {last b : Text} {d : Char} (hd : d.isDigit = true) {r : Text}
    (hedited : edited (last ++ d :: quote :: b) = some r) :
    (r = [d] → LineOpening last ∧ b = []) ∧
      (r = [d, '\r'] → LineOpening last ∧ b = ['\r']) := by
  obtain ⟨w, x, y, hw, hline, hy, rfl⟩ := edited_eq_some.mp hedited
  obtain ⟨w', hconcat, -, -, hdigits⟩ := hw.eq_concat
  have hline : last ++ d :: quote :: b = w ++ (x ++ quote :: y) := by
    rw [hline, List.append_assoc]
  -- the digit stands behind the opening
  have hlast : ∃ e, last = w ++ e ∧ e ++ d :: quote :: b = x ++ quote :: y := by
    rcases header_split hline.symm with ⟨c, e, rfl, hrest⟩ | ⟨rfl, hrest⟩ | ⟨c, e, rfl, hrest⟩
    · exact ⟨c :: e, rfl, hrest.symm⟩
    · exact ⟨[], by simp, hrest.symm⟩
    · exfalso
      simp only [List.cons_append, List.cons.injEq] at hrest
      obtain ⟨rfl, -⟩ := hrest
      have hmem : d ∈ w' ++ [quote] := hconcat ▸ by simp
      rcases List.mem_append.mp hmem with hmem | hmem
      · rw [hdigits d hmem] at hd
        cases hd
      · exact absurd (List.mem_singleton.mp hmem) (ne_of_isDigit hd (by decide))
  obtain ⟨e, rfl, hrest⟩ := hlast
  have hlength : e.length + b.length + 1 = (x ++ y).length := by
    have hsum := congrArg List.length hrest
    simp only [List.length_append, List.length_cons] at hsum ⊢
    omega
  constructor
  · intro hr
    rw [hr, List.length_singleton] at hlength
    obtain rfl : e = [] := List.length_eq_zero_iff.mp (by omega)
    obtain rfl : b = [] := List.length_eq_zero_iff.mp (by omega)
    exact ⟨by simpa using hw, rfl⟩
  · intro hr
    have hlength : e.length + b.length = 1 := by
      simpa [hr] using hlength
    have hxy : (x = [] ∧ y = [d, '\r']) ∨ (x = [d] ∧ y = ['\r']) ∨ (x = [d, '\r'] ∧ y = []) := by
      rcases x with _ | ⟨x, _ | ⟨x', x''⟩⟩ <;> simp_all
    have hdq : d ≠ quote := ne_of_isDigit hd (by decide)
    have hdr : d ≠ '\r' := ne_of_isDigit hd (by decide)
    have hqr : quote ≠ '\r' := by decide
    rcases Nat.add_eq_one_iff.mp hlength with ⟨he, hb⟩ | ⟨he, hb⟩
    · obtain rfl := List.length_eq_zero_iff.mp he
      obtain ⟨c, rfl⟩ := List.length_eq_one_iff.mp hb
      rcases hxy with ⟨rfl, rfl⟩ | ⟨rfl, rfl⟩ | ⟨rfl, rfl⟩
      · simp [hdq] at hrest
      · simp only [List.nil_append, List.cons_append, List.cons.injEq, true_and] at hrest
        exact ⟨by simpa using hw, by rw [hrest.1]⟩
      · simp [hqr] at hrest
    · obtain ⟨c, rfl⟩ := List.length_eq_one_iff.mp he
      obtain rfl := List.length_eq_zero_iff.mp hb
      rcases hxy with ⟨rfl, rfl⟩ | ⟨rfl, rfl⟩ | ⟨rfl, rfl⟩
      · simp [hqr] at hrest
      · simp [hqr] at hrest
      · simp [hdr] at hrest

/-- Some two digits are both other than a given version. -/
theorem exists_two_digits (v : Text) :
    ∃ d d' : Char, d.isDigit = true ∧ d'.isDigit = true ∧ d ≠ d' ∧ [d] ≠ v ∧ [d'] ≠ v := by
  by_cases h1 : v = ['1']
  · subst h1
    exact ⟨'2', '3', by decide⟩
  · by_cases h2 : v = ['2']
    · subst h2
      exact ⟨'1', '3', by decide⟩
    · exact ⟨'1', '2', by decide, by decide, by decide, Ne.symm h1, Ne.symm h2⟩

/-- A line that is one character but for a final carriage return. -/
theorem eq_of_withoutReturn {r : Text} {d : Char} (h : withoutReturn r = [d]) :
    r = [d] ∨ r = [d, '\r'] := by
  unfold withoutReturn at h
  split at h
  · rename_i hlast
    right
    rw [← List.dropLast_append_getLast? _ hlast, h]
    rfl
  · exact Or.inl h

/-- A place that the version follows, whatever digit stands there, is on the version line. -/
theorem onVersionLine_of_follows {before behind v : Text}
    (h : ∀ d : Char, d.isDigit = true → [d] ≠ v →
      makeVersion (before ++ [d] ++ quote :: behind) = [d]) : OnVersionLine before behind := by
  obtain ⟨lines, last, rfl, hlines, hlast⟩ := exists_unlines before
  obtain ⟨b, later, hb, hlater, hsplit⟩ := splitOn_place hlines behind
  have hversion : ∀ d : Char, d.isDigit = true → [d] ≠ v →
      versionOf (lines ++ (last ++ d :: quote :: b) :: later) = [d] := by
    intro d hd hv
    have hplace : '\n' ∉ last ++ [d, quote] := by
      have hquote : '\n' ≠ quote := by decide
      have hdigit : '\n' ≠ d := (ne_of_isDigit hd (by decide)).symm
      simp [hlast, hquote, hdigit]
    have hfile := h d hd hv
    rw [makeVersion_eq, show unlines lines ++ last ++ [d] ++ quote :: behind =
      unlines lines ++ (last ++ [d, quote] ++ behind) by simp, hsplit _ hplace] at hfile
    simpa using hfile
  obtain ⟨d, d', hd, hd', hne, hv, hv'⟩ := exists_two_digits v
  -- no line before is edited, or the version would not change
  have hnone : ∀ l ∈ lines, edited l = none := by
    intro l hl
    by_contra hedited
    have hsame := versionOf_append_some hl hedited
      (List.cons_ne_nil (last ++ d :: quote :: b) later)
      (List.cons_ne_nil (last ++ d' :: quote :: b) later)
    rw [hversion d hd hv, hversion d' hd' hv'] at hsame
    exact hne (List.singleton_inj.mp hsame)
  have hplace : ∀ d : Char, d.isDigit = true → [d] ≠ v →
      versionOf ((last ++ d :: quote :: b) :: later) = [d] := by
    intro d hd hv
    rw [← versionOf_append_none hnone (List.cons_ne_nil _ _)]
    exact hversion d hd hv
  -- nor is one behind the place the first that is edited
  have hedited : ∃ c : Char, c.isDigit = true ∧ [c] ≠ v ∧
      edited (last ++ c :: quote :: b) ≠ none := by
    by_contra hall
    push Not at hall
    have hbehind : ∀ c : Char, c.isDigit = true → [c] ≠ v → versionOf later = [c] := by
      intro c hc hcv
      have hc' := hplace c hc hcv
      cases later with
      | nil => simp [versionOf, hall c hc hcv] at hc'
      | cons next later =>
          rwa [versionOf_cons _ (List.cons_ne_nil _ _), hall c hc hcv] at hc'
    exact hne (List.singleton_inj.mp ((hbehind d hd hv).symm.trans (hbehind d' hd' hv')))
  obtain ⟨c, hc, hcv, hedited⟩ := hedited
  obtain ⟨r, hr⟩ := Option.ne_none_iff_exists'.mp hedited
  obtain ⟨hplain, hreturn⟩ := opening_of_digit hc hr
  have hc' := hplace c hc hcv
  have hbefore : ∀ {w}, LineOpening w → ∃ lines' w', unlines lines ++ w = unlines lines' ++ w' ∧
      LineOpening w' ∧ ∀ l ∈ lines', '\n' ∉ l ∧ ¬ VersionLine l := fun hw =>
    ⟨lines, _, rfl, hw, fun l hl => ⟨hlines l hl, edited_eq_none.mp (hnone l hl)⟩⟩
  rcases hlater with ⟨rfl, rfl⟩ | ⟨hlater, rest, rfl⟩
  · rw [versionOf, hr, Option.getD_some] at hc'
    obtain ⟨hw, rfl⟩ := hplain hc'
    exact ⟨hbefore hw, Or.inl rfl⟩
  · rw [versionOf_cons _ hlater, hr] at hc'
    rcases eq_of_withoutReturn hc' with hc' | hc'
    · obtain ⟨hw, rfl⟩ := hplain hc'
      exact ⟨hbefore hw, Or.inr (Or.inl ⟨rest, rfl⟩)⟩
    · obtain ⟨hw, rfl⟩ := hreturn hc'
      exact ⟨hbefore hw, Or.inr (Or.inr ⟨rest, rfl⟩)⟩

end SleepBlocker.Model
