import SleepBlocker.Model.BumpVersion

/-!
# What the version pattern finds

`WORKSPACE_VERSION` reads a header, then as little as possible without an opening bracket,
then the key and its opening quote, and the value up to the next quote. `Opens` says that a
beginning of the text ends in such an opening. Whatever the text, the match that the search
prefers is the one with the shortest opening that is not followed by a quote at once
(`located_of_search`, `search_of_located`), and this depends on nothing behind the value.
-/

set_option autoImplicit false

namespace SleepBlocker.Model

open SleepBlocker.Computation

/-! ## Characters and first quotes -/

/-- An ASCII character is white space only when it is one of the six. -/
theorem isSpace_graphic (u : Unicode) {c : Char} (hc : c.toNat < 128)
    (hs : asciiSpaces.contains c.toNat = false) : u.isSpace c = false := by
  rw [u.space_ascii c hc, hs]

/-- What stands before the first occurrence of a character is determined. -/
theorem first_unique {α : Type} {x : α} {a a' b b' : List α} (h : a ++ x :: b = a' ++ x :: b')
    (ha : x ∉ a) (ha' : x ∉ a') : a = a' ∧ b = b' := by
  rcases List.append_eq_append_iff.mp h with ⟨d, rfl, hb⟩ | ⟨d, rfl, hb⟩
  · cases d with
    | nil => simpa using hb
    | cons y d =>
        simp only [List.cons_append, List.cons.injEq] at hb
        exact absurd (by simp [hb.1]) ha'
  · cases d with
    | nil => simpa [eq_comm] using hb
    | cons y d =>
        simp only [List.cons_append, List.cons.injEq] at hb
        exact absurd (by simp [hb.1]) ha

/-! ## Line ends -/

/-- Universal newlines leave no carriage return. -/
theorem carriage_universalNewlines (file : Text) : '\r' ∉ universalNewlines file := by
  fun_induction universalNewlines file with
  | case1 => simp
  | case2 rest ih => simpa using ih
  | case3 rest _ ih => simpa using ih
  | case4 c rest _ hc ih =>
      intro hmem
      rcases List.mem_cons.mp hmem with h | h
      · exact hc h.symm
      · exact ih h

/-- A text without carriage returns is read as it is. -/
theorem universalNewlines_eq_self {text : Text} (h : '\r' ∉ text) :
    universalNewlines text = text := by
  induction text with
  | nil => rfl
  | cons c text ih =>
      simp only [List.mem_cons, not_or] at h
      obtain ⟨hc, htext⟩ := h
      rw [universalNewlines, ih htext]
      · rintro rest rfl
        exact absurd rfl hc
      · rintro rfl
        exact absurd rfl hc

/-- Two texts are translated apart, unless a line end has one of its characters in each. -/
theorem universalNewlines_append {a b : Text}
    (h : a.getLast? = some '\r' → b.head? ≠ some '\n') :
    universalNewlines (a ++ b) = universalNewlines a ++ universalNewlines b := by
  have hcons : ∀ (x : Char) (rest : Text), rest.getLast? = some '\r' →
      (x :: rest).getLast? = some '\r' := by
    intro x rest hrest
    rw [List.getLast?_cons, hrest, Option.getD_some]
  fun_induction universalNewlines a with
  | case1 => rfl
  | case2 rest ih =>
      have ih := ih fun hlast => h (hcons _ _ (hcons _ _ hlast))
      simp only [List.cons_append, universalNewlines, ih]
  | case3 rest hrest ih =>
      have ih := ih fun hlast => h (hcons _ _ hlast)
      rw [List.cons_append, universalNewlines, ih, List.cons_append]
      intro rest' hsplit
      cases rest with
      | nil => exact h rfl (by rw [show b = '\n' :: rest' from hsplit]; rfl)
      | cons x rest =>
          simp only [List.cons_append, List.cons.injEq] at hsplit
          exact hrest rest (by rw [hsplit.1])
  | case4 c rest hreturn hc ih =>
      have ih := ih fun hlast => h (hcons _ _ hlast)
      rw [List.cons_append, universalNewlines, ih, List.cons_append]
      · rintro rest' rfl
        exact absurd rfl hc
      · exact fun hc' => absurd hc' hc

/-! ## The parts of the pattern -/

/-- The header of the table that holds the version. -/
def header : Text := "[workspace.package]".toList

/-- The key of the version. -/
def key : Text := "version".toList

/-- The key, the equals sign and the opening quote, with spaces only between them. -/
def Field (u : Unicode) (w : Text) : Prop :=
  ∃ s t, (∀ c ∈ s, u.isSpace c = true) ∧ (∀ c ∈ t, u.isSpace c = true) ∧
    w = key ++ s ++ '=' :: t ++ [quote]

/-- The same with the characters of a class for spaces. -/
def Assignment (k : Char → Bool) (w : Text) : Prop :=
  ∃ s t, (∀ c ∈ s, k c = true) ∧ (∀ c ∈ t, k c = true) ∧ w = key ++ s ++ '=' :: t ++ [quote]

/-- It ends with its only quote. -/
theorem Assignment.eq_concat {k : Char → Bool} {w : Text} (hw : Assignment k w)
    (hk : k quote = false) :
    ∃ w', w = w' ++ [quote] ∧ quote ∉ w' ∧ w'.head? = some 'v' ∧
      ∀ c ∈ w', c ∈ key ∨ c = '=' ∨ k c = true := by
  obtain ⟨s, t, hs, ht, rfl⟩ := hw
  have hchars : ∀ c ∈ key ++ s ++ '=' :: t, c ∈ key ∨ c = '=' ∨ k c = true := by
    intro c hc
    simp only [List.mem_append, List.mem_cons] at hc
    rcases hc with (hc | hc) | hc | hc
    · exact Or.inl hc
    · exact Or.inr (Or.inr (hs c hc))
    · exact Or.inr (Or.inl hc)
    · exact Or.inr (Or.inr (ht c hc))
  refine ⟨key ++ s ++ '=' :: t, by simp, ?_, rfl, hchars⟩
  intro hquote
  rcases hchars quote hquote with hkey | hequals | hspace
  · revert hkey
    decide
  · revert hequals
    decide
  · rw [hk] at hspace
    cases hspace

/-- What the pattern matches from the key to the quotation mark is an assignment. -/
theorem reads_assignment {k : Char → Bool} {c d : Cursor Char String} :
    (Pattern.literal key
      (.seq (.greedy k)
        (.seq (.one (· == '=')) (.seq (.greedy k) (.one (· == quote)))))).Reads c d ↔
      ∃ w rest, c.after = w ++ rest ∧ Assignment k w ∧ d = c.skip w rest := by
  constructor
  · intro hliteral
    obtain ⟨r1, hafter, d1, ⟨s, r2, hr1, hs, rfl⟩, d2, ⟨e, r3, hr2, he, rfl⟩, d3,
      ⟨t, r4, hr3, ht, rfl⟩, q, r5, hr4, hq, rfl⟩ := Pattern.reads_literal.mp hliteral
    simp only [beq_iff_eq] at he hq
    subst he hq
    refine ⟨key ++ s ++ '=' :: t ++ [quote], r5, ?_, ⟨s, t, hs, ht, rfl⟩, ?_⟩
    · simp only [Cursor.skip] at hr1 hr2 hr3 hr4
      rw [hafter, hr1, hr2, hr3, hr4]
      simp
    · simp [Cursor.skip_skip]
  · rintro ⟨w, rest, hafter, ⟨s, t, hs, ht, rfl⟩, rfl⟩
    refine Pattern.reads_literal.mpr ⟨s ++ '=' :: t ++ quote :: rest, by simp [hafter], ?_⟩
    refine ⟨_, ⟨s, '=' :: t ++ quote :: rest, by simp [Cursor.skip], hs, rfl⟩,
      _, ⟨'=', t ++ quote :: rest, by simp [Cursor.skip], by decide, rfl⟩,
      _, ⟨t, quote :: rest, by simp [Cursor.skip], ht, rfl⟩,
      quote, rest, by simp [Cursor.skip], by decide, ?_⟩
    simp [Cursor.skip_skip]

/-- `\bversion\s*=\s*"`. -/
def fieldPattern (u : Unicode) : Pattern Char String :=
  .seq (.boundary u.isWord)
    (.literal key
      (.seq (.greedy u.isSpace)
        (.seq (.one (· == '=')) (.seq (.greedy u.isSpace) (.one (· == quote))))))

/-- `(?P<version>[^"]+)(?P<tail>")`. -/
def valuePattern : Pattern Char String :=
  .seq (.group "version" (.seq (.one (· != quote)) (.greedy (· != quote))))
    (.group "tail" (.one (· == quote)))

/-- The pattern of bump-version.py, taken apart. -/
theorem workspaceVersion_eq (u : Unicode) :
    workspaceVersion u =
      .seq (.group "head" (.literal header (.seq (.lazily (· != '[')) (fieldPattern u))))
        valuePattern := rfl

/-- The opening of a field has no other quote and no bracket. -/
theorem Field.eq_concat {u : Unicode} {w : Text} (hw : Field u w) :
    ∃ w', w = w' ++ [quote] ∧ quote ∉ w' ∧ '[' ∉ w' ∧ w'.head? = some 'v' := by
  have hassignment : Assignment u.isSpace w := hw
  obtain ⟨w', hconcat, hquote, hv, hchars⟩ :=
    hassignment.eq_concat (isSpace_graphic u (by decide) (by decide))
  refine ⟨w', hconcat, hquote, fun hbracket => ?_, hv⟩
  rcases hchars '[' hbracket with hkey | hequals | hspace
  · revert hkey
    decide
  · revert hequals
    decide
  · rw [isSpace_graphic u (by decide) (by decide)] at hspace
    cases hspace

/-- A field is read at a boundary, and as a whole. -/
theorem reads_fieldPattern {u : Unicode} {c d : Cursor Char String} :
    (fieldPattern u).Reads c d ↔ c.atBoundary u.isWord = true ∧
      ∃ field rest, c.after = field ++ rest ∧ Field u field ∧ d = c.skip field rest := by
  constructor
  · rintro ⟨_, ⟨hboundary, rfl⟩, hfield⟩
    exact ⟨hboundary, reads_assignment.mp hfield⟩
  · rintro ⟨hboundary, hfield⟩
    exact ⟨c, ⟨hboundary, rfl⟩, reads_assignment.mpr hfield⟩

/-- The cursor at the end of a value. -/
def valueEnd (c : Cursor Char String) (v post : Text) : Cursor Char String :=
  { c.skip (v ++ [quote]) post with
    groups := ("tail", [quote]) :: ("version", v) :: c.groups }

/-- The value is read up to the first quote, and is not empty. -/
theorem reads_valuePattern {c m : Cursor Char String} :
    valuePattern.Reads c m ↔
      ∃ v post, c.after = v ++ quote :: post ∧ v ≠ [] ∧ quote ∉ v ∧ m = valueEnd c v post := by
  constructor
  · rintro ⟨_, ⟨_, hvalue, rfl⟩, _, ⟨q, post, hrest, hq, rfl⟩, rfl⟩
    obtain ⟨v, rest, hv, hafter, hchars, rfl⟩ := Pattern.reads_oneOrMore.mp hvalue
    simp only [bne_iff_ne, beq_iff_eq] at hchars hq
    subst hq
    have hrest : rest = quote :: post := hrest
    refine ⟨v, post, by rw [hafter, hrest], hv, fun hmem => hchars _ hmem rfl, ?_⟩
    rw [Cursor.capture_skip, Cursor.capture_skip, hrest]
    simp [valueEnd, Cursor.skip]
  · rintro ⟨v, post, hafter, hv, hquote, rfl⟩
    have hchars : ∀ y ∈ v, (y != quote) = true := by
      intro y hy
      rw [bne_iff_ne]
      rintro rfl
      exact hquote hy
    refine ⟨_, ⟨_, Pattern.reads_oneOrMore.mpr ⟨v, quote :: post, hv, hafter, hchars, rfl⟩, rfl⟩,
      _, ⟨quote, post, rfl, by simp, rfl⟩, ?_⟩
    rw [Cursor.capture_skip, Cursor.capture_skip]
    simp [valueEnd, Cursor.skip]

/-- A text that does not begin with a quote and has one further on is read as a value. -/
theorem isSome_value {c : Cursor Char String} {x : Char} {rest : Text}
    (hafter : c.after = x :: rest) (hx : x ≠ quote) (hrest : quote ∈ rest) :
    (valuePattern.run some c).isSome = true := by
  obtain ⟨w, post, rfl, hw⟩ := List.eq_append_cons_of_mem hrest
  refine Pattern.isSome_run (reads_valuePattern.mpr ⟨x :: w, post, hafter, by simp, ?_, rfl⟩) rfl
  intro hmem
  rcases List.mem_cons.mp hmem with h | h
  · exact hx h.symm
  · exact hw h

/-! ## Openings -/

/-- A header after `pre`, a stretch without a bracket, and a field at a word boundary. -/
structure Opening (u : Unicode) (pre skip field : Text) : Prop where
  bracket : '[' ∉ skip
  isField : Field u field
  boundary : ({ before := (pre ++ header ++ skip).reverse, after := field } :
    Cursor Char String).atBoundary u.isWord = true

/-- The beginning `w` of a text ends in an opening. -/
def Opens (u : Unicode) (w : Text) : Prop :=
  ∃ pre skip field, w = pre ++ header ++ skip ++ field ∧ Opening u pre skip field

/-- The pattern finds the value `v` behind the opening `w`. -/
structure Located (u : Unicode) (text w v post : Text) : Prop where
  split : text = w ++ v ++ quote :: post
  opens : Opens u w
  nonempty : v ≠ []
  unquoted : quote ∉ v
  /-- Every shorter opening is that of an empty string. -/
  first : ∀ x y rest, w = x ++ y :: rest → Opens u x → y = quote

/-- What is found behind the head that has been read since `s`. -/
def valueAfter (s d : Cursor Char String) : Option (Cursor Char String) :=
  valuePattern.run some (d.capture "head" s)

/-- The field of an opening is read, and then the value. -/
theorem isSome_field {u : Unicode} {s c : Cursor Char String} {field rest : Text} {y : Char}
    (hboundary : c.atBoundary u.isWord = true) (hafter : c.after = field ++ y :: rest)
    (hfield : Field u field) (hy : y ≠ quote) (hrest : quote ∈ rest) :
    ((fieldPattern u).run (valueAfter s) c).isSome = true := by
  apply Pattern.isSome_run
    (reads_fieldPattern.mpr ⟨hboundary, field, y :: rest, hafter, hfield, rfl⟩)
  exact isSome_value rfl hy hrest

/-- Whether a place is at a boundary depends on the characters beside it. -/
theorem atBoundary_append {u : Unicode} {before field rest : Text}
    {groups : List (String × Text)} (hfield : Field u field) :
    (⟨before, field ++ rest, groups⟩ : Cursor Char String).atBoundary u.isWord =
      (⟨before, field, []⟩ : Cursor Char String).atBoundary u.isWord := by
  obtain ⟨field', rfl, -, -, hv⟩ := hfield.eq_concat
  cases field' with
  | nil => simp at hv
  | cons x field' => simp [Cursor.atBoundary]

/-- The pattern matches behind a header, after the shortest stretch without a bracket after
which a field and a value can be read. -/
theorem run_workspaceVersion {u : Unicode} {s m : Cursor Char String} :
    (workspaceVersion u).run some s = some m ↔
      ∃ skip r, s.after = header ++ skip ++ r ∧ '[' ∉ skip ∧
        (fieldPattern u).run (valueAfter s) (s.skip (header ++ skip) r) = some m ∧
        ∀ v x w, skip = v ++ x :: w →
          (fieldPattern u).run (valueAfter s) (s.skip (header ++ v) (x :: w ++ r)) = none := by
  rw [workspaceVersion_eq]
  show (Pattern.literal header _).run (valueAfter s) s = some m ↔ _
  rw [Pattern.run_literal_eq_some]
  simp only [Pattern.run, Pattern.runLazily_eq_some]
  constructor
  · rintro ⟨rest, hafter, skip, r, hrest, hskip, hm, hfirst⟩
    refine ⟨skip, r, ?_, ?_, ?_, ?_⟩
    · rw [hafter, show rest = skip ++ r from hrest, List.append_assoc]
    · intro hmem
      simpa using hskip _ hmem
    · simpa [Cursor.skip] using hm
    · intro v x w hsplit
      simpa [Cursor.skip] using hfirst v x w hsplit
  · rintro ⟨skip, r, hafter, hskip, hm, hfirst⟩
    refine ⟨skip ++ r, by rw [hafter, List.append_assoc], skip, r, rfl, ?_, ?_, ?_⟩
    · intro x hx
      simp only [bne_iff_ne, ne_eq]
      rintro rfl
      exact hskip hx
    · simpa [Cursor.skip] using hm
    · intro v x w hsplit
      simpa [Cursor.skip] using hfirst v x w hsplit

/-- From a position at which an opening begins that a value follows, the pattern matches. -/
theorem isSome_opening {u : Unicode} {pre skip field rest : Text} {y : Char}
    (h : Opening u pre skip field) (hy : y ≠ quote) (hrest : quote ∈ rest) :
    ((workspaceVersion u).run some
      ⟨pre.reverse, header ++ skip ++ field ++ y :: rest, []⟩).isSome = true := by
  set s : Cursor Char String := ⟨pre.reverse, header ++ skip ++ field ++ y :: rest, []⟩ with hs
  set d := (s.skip (header ++ skip) (field ++ y :: rest)).skip field (y :: rest) with hd
  -- the head can be read, and a value behind it
  have hhead : (Pattern.literal header (.seq (.lazily (· != '[')) (fieldPattern u))).Reads s d := by
    refine Pattern.reads_literal.mpr ⟨skip ++ field ++ y :: rest, by simp [hs], ?_⟩
    refine ⟨s.skip (header ++ skip) (field ++ y :: rest),
      ⟨skip, field ++ y :: rest, by simp [Cursor.skip], ?_, by rw [Cursor.skip_skip]⟩,
      reads_fieldPattern.mpr ⟨?_, field, y :: rest, rfl, h.isField, rfl⟩⟩
    · intro x hx
      simp only [bne_iff_ne, ne_eq]
      rintro rfl
      exact h.bracket hx
    · rw [Cursor.skip, atBoundary_append h.isField]
      simpa [hs] using h.boundary
  have hvalue : (valuePattern.run some (d.capture "head" s)).isSome = true :=
    isSome_value rfl hy hrest
  obtain ⟨m, hm⟩ := Option.isSome_iff_exists.mp hvalue
  obtain ⟨m', hreads, -⟩ := Pattern.run_sound _ hm
  rw [workspaceVersion_eq]
  exact Pattern.isSome_run ⟨_, ⟨d, hhead, rfl⟩, hreads⟩ rfl

/-! ## The match that is preferred -/

/-- Two openings in one text: the header of the second begins before, with, or after that of
the first. -/
theorem header_split {pre pre' t t' : Text} (h : pre' ++ t' = pre ++ t) :
    (∃ x d, pre = pre' ++ x :: d ∧ t' = x :: d ++ t) ∨ (pre' = pre ∧ t' = t) ∨
      (∃ x d, pre' = pre ++ x :: d ∧ t = x :: d ++ t') := by
  rcases List.append_eq_append_iff.mp h with ⟨d, hpre, ht⟩ | ⟨d, hpre, ht⟩
  · cases d with
    | nil => exact Or.inr (Or.inl ⟨by simpa using hpre.symm, by simpa using ht⟩)
    | cons x d => exact Or.inl ⟨x, d, hpre, ht⟩
  · cases d with
    | nil => exact Or.inr (Or.inl ⟨by simpa using hpre, by simpa using ht.symm⟩)
    | cons x d => exact Or.inr (Or.inr ⟨x, d, hpre, ht⟩)

/-- The only bracket of an opening is the one it begins with. -/
theorem bracket_of_opening {u : Unicode} {pre skip field : Text} (h : Opening u pre skip field) :
    ∃ t, header ++ skip ++ field = '[' :: t ∧ '[' ∉ t := by
  obtain ⟨field', hfield, -, hbracket, -⟩ := h.isField.eq_concat
  refine ⟨"workspace.package]".toList ++ skip ++ field, rfl, ?_⟩
  simp only [List.mem_append, not_or, hfield]
  exact ⟨⟨by decide, h.bracket⟩, hbracket, by decide⟩

/-- An opening ends with the first quote behind its stretch. -/
theorem quote_of_field {u : Unicode} {field field' d rest : Text} (hfield : Field u field)
    (hfield' : Field u field') (h : field = d ++ field' ++ rest) : rest = [] := by
  obtain ⟨f, rfl, hquote, -, -⟩ := hfield.eq_concat
  obtain ⟨f', rfl, -, -, -⟩ := hfield'.eq_concat
  by_contra hrest
  obtain ⟨r, x, rfl⟩ := List.eq_nil_or_concat rest |>.resolve_left hrest
  have hf : f = d ++ (f' ++ [quote]) ++ r := by
    have hconcat : f ++ [quote] = (d ++ (f' ++ [quote]) ++ r) ++ [x] := by
      simpa using h
    exact (List.append_inj' hconcat rfl).1
  exact hquote (by simp [hf])

/-- An opening of a value that is shorter than the one found would have been found, because it
begins at an earlier position or has a shorter stretch. -/
theorem first_of_preferred {u : Unicode} {s : Cursor Char String} {pre skip field behind : Text}
    (h : Opening u pre skip field) (hbehind : quote ∈ behind)
    (hs : s.before = pre.reverse)
    (hfirst : ∀ v x w, pre = v ++ x :: w → (workspaceVersion u).run some
      ⟨v.reverse, x :: w ++ (header ++ skip ++ field ++ behind), []⟩ = none)
    (hlazy : ∀ v x w, skip = v ++ x :: w → (fieldPattern u).run (valueAfter s)
      (s.skip (header ++ v) (x :: w ++ (field ++ behind))) = none)
    {x rest : Text} {y : Char} (hsplit : pre ++ header ++ skip ++ field = x ++ y :: rest)
    (hx : Opens u x) : y = quote := by
  obtain ⟨pre', skip', field', rfl, h'⟩ := hx
  by_contra hy
  have hquote : quote ∈ rest ++ behind := List.mem_append_right rest hbehind
  have hheaders : pre' ++ (header ++ skip' ++ field' ++ y :: rest) =
      pre ++ (header ++ skip ++ field) := by
    simpa using hsplit.symm
  rcases header_split hheaders with ⟨z, d, hpre, ht⟩ | ⟨rfl, ht⟩ | ⟨z, d, -, ht⟩
  · -- it begins at an earlier position
    have hnone := hfirst pre' z d hpre
    rw [show z :: d ++ (header ++ skip ++ field ++ behind) =
      header ++ skip' ++ field' ++ y :: (rest ++ behind) by
        rw [← List.append_assoc, ← ht]
        simp] at hnone
    have hsome := isSome_opening h' hy hquote
    rw [hnone] at hsome
    cases hsome
  · have hskips : skip' ++ (field' ++ y :: rest) = skip ++ field := by
      simpa using ht
    rcases header_split hskips with ⟨z, e, hskip, hfield⟩ | ⟨-, hfield⟩ | ⟨z, e, -, hfield⟩
    · -- it has a shorter stretch
      have hnone := hlazy skip' z e hskip
      rw [show z :: e ++ (field ++ behind) = field' ++ y :: (rest ++ behind) by
        rw [← List.append_assoc, ← hfield]
        simp] at hnone
      have hboundary : (s.skip (header ++ skip') (field' ++ y :: (rest ++ behind))).atBoundary
          u.isWord = true := by
        rw [Cursor.skip, atBoundary_append h'.isField, hs]
        simpa using h'.boundary
      have hsome := isSome_field (s := s) hboundary rfl h'.isField hy hquote
      rw [hnone] at hsome
      cases hsome
    · have hrest := quote_of_field (d := []) h.isField h'.isField (by simpa using hfield.symm)
      cases hrest
    · have hrest := quote_of_field (d := z :: e) h.isField h'.isField (by simpa using hfield)
      cases hrest
  · -- its header would begin inside the opening
    obtain ⟨t, hopening, hbracket⟩ := bracket_of_opening h
    rw [hopening] at ht
    simp only [List.cons_append, List.cons.injEq] at ht
    have hheader : '[' ∈ header := by decide
    apply hbracket
    rw [ht.2]
    simp [hheader]

/-- **What a search finds.** The match lies behind the shortest opening that is not followed
by a quote at once, and its groups are the opening from its header on, the value and the
closing quote. -/
theorem located_of_search {u : Unicode} {text : Text} {s m : Cursor Char String}
    (h : (workspaceVersion u).search text = some (s, m)) :
    ∃ w v post, Located u text w v post ∧ m.group "version" = some v ∧
      m.group "tail" = some [quote] ∧ m.after = post ∧
      ∃ head, m.group "head" = some head ∧ s.before.reverse ++ head = w := by
  obtain ⟨pre, rest, htext, rfl, hm, hfirst⟩ := Pattern.search_eq_some.mp h
  set s : Cursor Char String := ⟨pre.reverse, rest, []⟩ with hs
  obtain ⟨skip, r, hafter, hskip, hm, hlazy⟩ := run_workspaceVersion.mp hm
  obtain ⟨d, hd, hvalue⟩ := Pattern.run_sound _ hm
  obtain ⟨hboundary, field, r', hr, hfield, rfl⟩ := reads_fieldPattern.mp hd
  obtain ⟨m', hm', hsome⟩ := Pattern.run_sound _ hvalue
  obtain ⟨v, post, hr', hv, hquote, rfl⟩ := reads_valuePattern.mp hm'
  simp only [Option.some.injEq] at hsome
  subst hsome
  have hr : r = field ++ r' := hr
  have hr' : r' = v ++ quote :: post := hr'
  subst hr hr'
  have hrest : rest = header ++ skip ++ (field ++ (v ++ quote :: post)) := hafter
  have hopening : Opening u pre skip field := by
    refine ⟨hskip, hfield, ?_⟩
    rw [Cursor.skip, atBoundary_append hfield] at hboundary
    simpa [hs] using hboundary
  refine ⟨pre ++ header ++ skip ++ field, v, post, ⟨?_, ⟨pre, skip, field, rfl, hopening⟩, hv, hquote,
    ?_⟩, ?_, ?_, rfl, header ++ skip ++ field, ?_, ?_⟩
  · rw [htext, hrest]
    simp
  · intro x y behind hsplit hx
    have hbehind : quote ∈ v ++ quote :: post := by simp
    refine first_of_preferred (s := s) hopening hbehind rfl ?_ ?_ hsplit hx
    · intro v' x' w hpre
      have hnone := hfirst v' x' w hpre
      simpa [hrest] using hnone
    · exact hlazy
  · rfl
  · rfl
  · rw [Cursor.skip_skip, Cursor.capture_skip]
    rfl
  · simp [hs]

/-- An opening with a value behind it is enough for a match. -/
theorem search_of_located {u : Unicode} {text w v post : Text} (h : Located u text w v post) :
    ∃ s m, (workspaceVersion u).search text = some (s, m) := by
  obtain ⟨pre, skip, field, hw, hopening⟩ := h.opens
  obtain ⟨y, v', rfl⟩ := List.exists_cons_of_ne_nil h.nonempty
  have hy : y ≠ quote := fun hy => h.unquoted (by simp [hy])
  have hrest : quote ∈ v' ++ quote :: post := by simp
  have hmatch := isSome_opening hopening hy hrest
  have htext : text = pre ++ (header ++ skip ++ field ++ y :: (v' ++ quote :: post)) := by
    rw [h.split, hw]
    simp
  obtain ⟨⟨s, m⟩, hsm⟩ := Option.isSome_iff_exists.mp (Pattern.isSome_search htext hmatch)
  exact ⟨s, m, hsm⟩

/-- There is only one opening to find. -/
theorem located_unique {u : Unicode} {text w v post w' v' post' : Text}
    (h : Located u text w v post) (h' : Located u text w' v' post') :
    w = w' ∧ v = v' ∧ post = post' := by
  have hsplit : w' ++ (v' ++ quote :: post') = w ++ (v ++ quote :: post) := by
    simpa using h'.split.symm.trans h.split
  rcases header_split hsplit with ⟨x, d, hw, hv⟩ | ⟨rfl, hv⟩ | ⟨x, d, hw, hv⟩
  · -- the first would be an opening of an empty string
    have hx := h.first w' x d hw h'.opens
    obtain ⟨y, t, rfl⟩ := List.exists_cons_of_ne_nil h'.nonempty
    simp only [List.cons_append, List.cons.injEq] at hv
    exact absurd (by simp [hv.1, hx]) h'.unquoted
  · obtain ⟨rfl, rfl⟩ := first_unique hv.symm h.unquoted h'.unquoted
    exact ⟨rfl, rfl, rfl⟩
  · have hx := h'.first w x d hw h.opens
    obtain ⟨y, t, rfl⟩ := List.exists_cons_of_ne_nil h.nonempty
    simp only [List.cons_append, List.cons.injEq] at hv
    exact absurd (by simp [hv.1, hx]) h.unquoted

/-! ## Reading and writing -/

/-- A value of another version is found at the same place. -/
theorem located_replace {u : Unicode} {text w v post new : Text} (h : Located u text w v post)
    (hnew : new ≠ []) (hquote : quote ∉ new) :
    Located u (w ++ new ++ quote :: post) w new post :=
  ⟨rfl, h.opens, hnew, hquote, h.first⟩

/-- `read_version` returns the value that is found. -/
theorem readVersion_eq_ok {u : Unicode} {file v : Text} :
    readVersion u file = .ok v ↔ ∃ w post, Located u (readText file) w v post := by
  constructor
  · intro h
    unfold readVersion at h
    split at h
    · cases h
    · rename_i s m hsearch
      obtain ⟨w, v', post, hlocated, hversion, -⟩ := located_of_search hsearch
      simp only [hversion, Option.getD_some, Except.ok.injEq] at h
      subst h
      exact ⟨w, post, hlocated⟩
  · rintro ⟨w, post, h⟩
    obtain ⟨s, m, hsearch⟩ := search_of_located h
    obtain ⟨w', v', post', hlocated, hversion, -⟩ := located_of_search hsearch
    obtain ⟨-, rfl, -⟩ := located_unique h hlocated
    unfold readVersion
    simp only [hsearch, hversion, Option.getD_some]

/-- The substitution replaces the value and nothing else. -/
theorem substituted_of_located {u : Unicode} {text w v post : Text} (h : Located u text w v post)
    (new : Text) : substituted u new text = w ++ new ++ quote :: post := by
  obtain ⟨s, m, hsearch⟩ := search_of_located h
  obtain ⟨w', v', post', hlocated, -, htail, hafter, head, hhead, hw⟩ := located_of_search hsearch
  obtain ⟨rfl, -, rfl⟩ := located_unique h hlocated
  unfold substituted
  simp only [hsearch, hhead, htail, hafter, Option.getD_some, hw]
  simp

end SleepBlocker.Model
