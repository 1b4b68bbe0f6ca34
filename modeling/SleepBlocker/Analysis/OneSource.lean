import SleepBlocker.Computation.Toml
import SleepBlocker.Interface.VersionLine

/-!
# One source for the version

`bump-version.py` and the Makefile each have a pattern of their own for the version in
`Cargo.toml`, and cargo has TOML's reading of the file. `one_source_iff` says for which files
the three agree: the two patterns have to find the key first, and the value has to be written
plainly, with nothing behind it on its line.
-/

set_option autoImplicit false

namespace SleepBlocker.Analysis

open SleepBlocker.Computation SleepBlocker.Model

/-- A `Cargo.toml`, seen from the string `version` in its table `[workspace.package]`. -/
structure VersionKey extends Toml.Entry where
  isVersion : toEntry.path = some ["workspace".toList, "package".toList, "version".toList]

/-- What is read is the value of exactly this key: `read_version` and `VERSION` yield it, any
other version is written in its place, and `VERSION` is then that version. -/
structure OneSource (u : Unicode) (k : VersionKey) : Prop where
  read : readVersion u k.text = .ok k.string.value
  packaged : makeVersion k.text = k.string.value
  written : ∀ w : Toml.Word, w.text ≠ k.string.value →
    writeVersion u w.text k.text = .ok (readText (k.put w).text)
  follows : ∀ w : Toml.Word, w.text ≠ k.string.value → makeVersion (k.put w).text = w.text

/-- The key is the first that either pattern finds, and its value is written plainly. -/
structure FirstAndPlain (u : Unicode) (k : VersionKey) : Prop where
  basic : k.string.quoting = .basic
  verbatim : k.string.raw = k.string.value
  nonempty : k.string.value ≠ []
  unquoted : quote ∉ k.string.value
  /-- A header `[workspace.package]` stands before the key, and no bracket between them. -/
  opens : Opens u (readText k.opening)
  /-- No other string has such an opening before, unless it is empty. -/
  first : ∀ x y rest, readText k.opening = x ++ y :: rest → Opens u x → y = quote
  /-- The line is the first that begins with the key and has a string, and ends with it. -/
  onLine : OnVersionLine k.opening k.trail

/-! ## The text around the value -/

/-- A digit as a word. -/
def digitWord (d : Char) (hd : d.isDigit = true) : Toml.Word where
  text := [d]
  nonempty := by simp
  chars := by simp [Toml.isWordChar, Char.isAlphanum, hd]

/-- The opening of an entry ends with its quotation mark. -/
theorem getLast_opening (e : Toml.Entry) : e.opening.getLast? = some e.string.quoting.mark := by
  have hdelim : e.string.quoting.delim.getLast? = some e.string.quoting.mark := by
    cases e.string.quoting <;> rfl
  rw [Toml.Entry.opening, List.getLast?_append, hdelim, Option.some_or]

/-- A delimiter begins with its quotation mark. -/
theorem head_delim (q : Toml.Quoting) (rest : Text) : (q.delim ++ rest).head? = some q.mark := by
  cases q <;> rfl

/-- A quotation mark ends no line. -/
theorem mark_ne (q : Toml.Quoting) : q.mark ≠ '\n' ∧ q.mark ≠ '\r' := by
  cases q <;> decide

/-- The parts of the file keep their line ends apart. -/
theorem readText_parts (e : Toml.Entry) (x : Text) :
    readText (e.opening ++ x ++ (e.string.quoting.delim ++ e.trail)) =
      readText e.opening ++ readText x ++ readText (e.string.quoting.delim ++ e.trail) := by
  obtain ⟨hline, hreturn⟩ := mark_ne e.string.quoting
  unfold readText
  rw [List.append_assoc, universalNewlines_append, universalNewlines_append, List.append_assoc]
  · rw [head_delim]
    intro _ h
    exact hline (Option.some.inj h)
  · rw [getLast_opening]
    intro h
    exact absurd (Option.some.inj h) hreturn

/-- A word has no line ends. -/
theorem line_of_word (w : Toml.Word) : '\n' ∉ w.text ∧ '\r' ∉ w.text := by
  constructor
  · intro h
    exact Toml.ne_of_isWordChar (w.chars _ h) (by decide) rfl
  · intro h
    exact Toml.ne_of_isWordChar (w.chars _ h) (by decide) rfl

/-- A place at which either of two characters can stand is determined. -/
theorem place_unique {a a' b b' : Text} {d d' : Char} (hne : d ≠ d')
    (h : a ++ d :: b = a' ++ d :: b') (h' : a ++ d' :: b = a' ++ d' :: b') :
    a = a' ∧ b = b' := by
  have hbefore : ∀ {a a' b b' : Text}, a ++ d :: b = a' ++ d :: b' →
      a ++ d' :: b = a' ++ d' :: b' → ∀ x e, a' ≠ a ++ x :: e := by
    rintro a a' b b' h h' x e rfl
    simp only [List.append_assoc, List.cons_append, List.append_cancel_left_eq,
      List.cons.injEq] at h h'
    exact hne (h.1.trans h'.1.symm)
  rcases header_split h with ⟨x, e, ha, -⟩ | ⟨rfl, hb⟩ | ⟨x, e, ha, -⟩
  · exact absurd ha (hbefore h h' x e)
  · exact ⟨rfl, (List.cons.inj hb).2⟩
  · exact absurd ha (hbefore h.symm h'.symm x e)

/-! ## Enough -/

variable {u : Unicode} {k : VersionKey}

/-- The text of a file whose key has a basic string, with any text on one line for its value. -/
theorem readText_basic (hbasic : k.string.quoting = .basic) {x : Text} (hx : '\r' ∉ x) :
    readText (k.opening ++ x ++ (k.string.quoting.delim ++ k.trail)) =
      readText k.opening ++ x ++ quote :: readText k.trail := by
  have hself : readText x = x := universalNewlines_eq_self hx
  rw [readText_parts, hself, hbasic]
  rfl

/-- The value of a plain key is found by the pattern. -/
theorem located_of_firstAndPlain (h : FirstAndPlain u k) :
    Located u (readText k.text) (readText k.opening) k.string.value (readText k.trail) := by
  obtain ⟨-, hreturn⟩ := k.string.raw_single (by rw [h.basic]; rfl)
  refine ⟨?_, h.opens, h.nonempty, h.unquoted, h.first⟩
  rw [Toml.Entry.text, readText_basic h.basic hreturn, h.verbatim]

/-- A key that is the first and plain is the one source of the version. -/
theorem oneSource_of_firstAndPlain (h : FirstAndPlain u k) : OneSource u k := by
  have hlocated := located_of_firstAndPlain h
  have hdelim : k.string.quoting.delim ++ k.trail = quote :: k.trail := by
    rw [h.basic]
    rfl
  obtain ⟨hline, hreturn⟩ := k.string.raw_single (by rw [h.basic]; rfl)
  refine ⟨readVersion_eq_ok.mpr ⟨_, _, hlocated⟩, ?_, fun w hw => ?_, fun w hw => ?_⟩
  · rw [Toml.Entry.text, hdelim, makeVersion_of_onVersionLine h.onLine hline hreturn, h.verbatim]
  · have hput := readText_basic h.basic (line_of_word w).2
    have hchange : readText k.opening ++ w.text ++ quote :: readText k.trail ≠ readText k.text := by
      rw [hlocated.split]
      intro heq
      exact hw (List.append_cancel_left (List.append_cancel_right heq))
    rw [Toml.Entry.text_put, hput]
    simp only [writeVersion, substituted_of_located hlocated, hchange, if_false]
  · rw [Toml.Entry.text_put, hdelim]
    exact makeVersion_of_onVersionLine h.onLine (line_of_word w).1 (line_of_word w).2

/-! ## Needed -/

/-- An opening does not end with two quotes. -/
theorem concat_of_opens {w : Text} (h : Opens u w) : ∃ w' c, w = w' ++ [c, quote] ∧ c ≠ quote := by
  obtain ⟨pre, skip, field, rfl, hopening⟩ := h
  obtain ⟨field', rfl, hquote, -, hv⟩ := hopening.isField.eq_concat
  obtain ⟨f, c, rfl⟩ := List.eq_nil_or_concat field' |>.resolve_left (by rintro rfl; simp at hv)
  exact ⟨pre ++ header ++ skip ++ f, c, by simp, fun hc => hquote (by simp [hc])⟩

/-- A string that has an opening before it and a quote behind it is a basic one. -/
theorem basic_of_opens {post : Text} (hopens : Opens u (readText k.opening))
    (hpost : readText (k.string.quoting.delim ++ k.trail) = quote :: post) :
    k.string.quoting = .basic ∧ readText k.trail = post := by
  cases hq : k.string.quoting with
  | basic =>
      rw [hq] at hpost
      exact ⟨rfl, (List.cons.inj hpost).2⟩
  | literal =>
      rw [hq] at hpost
      exact absurd (List.cons.inj hpost).1 (by decide)
  | multiBasic =>
      obtain ⟨w, c, hw, hc⟩ := concat_of_opens hopens
      have hdelim : k.string.quoting.delim = [quote, quote, quote] := by
        rw [hq]
        rfl
      rw [Toml.Entry.opening, hdelim, readText, universalNewlines_append fun _ => by decide] at hw
      have hlast : universalNewlines [quote, quote, quote] = [quote] ++ [quote, quote] := rfl
      rw [hlast, ← List.append_assoc] at hw
      have hpair := List.append_inj_right' hw rfl
      exact absurd (List.cons.inj hpair).1.symm hc
  | multiLiteral =>
      rw [hq] at hpost
      exact absurd (List.cons.inj hpost).1 (by decide)

/-- The text that is written is the substituted one. -/
theorem written_eq {new file written : Text} (h : writeVersion u new file = .ok written) :
    written = substituted u new (readText file) := by
  simp only [writeVersion] at h
  split at h <;> cases h
  rfl

/-- The one source of the version is a key that is the first and plain. -/
theorem firstAndPlain_of_oneSource (h : OneSource u k) : FirstAndPlain u k := by
  obtain ⟨w, post, hlocated⟩ := readVersion_eq_ok.mp h.read
  -- whichever digit is written, it is at the place of the key
  have hwritten : ∀ d : Char, d.isDigit = true → [d] ≠ k.string.value →
      w ++ d :: quote :: post =
        readText k.opening ++ d :: readText (k.string.quoting.delim ++ k.trail) := by
    intro d hd hv
    have hd' := written_eq (h.written (digitWord d hd) hv)
    have hself : readText [d] = [d] := universalNewlines_eq_self (line_of_word (digitWord d hd)).2
    rw [substituted_of_located hlocated, Toml.Entry.text_put, readText_parts] at hd'
    simpa [digitWord, hself] using hd'.symm
  obtain ⟨d, d', hd, hd', hne, hv, hv'⟩ := exists_two_digits k.string.value
  obtain ⟨rfl, hpost⟩ := place_unique hne (hwritten d hd hv) (hwritten d' hd' hv')
  obtain ⟨hbasic, rfl⟩ := basic_of_opens hlocated.opens hpost.symm
  obtain ⟨-, hreturn⟩ := k.string.raw_single (by rw [hbasic]; rfl)
  have hverbatim : k.string.raw = k.string.value := by
    have hsplit := hlocated.split
    rw [Toml.Entry.text, readText_basic hbasic hreturn] at hsplit
    exact List.append_cancel_left (List.append_cancel_right hsplit)
  refine ⟨hbasic, hverbatim, hlocated.nonempty, hlocated.unquoted, hlocated.opens,
    hlocated.first, ?_⟩
  apply onVersionLine_of_follows (v := k.string.value)
  intro d hd hv
  have hfollows := h.follows (digitWord d hd) hv
  rw [Toml.Entry.text_put, hbasic] at hfollows
  exact hfollows

/-- **One source for the version.** For every `Cargo.toml` with a string `version` in its table
`[workspace.package]`, `read_version`, `write_version` and `VERSION` are about the value of
exactly this key if and only if these hold: the string is a basic one, written as it is, not
empty and without quotes; before the key, the text has a header `[workspace.package]` with no
bracket behind it, and no such opening of another string that is not empty; the key stands at
the beginning of its line, with spaces only around the equals sign and nothing behind the
string; and no line before begins like this and has another quote.
SOURCE: bump-version.py:35-67, bump-version.py:85-92, Makefile:13-14 -/
theorem one_source_iff (u : Unicode) (k : VersionKey) : OneSource u k ↔ FirstAndPlain u k :=
  ⟨firstAndPlain_of_oneSource, oneSource_of_firstAndPlain⟩

/-- Such a manifest, with a bracket and another table before. -/
example :
    let file := "[workspace]\nmembers = []\n\n[workspace.package]\nversion = \"0.2.1\"\n".toList
    readVersion .ascii file = .ok "0.2.1".toList ∧ makeVersion file = "0.2.1".toList := by
  decide

/-- The manifest with another version. -/
def VersionKey.bumped (k : VersionKey) (w : Toml.Word) : VersionKey where
  toEntry := k.put w
  isVersion := by
    rw [Toml.Entry.path_put]
    exact k.isVersion

/-- A source that is the only one stays so with any version written there. -/
theorem oneSource_bumped (h : OneSource u k) (w : Toml.Word) : OneSource u (k.bumped w) := by
  obtain ⟨hbasic, -, -, -, hopens, hfirst, honLine⟩ := firstAndPlain_of_oneSource h
  have hquote : quote ∉ w.text := by
    intro hmem
    exact Toml.ne_of_isWordChar (w.chars _ hmem) (by decide) rfl
  have hvalue : (k.bumped w).string.value = w.text := Toml.Entry.value_put k.toEntry w
  apply oneSource_of_firstAndPlain
  exact ⟨hbasic, rfl, hvalue ▸ w.nonempty, hvalue ▸ hquote, hopens, hfirst, honLine⟩

/-! ## Two manifests -/

/-- A key that is one bare word. -/
def bareKey (word : Text) (hword : word.all Toml.isBare = true) (hne : word ≠ []) :
    Toml.SimpleKey :=
  .bare ⟨word, List.all_eq_true.mp hword⟩ hne

/-- No white space. -/
def noSpace : Toml.Blank := ⟨[], by simp⟩

/-- One space. -/
def space : Toml.Blank := ⟨[' '], by simp [Toml.isBlank]⟩

/-- `[workspace.package]`. -/
def packageTable : Toml.Row where
  expression := .table noSpace
    { first := bareKey "workspace".toList (by decide) (by decide)
      rest := [(noSpace, noSpace, bareKey "package".toList (by decide) (by decide))] }
    noSpace

/-- A table with these rows before `version = "0.1.0"`, and this comment behind it. -/
def manifest (rows : List Toml.Row) (comment : Option Toml.Comment) : Toml.Entry where
  before := (packageTable :: rows).map (·, .lf)
  key := { first := bareKey "version".toList (by decide) (by decide) }
  gap := space
  gap' := space
  string := ⟨.basic, "0.1.0".toList, "0.1.0".toList, by decide⟩
  behind := if comment.isSome then space else noSpace
  comment := comment
  after := [(.lf, { expression := .empty })]

/-- The version with a comment behind it. -/
def commented : VersionKey where
  toEntry := manifest [] (some ⟨" next".toList, List.all_eq_true.mp (by decide)⟩)
  isVersion := by decide

/-- Another key before the version, whose name ends in the word. -/
def behindRustVersion : VersionKey where
  toEntry := manifest
    [{ expression := .setting { first := bareKey "rust-version".toList (by decide) (by decide) }
        space space (.string ⟨.basic, "1.85".toList, "1.85".toList, by decide⟩) }] none
  isVersion := by decide

/-- `VERSION` takes the comment along, and `read_version` takes the other key. -/
theorem two_sources :
    (commented.text = "[workspace.package]\nversion = \"0.1.0\" # next\n".toList ∧
      commented.string.value = "0.1.0".toList ∧
      makeVersion commented.text = "0.1.0 # next".toList ∧ ¬ OneSource .ascii commented) ∧
    (behindRustVersion.text =
        "[workspace.package]\nrust-version = \"1.85\"\nversion = \"0.1.0\"\n".toList ∧
      behindRustVersion.string.value = "0.1.0".toList ∧
      readVersion .ascii behindRustVersion.text = .ok "1.85".toList ∧
      ¬ OneSource .ascii behindRustVersion) := by
  have hpackaged : makeVersion commented.text = "0.1.0 # next".toList := by decide
  have hread : readVersion .ascii behindRustVersion.text = .ok "1.85".toList := by decide
  refine ⟨⟨by decide, rfl, hpackaged, fun h => ?_⟩, by decide, rfl, hread, fun h => ?_⟩
  · have hvalue := hpackaged.symm.trans h.packaged
    revert hvalue
    decide
  · have hvalue := hread.symm.trans h.read
    revert hvalue
    decide

end SleepBlocker.Analysis
