import SleepBlocker.Interface.VersionPattern

/-!
# Releases one after the other

Reading the version, bumping it and writing it back, any number of times. What makes this
compose is that the opening found by the pattern does not depend on what stands behind it
(`located_replace`), so every write is found again by the next read, and that the printed
numbers are read back as they are.
-/

set_option autoImplicit false

namespace SleepBlocker.Analysis

open SleepBlocker.Computation SleepBlocker.Model

/-- What one release writes: the new version, and `Cargo.toml` with it. -/
structure Release where
  version : Text
  file : Text
  deriving DecidableEq, Repr

/-- `read_version`, `bump` and `write_version`. -/
def nextRelease (u : Unicode) (part : VersionPart) (file : Text) : Except Failure Release := do
  let current ← readVersion u file
  let new ← bump u current part
  let written ← writeVersion u new file
  return ⟨new, written⟩

/-- One release after the other, each on the file that the one before has written. -/
def nextReleases (u : Unicode) : List VersionPart → Text → Except Failure (List Release)
  | [], _ => .ok []
  | part :: parts, file => do
    let r ← nextRelease u part file
    let later ← nextReleases u parts r.file
    return r :: later

/-- Three groups of ASCII digits with dots between them. -/
def Plain (v : Text) : Prop :=
  ∃ groups : List Text, groups.length = 3 ∧ v = ['.'].intercalate groups ∧
    ∀ p ∈ groups, p ≠ [] ∧ ∀ c ∈ p, c.isDigit = true

/-- The numbers of a version, the major one first. -/
def numbers (v : Text) : List ℕ := (v.splitOn '.').map fun p => Nat.ofDigitChars 10 p 0

/-! ## Numbers -/

/-- `int` of ASCII digits. -/
theorem int_digits (u : Unicode) {p : Text} (hp : ∀ c ∈ p, c.isDigit = true) :
    u.int p = some (Nat.ofDigitChars 10 p 0) := by
  have hfold : ∀ n : ℕ, p.foldlM (fun n c => (u.decimal c).map (10 * n + ·)) n =
      some (Nat.ofDigitChars 10 p n) := by
    induction p with
    | nil =>
        intro n
        rw [Nat.ofDigitChars_nil]
        rfl
    | cons c p ih =>
        intro n
        obtain ⟨hc, hp⟩ := List.forall_mem_cons.mp hp
        rw [List.foldlM_cons, u.decimal_ascii c hc, Nat.ofDigitChars_cons]
        exact ih hp _
  exact hfold 0

/-- An ASCII digit is a digit. -/
theorem isDigit_ascii (u : Unicode) {c : Char} (hc : c.isDigit = true) : u.isDigit c = true := by
  have hlt : c.toNat < 128 := by
    simp only [Char.isDigit, Bool.and_eq_true, decide_eq_true_eq] at hc
    have hle : c.val.toNat ≤ 57 := UInt32.le_iff_toNat_le.mp hc.2
    show c.val.toNat < 128
    omega
  rw [u.digit_ascii c hlt]
  exact hc

/-- The groups of a plain version are what `split` finds. -/
theorem splitOn_plain {groups : List Text} (hlength : groups.length = 3)
    (hgroups : ∀ p ∈ groups, p ≠ [] ∧ ∀ c ∈ p, c.isDigit = true) :
    (['.'].intercalate groups).splitOn '.' = groups := by
  apply List.splitOn_intercalate
  · intro p hp hdot
    have hdigit := (hgroups p hp).2 '.' hdot
    exact absurd hdigit (by decide)
  · rintro rfl
    simp at hlength

/-- Three numbers with dots between are a plain version, and read as themselves. -/
theorem numbers_dotted (a b c : ℕ) : Plain (dotted a b c) ∧ numbers (dotted a b c) = [a, b, c] := by
  have hgroups : ∀ p ∈ [Nat.toDigits 10 a, Nat.toDigits 10 b, Nat.toDigits 10 c],
      p ≠ [] ∧ ∀ c ∈ p, c.isDigit = true := by
    intro p hp
    simp only [List.mem_cons, List.not_mem_nil, or_false] at hp
    rcases hp with rfl | rfl | rfl <;>
      exact ⟨Nat.toDigits_ne_nil, fun c hc =>
        Nat.isDigit_of_mem_toDigits (by decide) (by decide) hc⟩
  refine ⟨⟨_, rfl, rfl, hgroups⟩, ?_⟩
  unfold numbers dotted
  rw [splitOn_plain rfl hgroups]
  simp [Nat.ofDigitChars_ten_toDigits]

/-- A plain version is bumped to a plain one with greater numbers. -/
theorem bump_plain (u : Unicode) {v : Text} (hv : Plain v) (part : VersionPart) :
    ∃ new, bump u v part = .ok new ∧ Plain new ∧ numbers v < numbers new := by
  obtain ⟨groups, hlength, rfl, hgroups⟩ := hv
  have hsplit := splitOn_plain hlength hgroups
  obtain ⟨p, q, r, rfl⟩ := List.length_eq_three.mp hlength
  have hall : ([p, q, r].all fun p => p != [] && p.all u.isDigit) = true := by
    rw [List.all_eq_true]
    intro p hp
    obtain ⟨hne, hdigits⟩ := hgroups p hp
    simp only [Bool.and_eq_true, bne_iff_ne, List.all_eq_true]
    exact ⟨hne, fun c hc => isDigit_ascii u (hdigits c hc)⟩
  have hint : ∀ x ∈ [p, q, r], u.int x = some (Nat.ofDigitChars 10 x 0) :=
    fun x hx => int_digits u (hgroups x hx).2
  have hnumbers : numbers (['.'].intercalate [p, q, r]) =
      [Nat.ofDigitChars 10 p 0, Nat.ofDigitChars 10 q 0, Nat.ofDigitChars 10 r 0] := by
    unfold numbers
    rw [hsplit]
    rfl
  -- which part is raised makes no difference to the reading
  have hbump : ∃ a b c, bump u (['.'].intercalate [p, q, r]) part = .ok (dotted a b c) ∧
      [Nat.ofDigitChars 10 p 0, Nat.ofDigitChars 10 q 0, Nat.ofDigitChars 10 r 0] < [a, b, c] := by
    simp only [bump, hsplit, hall, List.mapM_cons, List.mapM_nil, hint p (by simp),
      hint q (by simp), hint r (by simp)]
    cases part with
    | major | minor | patch => exact ⟨_, _, _, rfl, by simp [List.cons_lt_cons_iff]⟩
  obtain ⟨a, b, c, hbump, hlt⟩ := hbump
  obtain ⟨hplain, hnew⟩ := numbers_dotted a b c
  exact ⟨_, hbump, hplain, by rw [hnumbers, hnew]; exact hlt⟩

/-- A plain version can stand in quotes. -/
theorem quotable_plain {v : Text} (hv : Plain v) : v ≠ [] ∧ quote ∉ v := by
  obtain ⟨groups, hlength, rfl, hgroups⟩ := hv
  obtain ⟨p, q, r, rfl⟩ := List.length_eq_three.mp hlength
  constructor
  · simp [List.intercalate_cons_cons]
  · have hquote : ∀ x ∈ [p, q, r], quote ∉ x := by
      intro x hx hmem
      exact absurd ((hgroups x hx).2 quote hmem) (by decide)
    have hdot : quote ≠ '.' := by decide
    simp [List.intercalate_cons_cons, hquote p (by simp), hquote q (by simp), hquote r (by simp),
      hdot]

/-! ## Releases -/

variable {u : Unicode}

/-- Writing a plain version that is another one than before succeeds, and the version is found
again at the same place. -/
theorem writeVersion_located {file w v post new : Text} (h : Located u (readText file) w v post)
    (hnew : Plain new) (hne : new ≠ v) :
    writeVersion u new file = .ok (w ++ new ++ quote :: post) ∧
      Located u (readText (w ++ new ++ quote :: post)) w new post := by
  obtain ⟨hnonempty, hquote⟩ := quotable_plain hnew
  have hchange : w ++ new ++ quote :: post ≠ readText file := by
    rw [h.split]
    intro heq
    simp only [List.append_assoc, List.append_cancel_left_eq] at heq
    exact hne (first_unique heq hquote h.unquoted).1
  have hlines : '\r' ∉ w ++ new ++ quote :: post := by
    have hfile := carriage_universalNewlines file
    rw [show universalNewlines file = _ from h.split] at hfile
    simp only [List.mem_append, List.mem_cons, not_or] at hfile ⊢
    refine ⟨⟨hfile.1.1, ?_⟩, hfile.2⟩
    obtain ⟨groups, hlength, rfl, hgroups⟩ := hnew
    obtain ⟨p, q, r, rfl⟩ := List.length_eq_three.mp hlength
    have hdigits : ∀ x ∈ [p, q, r], '\r' ∉ x := by
      intro x hx hmem
      exact absurd ((hgroups x hx).2 _ hmem) (by decide)
    simp [List.intercalate_cons_cons, hdigits p (by simp), hdigits q (by simp),
      hdigits r (by simp)]
  constructor
  · simp only [writeVersion, substituted_of_located h, hchange, if_false]
  · rw [readText, universalNewlines_eq_self hlines]
    exact located_replace h hnonempty hquote

/-- What a chain of releases has to do with the version `v` that stands between `w` and `post`
before it. -/
structure Chained (u : Unicode) (w v post : Text) (l : List Release) : Prop where
  found : ∀ r ∈ l, readVersion u r.file = .ok r.version ∧ r.file = w ++ r.version ++ quote :: post
  plain : ∀ r ∈ l, Plain r.version
  increasing : ((v :: l.map Release.version).map numbers).Pairwise (· < ·)

/-- However many parts are released in a row, each release reads what the one before has
written. -/
theorem releases_chained {file w v post : Text} (parts : List VersionPart)
    (h : Located u (readText file) w v post) (hv : Plain v) :
    ∃ l, nextReleases u parts file = .ok l ∧ l.length = parts.length ∧ Chained u w v post l := by
  induction parts generalizing file v with
  | nil => exact ⟨[], rfl, rfl, by simp, by simp, by simp⟩
  | cons part parts ih =>
      obtain ⟨new, hbump, hnew, hlt⟩ := bump_plain u hv part
      have hne : new ≠ v := by
        rintro rfl
        exact List.lt_irrefl _ hlt
      obtain ⟨hwrite, hlocated⟩ := writeVersion_located h hnew hne
      have hread : readVersion u file = .ok v := readVersion_eq_ok.mpr ⟨w, post, h⟩
      obtain ⟨l, hl, hlength, hchain⟩ := ih hlocated hnew
      refine ⟨⟨new, w ++ new ++ quote :: post⟩ :: l, ?_, by simp [hlength], ?_, ?_, ?_⟩
      · simp only [nextReleases, nextRelease, hread, hbump, hwrite, bind, Except.bind, pure,
          Except.pure, hl]
      · intro r hr
        rcases List.mem_cons.mp hr with rfl | hr
        · exact ⟨readVersion_eq_ok.mpr ⟨w, post, hlocated⟩, rfl⟩
        · exact hchain.found r hr
      · intro r hr
        rcases List.mem_cons.mp hr with rfl | hr
        · exact hnew
        · exact hchain.plain r hr
      · have hincreasing := hchain.increasing
        simp only [List.map_cons, List.pairwise_cons] at hincreasing ⊢
        refine ⟨fun n hn => ?_, hincreasing⟩
        rcases List.mem_cons.mp hn with rfl | hn
        · exact hlt
        · exact List.lt_trans hlt (hincreasing.1 n hn)

/-- **Read, bump and write compose.** Take any text on which `read_version` returns three
groups of ASCII digits, and any parts. Releasing once for each part never raises; every
release is read back as the version that `bump` has produced; the text is the one first read
but for the version; the versions increase in the order of their numbers; and the tags are
distinct.
SOURCE: bump-version.py:35-40, bump-version.py:60-92 -/
theorem releases_compose (u : Unicode) {file v : Text} (hread : readVersion u file = .ok v)
    (hv : Plain v) (parts : List VersionPart) :
    ∃ w post l, readText file = w ++ v ++ post ∧ nextReleases u parts file = .ok l ∧
      l.length = parts.length ∧
      (∀ r ∈ l, readVersion u r.file = .ok r.version ∧ r.file = w ++ r.version ++ post) ∧
      (∀ r ∈ l, Plain r.version) ∧
      ((v :: l.map Release.version).map numbers).Pairwise (· < ·) ∧
      ((v :: l.map Release.version).map tagOf).Nodup := by
  obtain ⟨w, post, h⟩ := readVersion_eq_ok.mp hread
  obtain ⟨l, hl, hlength, hchain⟩ := releases_chained parts h hv
  refine ⟨w, quote :: post, l, h.split, hl, hlength, hchain.found, hchain.plain,
    hchain.increasing, ?_⟩
  rw [List.Nodup, List.pairwise_map]
  refine (List.pairwise_map.mp hchain.increasing).imp fun {a b} hlt htag => ?_
  obtain rfl : a = b := by simpa [tagOf] using htag
  exact List.lt_irrefl _ hlt

/-- Two releases of a manifest with another table, an empty key and a comment around it. -/
theorem releases_compose_workspace :
    let file := "[package]\nversion = \"\"\n[workspace.package] # 1\nversion = \"0.1.9\"\n".toList
    readVersion .ascii file = .ok "0.1.9".toList ∧ Plain "0.1.9".toList ∧
      ∃ w post l, readText file = w ++ "0.1.9".toList ++ post ∧
        nextReleases .ascii [.patch, .major] file = .ok l ∧ l.length = 2 ∧
        (∀ r ∈ l, readVersion .ascii r.file = .ok r.version ∧ r.file = w ++ r.version ++ post) ∧
        (∀ r ∈ l, Plain r.version) ∧
        (("0.1.9".toList :: l.map Release.version).map numbers).Pairwise (· < ·) ∧
        (("0.1.9".toList :: l.map Release.version).map tagOf).Nodup := by
  intro file
  have hread : readVersion .ascii file = .ok "0.1.9".toList := by decide
  have hplain : Plain "0.1.9".toList := by
    refine ⟨["0".toList, "1".toList, "9".toList], rfl, rfl, fun p hp => ?_⟩
    have hall : ∀ p ∈ ["0".toList, "1".toList, "9".toList], p ≠ [] ∧ p.all Char.isDigit = true := by
      simp
    exact ⟨(hall p hp).1, List.all_eq_true.mp (hall p hp).2⟩
  exact ⟨hread, hplain, releases_compose .ascii hread hplain [.patch, .major]⟩

end SleepBlocker.Analysis
