import SleepBlocker.Interface.VersionLine
import SleepBlocker.Model.RpmRelease

/-!
# What the Makefile's release is

`sed` finds the number of commits in whatever `git describe` prints: neither the number nor
the hash behind it has a hyphen, so the last two hyphens of the line are those of the pattern
(`commitCount_eq`). On a tag the release of a clean checkout is `1`, and behind a tag it
begins with `1.` and the number (`rpmRelease_tagged`, `rpmRelease_snapshot`).
-/

set_option autoImplicit false

namespace SleepBlocker.Model

open SleepBlocker.Computation

/-! ## One line -/

/-- A line that the pattern reads to its end is a name, a number and a hash. -/
theorem reads_countPattern {line : Text} {m : Cursor Char String} (hend : m.after = [])
    (h : countPattern.Reads ⟨[], line, []⟩ m) :
    ∃ name number hash, line = name ++ '-' :: number ++ '-' :: 'g' :: hash ∧
      (∀ c ∈ number, c.isDigit = true) ∧ (∀ c ∈ hash, isHex c = true) ∧
      m.group "1" = some number := by
  obtain ⟨_, ⟨name, r₁, hline, -, rfl⟩, _, ⟨d₁, r₂, h₁, hd₁, rfl⟩, _, ⟨_, hnumber, rfl⟩, _,
    ⟨d₂, r₃, h₂, hd₂, rfl⟩, _, ⟨g, r₄, h₃, hg, rfl⟩, hhash⟩ := h
  obtain ⟨number, r₅, -, h₄, hdigits, rfl⟩ := Pattern.reads_oneOrMore.mp hnumber
  obtain ⟨hash, r₆, -, h₅, hhex, rfl⟩ := Pattern.reads_oneOrMore.mp hhash
  rw [Cursor.capture_skip] at h₂
  simp only [Cursor.skip, beq_iff_eq] at hline h₁ h₂ h₃ h₄ h₅ hd₁ hd₂ hg hend
  subst hd₁ hd₂ hg hend
  refine ⟨name, number, hash, ?_, hdigits, hhex, ?_⟩
  · rw [hline, h₁, h₄, h₂, h₃, h₅]
    simp
  · rw [Cursor.capture_skip]
    rfl

/-- The name that `git describe --long` prints has a commit count in it. -/
theorem isSome_commitCount {number hash : Text} (name : Text) (hne : number ≠ [])
    (hnumber : ∀ c ∈ number, c.isDigit = true) (hne' : hash ≠ [])
    (hhash : ∀ c ∈ hash, isHex c = true) :
    (commitCount (name ++ '-' :: number ++ '-' :: 'g' :: hash)).isSome = true := by
  rw [commitCount, Option.isSome_map]
  refine Pattern.isSome_run ⟨_, ⟨name, '-' :: number ++ '-' :: 'g' :: hash, by simp, by simp, rfl⟩,
    _, ⟨'-', number ++ '-' :: 'g' :: hash, rfl, rfl, rfl⟩,
    _, ⟨_, Pattern.reads_oneOrMore.mpr ⟨number, '-' :: 'g' :: hash, hne, rfl, hnumber, rfl⟩, rfl⟩,
    _, ⟨'-', 'g' :: hash, rfl, rfl, rfl⟩, _, ⟨'g', hash, rfl, rfl, rfl⟩,
    Pattern.reads_oneOrMore.mpr ⟨hash, [], hne', by simp [Cursor.skip], hhash, rfl⟩⟩ rfl

/-- A character that a word excludes is not in it. -/
theorem not_mem_of_chars {k : Char → Bool} {w : Text} (hw : ∀ c ∈ w, k c = true) {x : Char}
    (hx : k x = false) : x ∉ w := by
  intro hmem
  rw [hw x hmem] at hx
  cases hx

/-- **The number of commits** is found behind any name. -/
theorem commitCount_eq {number : Text} (name : Text) (h : Hash) (hne : number ≠ [])
    (hnumber : ∀ c ∈ number, c.isDigit = true) :
    commitCount (name ++ '-' :: number ++ '-' :: 'g' :: h.text) = some number := by
  obtain ⟨r, hr⟩ := Option.isSome_iff_exists.mp
    (isSome_commitCount name hne hnumber h.nonempty h.chars)
  obtain ⟨m, hm, rfl⟩ := Option.map_eq_some_iff.mp hr
  obtain ⟨m', hreads, hnext⟩ := Pattern.run_sound countPattern hm
  simp only [atLineEnd, Option.ite_none_right_eq_some, Option.some.injEq] at hnext
  obtain ⟨hend, rfl⟩ := hnext
  obtain ⟨name', number', hash', hline, hnumber', hhash', hgroup⟩ := reads_countPattern hend hreads
  -- behind the last hyphen is the hash, and behind the one before it the number
  have hhyphen : ∀ {w : Text}, (∀ c ∈ w, isHex c = true) → '-' ∉ 'g' :: w := by
    intro w hw
    have hmem : '-' ∉ w := not_mem_of_chars hw rfl
    simp [hmem]
  obtain ⟨hfront, -⟩ := last_unique hline (hhyphen h.chars) (hhyphen hhash')
  obtain ⟨-, rfl⟩ := last_unique hfront (not_mem_of_chars hnumber rfl)
    (not_mem_of_chars hnumber' rfl)
  rw [hr, hgroup]
  rfl

/-! ## What git prints -/

/-- The digits of a number are digits. -/
theorem digits_toDigits (n : ℕ) : ∀ c ∈ Nat.toDigits 10 n, c.isDigit = true :=
  fun _ hc => Nat.isDigit_of_mem_toDigits (by decide) (by decide) hc

/-- Only zero is printed as zero. -/
theorem toDigits_eq_zero {n : ℕ} : Nat.toDigits 10 n = ['0'] ↔ n = 0 := by
  constructor
  · intro h
    have hvalue := congrArg (Nat.ofDigitChars 10 · 0) h
    simpa [Nat.ofDigitChars_ten_toDigits, Nat.ofDigitChars_cons] using hvalue
  · rintro rfl
    rfl

/-- A line of a class without line ends comes out of the shell as it is. -/
theorem shellOutput_chars {k : Char → Bool} {w : Text} (hw : ∀ c ∈ w, k c = true)
    (hline : k '\n' = false) (hreturn : k '\r' = false) : shellOutput (w ++ ['\n']) = w := by
  rw [(shellOutput_line (not_mem_of_chars hw hline)).2, withoutReturn, if_neg]
  exact fun hlast => not_mem_of_chars hw hreturn (List.mem_of_getLast? hlast)

namespace Checkout

variable {c : Checkout} {tag : RefName} {n : ℕ}

/-- `COMMITS_SINCE_TAG` is the number of commits since the nearest tag. -/
theorem commitsSinceTag_eq (h : nearestTag c.history = some (tag, n)) :
    c.commitsSinceTag = Nat.toDigits 10 n := by
  have hdigits := digits_toDigits n
  have hcount := commitCount_eq tag.text c.head.described Nat.toDigits_ne_nil hdigits
  have hline : '\n' ∉
      tag.text ++ '-' :: Nat.toDigits 10 n ++ '-' :: 'g' :: c.head.described.text := by
    have hnumber : '\n' ∉ Nat.toDigits 10 n := not_mem_of_chars hdigits rfl
    have hhash : '\n' ∉ c.head.described.text := not_mem_of_chars c.head.described.chars rfl
    simp [tag.line, hnumber, hhash]
  rw [commitsSinceTag, describe, h, List.splitOn_append_cons_self_of_not_mem hline,
    List.splitOn_nil, sedCounts, hcount, Option.map_some, Option.getD_some]
  · show shellOutput (Nat.toDigits 10 n ++ ['\n'] ++ []) = _
    rw [List.append_nil]
    exact shellOutput_chars hdigits rfl rfl
  · simp

/-- The build's hash is that of the head, abbreviated. -/
theorem gitSha_eq (c : Checkout) : c.gitSha = c.head.short.text :=
  shellOutput_chars c.head.short.chars rfl rfl

/-- A clean checkout is not called dirty. -/
theorem gitDirty_clean (h : c.Clean) : c.gitDirty = [] := by
  have hany : c.status.any (!"??".toList.isPrefixOf ·) = false := by
    rw [List.any_eq_false]
    intro line hline
    simp only [Bool.not_eq_true', Bool.not_eq_false]
    exact List.isPrefixOf_iff_prefix.mpr (h.untracked line hline)
  rw [gitDirty, hany]
  rfl

/-- A clean checkout of a tagged revision has release 1. -/
theorem rpmRelease_tagged (hclean : c.Clean) (h : nearestTag c.history = some (tag, 0)) :
    c.rpmRelease = ['1'] := by
  rw [rpmRelease, commitsSinceTag_eq h, if_pos (toDigits_eq_zero.mpr rfl), gitDirty_clean hclean]

/-- Behind a tag the number of commits is the second number of the release. -/
theorem rpmRelease_snapshot (h : nearestTag c.history = some (tag, n + 1)) :
    c.rpmRelease = '1' :: '.' :: (Nat.toDigits 10 (n + 1) ++
      '.' :: ("git".toList ++ (c.head.short.text ++ c.gitDirty))) := by
  have hzero : Nat.toDigits 10 (n + 1) ≠ ['0'] := fun hzero =>
    Nat.succ_ne_zero n (toDigits_eq_zero.mp hzero)
  rw [rpmRelease, commitsSinceTag_eq h, if_neg hzero, if_neg Nat.toDigits_ne_nil, gitSha_eq]
  simp

end Checkout

end SleepBlocker.Model
