import SleepBlocker.Analysis.OneSource
import SleepBlocker.Analysis.ReleaseChain
import SleepBlocker.Interface.ReleaseNumber

/-!
# Later builds are upgrades

Along a linear history the version only grows, and as long as it stays the number of commits
since the nearest tag grows with every commit (`version_or_count`). RPM sees both: the numbers
of a version are its segments, and the number of commits is the second segment of a snapshot's
release, before anything that depends on a hash. What is left is a snapshot and the very
release it is counted from. There the number of commits stands against the first segment of
the dist suffix, and `GivesWay` says which suffixes let it be the greater one.
-/

set_option autoImplicit false

namespace SleepBlocker.Analysis

open SleepBlocker.Computation SleepBlocker.Model

/-! ## Histories -/

/-- The workspace version of a revision is `v`, three numbers, and `VERSION` finds it if the
revision is one that is built. -/
structure Versioned (built : Revision → Prop) (r : Revision) (v : Text) : Prop where
  key : ∃ k : VersionKey, k.text = r.cargoToml ∧ k.string.value = v
  packaged : built r → makeVersion r.cargoToml = v
  plain : Plain v

/-- The revision carries the tag `v<version>`, and perhaps others. -/
def CarriesTag (r : Revision) (v : Text) : Prop := ∃ tag ∈ r.tags, tag.text = tagOf v

/-- A linear history, newest revision first, that ends in a revision with the workspace version
`v`: each release raises the version and carries its tag, and no other commit changes the
version or is tagged. -/
inductive LinearHistory (built : Revision → Prop) : Text → List Revision → Prop
  /-- The first revision with a version, a release or not, on commits without a tag. -/
  | first {r : Revision} {v : Text} {older : List Revision} (hr : Versioned built r v)
      (htags : r.tags = [] ∨ CarriesTag r v) (holder : ∀ s ∈ older, s.tags = []) :
      LinearHistory built v (r :: older)
  | release {r : Revision} {v w : Text} {l : List Revision} (hl : LinearHistory built v l)
      (hr : Versioned built r w) (hraise : numbers v < numbers w) (htag : CarriesTag r w) :
      LinearHistory built w (r :: l)
  | other {r : Revision} {v : Text} {l : List Revision} (hl : LinearHistory built v l)
      (hr : Versioned built r v) (htags : r.tags = []) : LinearHistory built v (r :: l)

variable {built : Revision → Prop}

/-- The head of a linear history has its version. -/
theorem LinearHistory.versioned {v : Text} {r : Revision} {l : List Revision}
    (h : LinearHistory built v (r :: l)) : Versioned built r v := by
  cases h with
  | first hr => exact hr
  | release _ hr => exact hr
  | other _ hr => exact hr

/-- A revision without tags is one more behind the nearest tag. -/
theorem nearestTag_untagged {r : Revision} (hr : r.tags = []) (l : List Revision) :
    nearestTag (r :: l) = (nearestTag l).map fun (tag, n) => (tag, n + 1) := by
  rw [nearestTag, hr]

/-- Without tags there is no nearest one. -/
theorem nearestTag_eq_none {l : List Revision} (h : ∀ r ∈ l, r.tags = []) :
    nearestTag l = none := by
  induction l with
  | nil => rfl
  | cons r l ih =>
      obtain ⟨hr, hl⟩ := List.forall_mem_cons.mp h
      rw [nearestTag_untagged hr, ih hl]
      rfl

/-- A history can be described as soon as one of its revisions has a tag. -/
theorem exists_nearestTag {l : List Revision} (h : ∃ r ∈ l, r.tags ≠ []) :
    ∃ tag n, nearestTag l = some (tag, n) := by
  induction l with
  | nil =>
      obtain ⟨r, hr, -⟩ := h
      cases hr
  | cons r l ih =>
      cases htags : r.tags with
      | cons tag tags => exact ⟨tag, 0, by rw [nearestTag, htags]⟩
      | nil =>
          obtain ⟨s, hs, hne⟩ := h
          rcases List.mem_cons.mp hs with rfl | hs
          · exact absurd htags hne
          · obtain ⟨tag, n, hl⟩ := ih ⟨s, hs, hne⟩
            exact ⟨tag, n + 1, by rw [nearestTag_untagged htags, hl, Option.map_some]⟩

/-- **The version or the count grows.** From a revision with a tag on, a history either comes
to a version with greater numbers, or has the same version, no tag and the same nearest tag
as many commits further away. -/
theorem version_or_count {v : Text} {l h₁ : List Revision} {tag : RefName} {n : ℕ}
    (h : LinearHistory built v (l ++ h₁)) (htag : nearestTag h₁ = some (tag, n)) :
    ∃ v₁, LinearHistory built v₁ h₁ ∧ (numbers v₁ < numbers v ∨
      v₁ = v ∧ (∀ r ∈ l, r.tags = []) ∧ nearestTag (l ++ h₁) = some (tag, n + l.length)) := by
  induction l generalizing v with
  | nil => exact ⟨v, h, Or.inr ⟨rfl, by simp, by simpa using htag⟩⟩
  | cons r l ih =>
      rw [List.cons_append] at h
      cases h with
      | first hr htags holder =>
          have hnone : nearestTag h₁ = none :=
            nearestTag_eq_none fun s hs => holder s (List.mem_append_right l hs)
          rw [hnone] at htag
          cases htag
      | release hl hr hraise hcarries =>
          obtain ⟨v₁, h₁, hlt | ⟨rfl, -, -⟩⟩ := ih hl
          · exact ⟨v₁, h₁, Or.inl (List.lt_trans hlt hraise)⟩
          · exact ⟨v₁, h₁, Or.inl hraise⟩
      | other hl hr htags =>
          obtain ⟨v₁, h₁, hlt | ⟨rfl, huntagged, hnearest⟩⟩ := ih hl
          · exact ⟨v₁, h₁, Or.inl hlt⟩
          · refine ⟨v₁, h₁, Or.inr ⟨rfl, List.forall_mem_cons.mpr ⟨htags, huntagged⟩, ?_⟩⟩
            rw [List.cons_append, nearestTag_untagged htags, hnearest]
            rfl

/-! ## What RPM sees -/

/-- The segments of a plain version are its numbers. -/
theorem segments_plain {v : Text} (hv : Plain v) :
    Rpm.segments v = (numbers v).map .number := by
  obtain ⟨groups, hlength, rfl, hgroups⟩ := hv
  rw [numbers, splitOn_plain hlength hgroups]
  obtain ⟨p, q, r, rfl⟩ := List.length_eq_three.mp hlength
  obtain ⟨hp, hp'⟩ := hgroups p (by simp)
  obtain ⟨hq, hq'⟩ := hgroups q (by simp)
  obtain ⟨hr, hr'⟩ := hgroups r (by simp)
  have hlast : Rpm.segments r = [.number (Nat.ofDigitChars 10 r 0)] := by
    have h : Rpm.segments (r ++ []) = _ := Rpm.segments_digits hr hr' rfl
    rwa [List.append_nil] at h
  simp only [List.intercalate_cons_cons, List.intercalate_singleton, List.append_assoc,
    List.cons_append, List.nil_append]
  rw [Rpm.segments_digits hp hp' rfl, Rpm.segments_separator rfl, Rpm.segments_digits hq hq' rfl,
    Rpm.segments_separator rfl, hlast]
  rfl

/-- The numbers of plain versions decide. -/
theorem vercmp_plain {v w : Text} (hv : Plain v) (hw : Plain w) (h : numbers v < numbers w) :
    Rpm.vercmp v w = .lt := by
  rw [Rpm.vercmp, segments_plain hv, segments_plain hw]
  exact Rpm.compareSegments_numbers h

/-- The segments of a snapshot's release: the 1, and what follows. -/
theorem segments_one (n : ℕ) (rest : Text) :
    Rpm.segments ('1' :: '.' :: (Nat.toDigits 10 n ++ '.' :: rest)) =
      .number 1 :: Rpm.segments (Nat.toDigits 10 n ++ '.' :: rest) := by
  have hone : Rpm.segments (['1'] ++ '.' :: (Nat.toDigits 10 n ++ '.' :: rest)) =
      .number 1 :: Rpm.segments ('.' :: (Nat.toDigits 10 n ++ '.' :: rest)) :=
    Rpm.segments_digits (by simp) (by simp) rfl
  rw [Rpm.segments_separator rfl] at hone
  exact hone

/-- The commit count is a segment of its own. -/
theorem segments_count (n : ℕ) (rest : Text) :
    Rpm.segments (Nat.toDigits 10 n ++ '.' :: rest) = .number n :: Rpm.segments rest := by
  rw [Rpm.segments_digits Nat.toDigits_ne_nil (digits_toDigits n) rfl, Rpm.segments_separator rfl,
    Nat.ofDigitChars_ten_toDigits]

/-- What a snapshot puts behind the number `n` of commits, before the hash. -/
def countMark (n : ℕ) : Text := Nat.toDigits 10 n ++ '.' :: "git".toList

/-- A hash makes the mark newer. -/
theorem vercmp_countMark (n : ℕ) (h : Hash) (rest : Text) :
    Rpm.vercmp (countMark n) (Nat.toDigits 10 n ++ '.' :: ("git".toList ++ (h.text ++ rest))) =
      .lt := by
  obtain ⟨c, w, hc⟩ := List.exists_cons_of_ne_nil h.nonempty
  have hchar : c.isAlpha = true ∨ c.isDigit = true := by
    have hhex := h.chars c (by simp [hc])
    rcases Bool.or_eq_true_iff.mp hhex with hdigit | hletter
    · exact Or.inr hdigit
    · have hall : "abcdef".toList.all Char.isAlpha = true := by decide
      exact Or.inl (List.all_eq_true.mp hall c (by simpa using hletter))
  rw [Rpm.vercmp, countMark, segments_count, segments_count, Rpm.compareSegments_cons, hc]
  exact Rpm.compareSegments_word hchar "git".toList (w ++ rest)

/-- Behind the release number `1` the suffix gives way to a snapshot `n` commits later: it does
not go on with the digits of the release, and is not newer than `<n>.git`. -/
structure GivesWay (dist : Text) (n : ℕ) : Prop where
  apart : dist.head?.any Char.isDigit = false
  notNewer : (Rpm.vercmp dist (countMark n)).isLE = true

/-- A suffix whose first letter or digit is a letter gives way to every snapshot. -/
theorem givesWay_of_letter {separators : Text} {c : Char}
    (hs : ∀ x ∈ separators, Rpm.Segment.start x = none)
    (hc : Rpm.Segment.start c = some (.letters [c])) (rest : Text) (n : ℕ) :
    GivesWay (separators ++ c :: rest) n := by
  constructor
  · cases separators with
    | nil => exact Rpm.isDigit_of_start (by simp [hc])
    | cons x separators => exact Rpm.isDigit_of_start (by simp [hs x List.mem_cons_self])
  · obtain ⟨more, l, hword⟩ := Rpm.segments_letter hc rest
    rw [Rpm.vercmp, Rpm.segments_separators hs, hword, countMark, segments_count,
      Rpm.compareSegments_number (by simp)]
    rfl

/-- So does no suffix at all. -/
example (n : ℕ) : GivesWay [] n := by
  refine ⟨rfl, ?_⟩
  rw [Rpm.vercmp, countMark, segments_count]
  rfl

/-- `c₁` is on a tag, and `c₂` is `n` commits further with no other tag. -/
def SnapshotOf (c₂ c₁ : Checkout) (n : ℕ) : Prop :=
  c₁.head.tags ≠ [] ∧
    ∃ l, c₂.history = l ++ c₁.history ∧ l.length = n ∧ ∀ r ∈ l, r.tags = []

/-- A release is older than its snapshots if the suffix gives way. -/
theorem vercmp_tagged {dist : Text} {n : ℕ} (hdist : GivesWay dist n) (h : Hash) (rest : Text) :
    Rpm.vercmp ('1' :: dist)
      ('1' :: '.' :: (Nat.toDigits 10 n ++ '.' :: ("git".toList ++ (h.text ++ rest)))) = .lt := by
  have hone : Rpm.segments (['1'] ++ dist) = .number 1 :: Rpm.segments dist :=
    Rpm.segments_digits (by simp) (by simp) hdist.apart
  rw [List.singleton_append] at hone
  have hbehind := Std.TransCmp.lt_of_isLE_of_lt hdist.notNewer (vercmp_countMark n h rest)
  rw [Rpm.vercmp, hone, segments_one, Rpm.compareSegments_cons]
  exact hbehind

/-- Of two snapshots the one with more commits is newer, whatever the hashes are. -/
theorem vercmp_snapshot {m n : ℕ} (h : m < n) (rest rest' : Text) :
    Rpm.vercmp ('1' :: '.' :: (Nat.toDigits 10 m ++ '.' :: rest))
      ('1' :: '.' :: (Nat.toDigits 10 n ++ '.' :: rest')) = .lt := by
  rw [Rpm.vercmp, segments_one, segments_one, Rpm.compareSegments_cons, segments_count,
    segments_count]
  apply Rpm.compareSegments_number
  intro k hk
  simp only [List.head?_cons, Option.some.injEq, Rpm.Segment.number.injEq] at hk
  omega

/-! ## Two builds -/

/-- A clean build of a revision has its version. -/
theorem label_version {v : Text} {c : Checkout} (hclean : c.Clean) (hbuilt : built c.head)
    (h : LinearHistory built v c.history) (dist : Text) : (c.label dist).version = v := by
  show makeVersion c.cargoToml = v
  rw [hclean.cargoToml]
  exact h.versioned.packaged hbuilt

/-- The tag that is no commit away is on the revision itself. -/
theorem tags_of_nearestTag {r : Revision} {l : List Revision} {tag : RefName}
    (h : nearestTag (r :: l) = some (tag, 0)) : r.tags ≠ [] := by
  intro htags
  rw [nearestTag_untagged htags] at h
  cases hl : nearestTag l with
  | none => simp [hl] at h
  | some found => simp [hl] at h

/-- With the same version, the release of more commits since the tag is the greater one. -/
theorem vercmp_release {c₁ c₂ : Checkout} {dist : Text} {tag : RefName} {n k : ℕ}
    (hclean₁ : c₁.Clean) (h₁ : nearestTag c₁.history = some (tag, n))
    (h₂ : nearestTag c₂.history = some (tag, n + (k + 1)))
    (hdist : n = 0 → GivesWay dist (k + 1)) :
    Rpm.vercmp (c₁.label dist).release (c₂.label dist).release = .lt := by
  show Rpm.vercmp (c₁.rpmRelease ++ dist) (c₂.rpmRelease ++ dist) = .lt
  rw [Checkout.rpmRelease_snapshot h₂]
  cases n with
  | zero =>
      have hway := vercmp_tagged (hdist rfl) c₂.head.short (c₂.gitDirty ++ dist)
      rw [Checkout.rpmRelease_tagged hclean₁ h₁]
      simpa using hway
  | succ n =>
      have hless : n + 1 < n + 1 + k + 1 := by omega
      have hlater := vercmp_snapshot hless
        ("git".toList ++ (c₁.head.short.text ++ c₁.gitDirty ++ dist))
        ("git".toList ++ (c₂.head.short.text ++ c₂.gitDirty ++ dist))
      rw [Checkout.rpmRelease_snapshot h₁]
      simpa using hlater

/-- **Later builds are upgrades.** Take a linear history and clean checkouts of two of its
revisions, in which the Makefile's version is the workspace version, the second one a
descendant of the first, which has a tag to be described by. With any dist suffix, RPM takes
the second package for the newer one, whatever the hashes are, if only the suffix gives way
where the first is a release and the second a snapshot of it.
SOURCE: Makefile:36-61, sleep-block.spec:26-36, bump-version.py:70-82 -/
theorem later_build_upgrades {v dist : Text} {c₁ c₂ : Checkout}
    (hlinear : LinearHistory (fun r => r = c₁.head ∨ r = c₂.head) v c₂.history)
    (hancestor : c₁.history <:+ c₂.ancestors)
    (htag : ∃ r ∈ c₁.history, r.tags ≠ []) (hclean₁ : c₁.Clean) (hclean₂ : c₂.Clean)
    (hdist : ∀ n, SnapshotOf c₂ c₁ n → GivesWay dist n) :
    (c₁.label dist).compare (c₂.label dist) = .lt := by
  obtain ⟨l, hl⟩ := hancestor
  have hhistory : c₂.history = (c₂.head :: l) ++ c₁.history := by
    rw [List.cons_append, hl]
    rfl
  obtain ⟨tag, n, hnearest⟩ := exists_nearestTag htag
  rw [hhistory] at hlinear
  obtain ⟨v₁, hlinear₁, hgrows⟩ := version_or_count hlinear hnearest
  rw [← hhistory] at hlinear hgrows
  rw [Rpm.Label.compare, label_version hclean₁ (Or.inl rfl) hlinear₁,
    label_version hclean₂ (Or.inr rfl) hlinear]
  rcases hgrows with hlt | ⟨rfl, huntagged, hnearest₂⟩
  · -- a release in between
    rw [vercmp_plain hlinear₁.versioned.plain hlinear.versioned.plain hlt]
    rfl
  · -- the same version, and at least one more commit since its tag
    rw [Rpm.vercmp_self, Ordering.eq_then]
    apply vercmp_release hclean₁ hnearest hnearest₂
    rintro rfl
    exact hdist _ ⟨tags_of_nearestTag hnearest, _, hhistory, rfl, huntagged⟩

/-! ## A release and a snapshot of it -/

/-- The version key of the example manifest. -/
def workspaceKey : VersionKey where
  toEntry := manifest [] none
  isVersion := by decide

/-- A commit with version 0.1.0 and these tags. -/
def commitWith (tags : List RefName) : Revision where
  cargoToml := workspaceKey.text
  tags := tags
  short := ⟨"0a1b2c3".toList, by decide, List.all_eq_true.mp (by decide)⟩
  described := ⟨"0a1b2c3".toList, by decide, List.all_eq_true.mp (by decide)⟩

/-- The tag of the example's release. -/
def firstTag : RefName := ⟨"v0.1.0".toList, by decide⟩

/-- A checkout of the tagged revision. -/
def taggedCheckout : Checkout := ⟨commitWith [firstTag], [], workspaceKey.text, []⟩

/-- A checkout of the revision behind it, with an untracked directory. -/
def nextCheckout : Checkout :=
  ⟨commitWith [], [commitWith [firstTag]], workspaceKey.text, ["?? tmp/".toList]⟩

/-- The example's revisions have version 0.1.0. -/
theorem versioned_commitWith (tags : List RefName) :
    Versioned built (commitWith tags) "0.1.0".toList where
  key := ⟨workspaceKey, rfl, rfl⟩
  packaged _ := by
    show makeVersion workspaceKey.text = _
    decide
  plain := (numbers_dotted 0 1 0).1

/-- The example's history is linear. -/
theorem linear_nextCheckout : LinearHistory built "0.1.0".toList nextCheckout.history :=
  .other (.first (versioned_commitWith _) (Or.inr ⟨firstTag, by simp [commitWith], rfl⟩) (by simp))
    (versioned_commitWith _) rfl

/-- Both checkouts are clean. -/
theorem clean_checkouts : taggedCheckout.Clean ∧ nextCheckout.Clean :=
  ⟨⟨rfl, by simp [taggedCheckout]⟩, ⟨rfl, by simp [nextCheckout]⟩⟩

/-- The tagged checkout has a tag. -/
theorem tagged_taggedCheckout : ∃ r ∈ taggedCheckout.history, r.tags ≠ [] :=
  ⟨commitWith [firstTag], List.mem_singleton_self _, by simp [commitWith]⟩

/-- With a suffix that begins with a number the snapshot is older than its release. -/
theorem numbered_suffix_downgrades :
    LinearHistory (fun _ => True) "0.1.0".toList nextCheckout.history ∧
      taggedCheckout.history <:+ nextCheckout.ancestors ∧
      (∃ r ∈ taggedCheckout.history, r.tags ≠ []) ∧
      taggedCheckout.Clean ∧ nextCheckout.Clean ∧
      taggedCheckout.label ".7".toList = ⟨"0.1.0".toList, "1.7".toList⟩ ∧
      nextCheckout.label ".7".toList = ⟨"0.1.0".toList, "1.1.git0a1b2c3.7".toList⟩ ∧
      (taggedCheckout.label ".7".toList).compare (nextCheckout.label ".7".toList) = .gt :=
  ⟨linear_nextCheckout, List.suffix_rfl, tagged_taggedCheckout, clean_checkouts.1,
    clean_checkouts.2, by decide, by decide, by decide⟩

/-- With a suffix that begins with a letter it is newer. -/
theorem later_build_upgrades_letter :
    LinearHistory (fun _ => True) "0.1.0".toList nextCheckout.history ∧
      taggedCheckout.label ".fc44".toList = ⟨"0.1.0".toList, "1.fc44".toList⟩ ∧
      (taggedCheckout.label ".fc44".toList).compare (nextCheckout.label ".fc44".toList) = .lt := by
  refine ⟨linear_nextCheckout, by decide, ?_⟩
  apply later_build_upgrades linear_nextCheckout List.suffix_rfl tagged_taggedCheckout
    clean_checkouts.1 clean_checkouts.2
  intro n _
  have hdot : ∀ x ∈ ['.'], Rpm.Segment.start x = none := by
    simp [Rpm.Segment.start]
  have hletter : Rpm.Segment.start 'f' = some (.letters ['f']) := by
    simp [Rpm.Segment.start]
  exact givesWay_of_letter hdot hletter "c44".toList n

end SleepBlocker.Analysis
