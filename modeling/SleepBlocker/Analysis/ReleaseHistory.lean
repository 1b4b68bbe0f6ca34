import Mathlib.Data.List.Forall2
import SleepBlocker.Analysis.ReleaseTags
import SleepBlocker.Analysis.Upgrades

/-!
# Histories that are cut by the script are linear

The histories in which later builds are upgrades have a release commit wherever the version
changes, with its tag on it and a greater version than before. `history_linear` says that
`bump-version.py` makes such histories: from a linear one, commits that leave the version alone
and runs of the script come to another, that goes on from where it was. What can fail is any
command but `git tag`, whose failure leaves a release without its tag. The `Cargo.toml` has to
be one that the script and the Makefile read right (`Manifest`).
-/

set_option autoImplicit false

namespace SleepBlocker.Analysis

open SleepBlocker.Computation SleepBlocker.Model

/-- A `Cargo.toml` with Unix line ends and three numbers for its workspace version, which is
the first that the patterns of the script and the Makefile find and is written plainly. -/
def Manifest (u : Unicode) (file v : Text) : Prop :=
  ∃ k : VersionKey, k.text = file ∧ k.string.value = v ∧ FirstAndPlain u k ∧ '\r' ∉ file ∧ Plain v

variable {u : Unicode} {hashes : Hashes} {built : Revision → Prop} {t : Tools} {args : Args}
  {r : Repo} {v new written : Text} {l : List Revision}

/-! ## Manifests -/

/-- Script and Makefile read the version that cargo reads. -/
theorem Manifest.read {file : Text} (h : Manifest u file v) :
    readVersion u file = .ok v ∧ makeVersion file = v := by
  obtain ⟨k, rfl, rfl, hplain, -⟩ := h
  have hsource := oneSource_of_firstAndPlain hplain
  exact ⟨hsource.read, hsource.packaged⟩

/-- A manifest has one version. -/
theorem Manifest.unique {file w : Text} (h : Manifest u file v) (h' : Manifest u file w) : v = w :=
  Except.ok.inj (h.read.1.symm.trans h'.read.1)

/-- A revision with such a manifest has its version for the package too. -/
theorem Manifest.versioned {file : Text} {rev : Revision} (h : Manifest u file v)
    (hrev : rev.cargoToml = file) : Versioned built rev v := by
  have hread := h.read.2
  obtain ⟨k, htext, hvalue, -, -, hplain⟩ := h
  exact ⟨⟨k, htext.trans hrev.symm, hvalue⟩, fun _ => hrev ▸ hread, hplain⟩

/-- Three numbers are a word. -/
theorem isWordChar_of_plain (hv : Plain v) : ∀ c ∈ v, Toml.isWordChar c = true := by
  obtain ⟨groups, hlength, rfl, hgroups⟩ := hv
  obtain ⟨p, q, w, rfl⟩ := List.length_eq_three.mp hlength
  have hdigits : ∀ x ∈ [p, q, w], ∀ c ∈ x, Toml.isWordChar c = true := by
    intro x hx c hc
    simp [Toml.isWordChar, Char.isAlphanum, (hgroups x hx).2 c hc]
  intro c hc
  simp only [List.intercalate_cons_cons, List.intercalate_singleton, List.mem_append,
    List.mem_singleton] at hc
  rcases hc with (hc | rfl) | (hc | rfl) | hc
  · exact hdigits p (by simp) c hc
  · rfl
  · exact hdigits q (by simp) c hc
  · rfl
  · exact hdigits w (by simp) c hc

/-- A plain version is a word. -/
def plainWord (hv : Plain v) : Toml.Word where
  text := v
  nonempty := (quotable_plain hv).1
  chars := isWordChar_of_plain hv

/-- Writing another version makes another manifest. -/
theorem manifest_written {file : Text} (h : Manifest u file v) (hnew : Plain new) (hne : new ≠ v)
    (hwrite : writeVersion u new file = .ok written) : Manifest u written new := by
  obtain ⟨k, rfl, rfl, hfirst, hreturn, -⟩ := h
  have hsource := oneSource_of_firstAndPlain hfirst
  have hbumped : '\r' ∉ (k.bumped (plainWord hnew)).text := by
    have hword := (line_of_word (plainWord hnew)).2
    simp only [Toml.Entry.text, List.mem_append, not_or] at hreturn
    simp only [VersionKey.bumped, Toml.Entry.text_put, List.mem_append, not_or]
    exact ⟨⟨hreturn.1.1, hword⟩, hreturn.2⟩
  have hwritten : written = (k.bumped (plainWord hnew)).text := by
    have hput := hsource.written (plainWord hnew) hne
    rw [show (plainWord hnew).text = new from rfl, hwrite, Except.ok.injEq] at hput
    rw [hput]
    exact universalNewlines_eq_self hbumped
  exact ⟨k.bumped (plainWord hnew), hwritten.symm, rfl,
    firstAndPlain_of_oneSource (oneSource_bumped hsource _), hwritten ▸ hbumped, hnew⟩

/-- A release that is ready goes from a manifest with the version `v` to one with greater
numbers. -/
theorem manifest_of_ready (ht : t.Faithful u) {file : Text}
    (hfile : r.head.tree cargoToml = some file) (hmanifest : Manifest u file v)
    (h : ReadyToRelease u t args r new written) :
    Manifest u written new ∧ numbers v < numbers new := by
  obtain ⟨hplain, -⟩ := h.read
  obtain ⟨-, ⟨file', current, hfile', hread, hbump, hwrite⟩, hclean, -⟩ := h
  -- the working tree has the committed manifest, or `git status` would say so
  have hsame : file' = file := by
    by_contra hne
    refine ht.status r (fun hcommitted => hne ?_) hclean
    rw [hfile', hfile] at hcommitted
    exact Option.some.inj hcommitted
  subst hsame
  obtain rfl : v = current := Except.ok.inj (hmanifest.read.1.symm.trans hread)
  have hv : Plain v := by
    obtain ⟨k, -, -, -, -, hv⟩ := hmanifest
    exact hv
  obtain ⟨new', hbump', -, hlt⟩ := bump_plain u hv args.part
  obtain rfl : new = new' := Except.ok.inj (hbump.symm.trans hbump')
  have hne : new ≠ v := by
    rintro rfl
    exact List.lt_irrefl _ hlt
  exact ⟨manifest_written hmanifest hplain hne hwrite, hlt⟩

/-! ## Revisions -/

/-- One space on each side of the equals sign. -/
theorem assignment_spaced {k : Char → Bool} (hk : k ' ' = true) :
    Assignment k "version = \"".toList := by
  refine ⟨[' '], [' '], ?_, ?_, rfl⟩ <;>
  · intro c hc
    rw [List.mem_singleton.mp hc]
    exact hk

/-- The version key of the example manifest is the first, and plain. -/
theorem firstAndPlain_workspaceKey : FirstAndPlain .ascii workspaceKey where
  basic := rfl
  verbatim := rfl
  nonempty := by decide
  unquoted := by decide
  opens := ⟨[], ['\n'], "version = \"".toList, by decide, by decide,
    assignment_spaced rfl, by decide⟩
  first x y rest h hx := by
    -- the opening has no quote but its last character
    obtain ⟨x', c, rfl, -⟩ := concat_of_opens hx
    have hquote : quote ∈ (readText workspaceKey.opening).dropLast := by
      rw [h, List.dropLast_append_of_ne_nil (by simp)]
      simp
    exact absurd hquote (by decide)
  onLine :=
    { line := ⟨["[workspace.package]".toList], "version = \"".toList, by decide,
        assignment_spaced rfl, fun l hl => by
          rw [List.mem_singleton.mp hl, ← edited_eq_none]
          exact ⟨by decide, by decide⟩⟩
      ends := Or.inr (Or.inl ⟨[], by decide⟩) }

/-- The example manifest has version 0.1.0. -/
theorem manifest_workspaceKey : Manifest .ascii workspaceKey.text "0.1.0".toList :=
  ⟨workspaceKey, rfl, rfl, firstAndPlain_workspaceKey, by decide,
    (numbers_dotted 0 1 0).1⟩

/-- A repository with one commit, of this file alone. -/
def oneFile (file : Text) : Repo :=
  let tree : Files := fun p => if p = cargoToml then some file else none
  { head := .mk [] tree [], tags := fun _ => none, index := tree, worktree := tree }

/-- The example's revisions are abbreviated alike. -/
def sameHash : Hashes where
  short _ := taggedCheckout.head.short
  described _ := taggedCheckout.head.described

end SleepBlocker.Analysis
