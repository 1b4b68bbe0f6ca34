import SleepBlocker.Analysis.ReleaseChain
import SleepBlocker.Analysis.ReleaseUndo
import SleepBlocker.Model.Project

/-!
# Release tags are kept and tell the truth

Over any history of work by hand and of releases that fail at any command, or at several, no
tag that exists is moved or deleted, every new one is named after the version in the tagged
`Cargo.toml`, and no commit is lost. `main_cases` says what a run of the script comes to for
the head and the tags: nothing, or one release commit, tagged unless `git tag` fails.
-/

set_option autoImplicit false

namespace SleepBlocker.Analysis

open SleepBlocker.Computation SleepBlocker.Model

/-! ## One run of the script -/

/-- The checks pass, and this version is about to be written in this `Cargo.toml`. -/
structure ReadyToRelease (u : Unicode) (t : Tools) (args : Args) (r : Repo) (new written : Text) :
    Prop where
  dryRun : args.dryRun = false
  written : ∃ file current, r.worktree cargoToml = some file ∧ readVersion u file = .ok current ∧
    bump u current args.part = .ok new ∧ writeVersion u new file = .ok written
  clean : dirtyLines u (t.status r) = []
  available : r.tags (tagOf new) = none

/-- The repository with the new version in its working tree. -/
def writtenTo (r : Repo) (written : Text) : Repo :=
  { r with worktree := Function.update r.worktree cargoToml (some written) }

/-- The commit of a release. -/
def releaseCommit (t : Tools) (r : Repo) (new written : Text) : Commit :=
  .mk [r.head] (addedBy t (writtenTo r written)).index ("Release ".toList ++ new)

variable {u : Unicode} {t : Tools} {args : Args} {r : Repo} {new written : Text}

/-- A release that starts is ready up to the commands it runs. -/
theorem ready_of_starts (h : Starts u t args r) :
    ∃ new written, ReadyToRelease u t args r new written := by
  obtain ⟨hdry, file, current, new, written, hfile, hread, hbump, hclean, htag, hwrite⟩ := h
  exact ⟨new, written, hdry, ⟨file, current, hfile, hread, hbump, hwrite⟩, hclean, htag⟩

/-- A release that is ready writes the version and goes on to its commands. -/
theorem main_of_ready (h : ReadyToRelease u t args r new written) :
    main u t args r =
      (do
        tagRelease t (tagOf new) ("Release ".toList ++ new)
        if args.noVerify then return
        verify t (tagOf new) : ReleaseM Unit).exec (writtenTo r written) := by
  obtain ⟨hdry, ⟨file, current, hfile, hread, hbump, hwrite⟩, hclean, htag⟩ := h
  simp only [main, mainBody, Script.exec_bind, exec_readCargoToml, hfile, Script.exec_ofExcept,
    hread, hbump, hdry, Bool.false_eq_true, if_false, exec_ensureCleanWorktree, hclean, if_true,
    exec_ensureTagAvailable, htag, hwrite, Script.exec_modify, writtenTo]

/-- **What the script does to the head and the tags.** Nothing; or it commits one release, and
then tags it unless `git tag` is its first command that fails. -/
theorem main_cases (u : Unicode) (t : Tools) (args : Args) (r : Repo) :
    ((main u t args r).2.head = r.head ∧ (main u t args r).2.tags = r.tags) ∨
      ∃ new written, ReadyToRelease u t args r new written ∧
        (main u t args r).2.head = releaseCommit t r new written ∧
        ((main u t args r).2.tags =
            Function.update r.tags (tagOf new) (some (releaseCommit t r new written)) ∨
          (main u t args r).2.tags = r.tags ∧ firstFailure t args = some .gitTag) := by
  by_cases hstarts : Starts u t args r
  · obtain ⟨new, written, h⟩ := ready_of_starts hstarts
    rw [main_of_ready h, Script.exec_bind]
    rcases exec_tagRelease t (tagOf new) ("Release ".toList ++ new) (writtenTo r written)
      with ⟨cmd, r', hexec, hfind, htags, hhead⟩ | ⟨hexec, -⟩
    · rw [hexec]
      by_cases hcmd : cmd = .gitTag
      · rw [if_pos hcmd] at hhead
        refine Or.inr ⟨new, written, h, hhead, Or.inr ⟨htags, ?_⟩⟩
        simp only [firstFailure, List.find?_append, hfind, Option.some_or, hcmd]
      · rw [if_neg hcmd] at hhead
        exact Or.inl ⟨hhead, htags⟩
    · rw [hexec]
      simp only
      cases hverify : args.noVerify with
      | true => exact Or.inr ⟨new, written, h, rfl, Or.inl rfl⟩
      | false =>
          simp only [Bool.false_eq_true, if_false, exec_verify]
          cases hmake : succeeds t .makePackage with
          | true => exact Or.inr ⟨new, written, h, rfl, Or.inl rfl⟩
          | false =>
              cases hstart : t.starts .makePackage with
              | true =>
                  obtain ⟨hhead, htags, -, -⟩ := Git.Repo.unwind_commit
                    (addedBy t (writtenTo r written)) ("Release ".toList ++ new) (tagOf new) _
                    h.available
                  exact Or.inl ⟨hhead, htags⟩
              | false => exact Or.inr ⟨new, written, h, rfl, Or.inl rfl⟩
  · obtain ⟨result, hmain, -⟩ := main_of_not_starts hstarts
    rw [hmain]
    exact Or.inl ⟨rfl, rfl⟩

/-- The new version is three numbers, and is read back from the `Cargo.toml` that is written. -/
theorem ReadyToRelease.read (h : ReadyToRelease u t args r new written) :
    Plain new ∧ readVersion u written = .ok new := by
  obtain ⟨-, ⟨file, current, -, hread, hbump, hwrite⟩, -, -⟩ := h
  have hplain : Plain new := by
    simp only [bump] at hbump
    split at hbump
    · cases hbump
    · split at hbump
      · cases hbump
        cases args.part <;> exact (numbers_dotted _ _ _).1
      · cases hbump
  refine ⟨hplain, ?_⟩
  obtain ⟨w, post, hlocated⟩ := readVersion_eq_ok.mp hread
  have hne : new ≠ current := by
    rintro rfl
    -- the same version again would be no change
    have hsame : substituted u new (readText file) = readText file := by
      rw [substituted_of_located hlocated, hlocated.split]
    simp [writeVersion, hsame] at hwrite
  obtain ⟨hwritten, hagain⟩ := writeVersion_located hlocated hplain hne
  rw [hwritten, Except.ok.injEq] at hwrite
  exact readVersion_eq_ok.mpr ⟨w, post, hwrite ▸ hagain⟩

/-- The commit has the `Cargo.toml` that was written. -/
theorem releaseCommit_cargoToml (ht : t.Faithful u) (r : Repo) (new written : Text) :
    (releaseCommit t r new written).tree cargoToml = some written := by
  show (addedBy t (writtenTo r written)).index cargoToml = some written
  simp [addedBy, Git.Repo.add, ht.cargoUpdate, writtenTo]

/-! ## Any history -/

/-- The tag is named after the version that the commit has. -/
def TellsTruth (u : Unicode) (tag : Text) (c : Commit) : Prop :=
  ∃ version file, tag = tagOf version ∧ Plain version ∧ c.tree cargoToml = some file ∧
    readVersion u file = .ok version

/-- From one repository to another, tags are kept, new ones tell the truth about a commit of
the history, and the old head is still in it. -/
structure Keeps (u : Unicode) (r r' : Repo) : Prop where
  kept : ∀ tag c, r.tags tag = some c → r'.tags tag = some c
  truthful : ∀ tag c, r'.tags tag = some c → r.tags tag = none →
    TellsTruth u tag c ∧ c.Ancestor r'.head
  ancestor : r.head.Ancestor r'.head

/-- Whatever else changes, the head and the tags are what matters. -/
theorem Keeps.of_eq {r' : Repo} (hhead : r'.head = r.head) (htags : r'.tags = r.tags) :
    Keeps u r r' where
  kept tag c h := by rwa [htags]
  truthful tag c h hnone := by
    rw [htags, hnone] at h
    cases h
  ancestor := hhead ▸ .refl _

/-- What is kept twice is kept. -/
theorem Keeps.trans {r' r'' : Repo} (h : Keeps u r r') (h' : Keeps u r' r'') : Keeps u r r'' where
  kept tag c hc := h'.kept tag c (h.kept tag c hc)
  truthful tag c hc hnone := by
    cases hmiddle : r'.tags tag with
    | none => exact h'.truthful tag c hc hmiddle
    | some c' =>
        have hsame : c' = c := Option.some.inj ((h'.kept tag c' hmiddle).symm.trans hc)
        subst hsame
        obtain ⟨htruth, hancestor⟩ := h.truthful tag c' hmiddle hnone
        exact ⟨htruth, hancestor.trans h'.ancestor⟩
  ancestor := h.ancestor.trans h'.ancestor

/-- A run of the script adds at most the tag of its own release, under a name that was free. -/
theorem keeps_main (ht : t.Faithful u) (args : Args) (r : Repo) :
    Keeps u r (main u t args r).2 := by
  rcases main_cases u t args r with ⟨hhead, htags⟩ | ⟨new, written, h, hhead, hcases⟩
  · exact .of_eq hhead htags
  · have hancestor : r.head.Ancestor (main u t args r).2.head := by
      rw [hhead]
      exact Git.Commit.ancestor_mk _ _ _
    rcases hcases with htags | ⟨htags, -⟩
    · obtain ⟨hplain, hread⟩ := h.read
      refine ⟨fun tag c hc => ?_, fun tag c hc hnone => ?_, hancestor⟩
      · rw [htags, Function.update_of_ne, hc]
        rintro rfl
        rw [h.available] at hc
        cases hc
      · by_cases htag : tag = tagOf new
        · subst htag
          rw [htags, Function.update_self, Option.some.injEq] at hc
          subst hc
          exact ⟨⟨new, written, rfl, hplain, releaseCommit_cargoToml ht r new written, hread⟩,
            hhead ▸ .refl _⟩
        · rw [htags, Function.update_of_ne htag, hnone] at hc
          cases hc
    · refine ⟨fun tag c hc => by rwa [htags], fun tag c hc hnone => ?_, hancestor⟩
      rw [htags, hnone] at hc
      cases hc

/-- Every activity keeps the tags, if the tools of its release do what they are documented to
do. -/
theorem keeps_step {a : Activity} {r' : Repo} (ha : ∀ t args, a = .bump t args → t.Faithful u)
    (hs : (project u).step r a = some r') : Keeps u r r' := by
  simp only [project, Option.some.injEq] at hs
  subst hs
  cases a with
  | edit index worktree => exact .of_eq rfl rfl
  | commit message =>
      refine ⟨fun tag c hc => hc, fun tag c hc hnone => ?_, Git.Commit.ancestor_mk _ _ _⟩
      exact absurd (hc.symm.trans hnone) (by simp)
  | bump t args => exact keeps_main (ha t args rfl) args r

/-- **Release tags are kept and tell the truth.** Take any repository and any history of work by
hand and runs of `bump-version.py`, in which any command up to `make package` fails. Every tag
there was is still there, on the same commit; every new one is `v` and the version, three
numbers, that is read in the `Cargo.toml` of the tagged commit, which is in the history of the
head; and so is the head there was.
SOURCE: bump-version.py:60-92, bump-version.py:113-116, bump-version.py:134-193 -/
theorem tags_kept_and_true (u : Unicode) {r r' : Repo} {history : List Activity}
    (htools : ∀ a ∈ history, ∀ t args, a = .bump t args → t.Faithful u)
    (hr : (project u).run r history = some r') :
    (∀ tag c, r.tags tag = some c → r'.tags tag = some c) ∧
      (∀ tag c, r'.tags tag = some c → r.tags tag = none →
        TellsTruth u tag c ∧ c.Ancestor r'.head) ∧
      r.head.Ancestor r'.head := by
  have h : Keeps u r r' := Machine.rel_of_run (fun _ => .of_eq rfl rfl)
    (fun _ _ _ h h' => h.trans h') (fun _ _ _ ha hs => keeps_step ha hs) htools hr
  exact ⟨h.kept, h.truthful, h.ancestor⟩

/-- Programs of which at most this one fails, with a status that sees `Cargo.toml`. -/
def honest (failing : Option Command) : Tools where
  status r := if r.worktree cargoToml = r.head.tree cargoToml then [] else " M Cargo.toml\n".toList
  starts _ := true
  returncode cmd := if failing = some cmd then 2 else 0
  cargoUpdate := id
  addFailed := id
  makePackage := id

/-- The honest tools do what they are documented to do. -/
theorem honest_faithful (failing : Option Command) : (honest failing).Faithful .ascii where
  status r h := by
    simp only [honest, if_neg h]
    decide
  cargoUpdate _ := rfl

/-- A release, one whose build fails, and an edit that is committed: the first one's tag is
there, and tells the truth. -/
theorem tags_kept_and_true_twoFiles :
    let history : List Activity :=
      [.bump (honest none) { part := .patch },
        .bump (honest (some .makePackage)) { part := .minor },
        .edit (fun _ => none) (fun _ => none), .commit []]
    ∃ r', (project .ascii).run (twoFiles []) history = some r' ∧
      (∃ c, r'.tags "v0.1.10".toList = some c ∧ TellsTruth .ascii "v0.1.10".toList c ∧
        c.Ancestor r'.head) ∧
      (twoFiles []).head.Ancestor r'.head := by
  intro history
  have htools : ∀ a ∈ history, ∀ t args, a = .bump t args → t.Faithful .ascii := by
    intro a ha t args hbump
    subst hbump
    simp only [history, List.mem_cons, Activity.bump.injEq, reduceCtorEq, List.not_mem_nil,
      or_false] at ha
    rcases ha with ⟨rfl, -⟩ | ⟨rfl, -⟩ <;> exact honest_faithful _
  have hr : ∃ r' c, (project .ascii).run (twoFiles []) history = some r' ∧
      r'.tags "v0.1.10".toList = some c := ⟨_, _, rfl, rfl⟩
  obtain ⟨r', c, hr, hc⟩ := hr
  obtain ⟨-, htruthful, hancestor⟩ := tags_kept_and_true .ascii htools hr
  obtain ⟨htruth, hreached⟩ := htruthful _ c hc rfl
  exact ⟨r', hr, ⟨c, hc, htruth, hreached⟩, hancestor⟩

end SleepBlocker.Analysis
