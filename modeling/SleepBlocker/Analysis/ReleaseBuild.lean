import SleepBlocker.Analysis.ReleaseHistory

/-!
# The build of a release is labelled as one

`bump-version.py` ends with `make package`, and the Makefile asks `Cargo.toml`, `git describe`
and `git status` again what it is building. `release_build_label` says that the answer is the
release: the new version, with no commit since its tag and nothing changed. For the last of
these the check at the start has to stand for the state at the end, and it passes over every
path that ends in `Cargo.lock`, of which only the one at the top is committed.
-/

set_option autoImplicit false

namespace SleepBlocker.Analysis

open SleepBlocker.Computation SleepBlocker.Model

/-- The repository in which the script calls `make package`. -/
def tagged (t : Tools) (r : Repo) (new written : Text) : Repo :=
  ((addedBy t (writtenTo r written)).commit ("Release ".toList ++ new)).tag (tagOf new)

/-- What the Makefile finds in a repository. -/
structure CheckoutOf (hashes : Hashes) (t : Tools) (r : Repo) (c : Checkout) : Prop where
  head : RevisionOf hashes r r.head c.head
  worktree : r.worktree cargoToml = some c.cargoToml
  lines : ∀ line ∈ c.status, '\n' ∉ line
  status : t.status r = unlines c.status

/-- What is documented of `git status --porcelain` in this repository. -/
structure StatusOf (u : Unicode) (t : Tools) (r : Repo) : Prop where
  /-- A file that is not as in the index has a line that ends in its name, which is put in
  quotes if it has spaces or unusual characters. -/
  listed : ∀ p file, r.index p = some file → r.worktree p ≠ some file →
    ∃ pre name, pre ++ ' ' :: name ∈ splitlines (strip u (t.status r)) ∧
      strip u (pre ++ ' ' :: name) ≠ [] ∧ (name = p ∨ name.getLast? = some '"')
  /-- Where the index is that of the head and all its files are in the working tree, only files
  that are not tracked are listed. -/
  untracked : r.index = r.head.tree → (∀ p file, r.index p = some file → r.worktree p = some file) →
    ∀ lines, t.status r = unlines lines → (∀ line ∈ lines, '\n' ∉ line) →
      ∀ line ∈ lines, "??".toList <+: line

variable {u : Unicode} {hashes : Hashes} {t : Tools} {args : Args} {r : Repo}
  {v new written : Text} {c : Checkout}

/-- A release adds its own tag, on its own commit. -/
theorem tagged_tags (t : Tools) (r : Repo) (new written : Text) :
    (tagged t r new written).tags =
      Function.update r.tags (tagOf new) (some (tagged t r new written).head) := rfl

/-! ## The script up to the build -/

/-- If the commands before succeed, the build is in that repository, unless it is left out. -/
theorem main_of_succeeding (h : ReadyToRelease u t args r new written)
    (hsucceed :
      ∀ cmd ∈ [Command.cargoUpdate, .gitAdd, .gitCommit, .gitTag], succeeds t cmd = true) :
    main u t args r = Script.exec (if args.noVerify then pure () else verify t (tagOf new))
      (tagged t r new written) := by
  rw [main_of_ready h, Script.exec_bind]
  rcases exec_tagRelease t (tagOf new) ("Release ".toList ++ new) (writtenTo r written)
    with ⟨cmd, r', -, hfind, -⟩ | ⟨hexec, -⟩
  · have hfail := List.find?_some hfind
    have hcmd := hsucceed cmd (List.mem_of_find?_eq_some hfind)
    simp [hcmd] at hfail
  · rw [hexec]
    rfl

/-! ## What the check passes over -/

/-- A word without a space that a line ends in is within its last field. -/
theorem suffix_of_append_space {w pre name : Text} (hw : ' ' ∉ w)
    (h : w <:+ pre ++ ' ' :: name) : w <:+ name := by
  have hlast : ' ' :: name <:+ pre ++ ' ' :: name := List.suffix_append _ _
  by_cases hle : w.length ≤ name.length
  · exact List.suffix_of_suffix_length_le h ((List.suffix_cons _ _).trans hlast) hle
  · have hspace : ' ' :: name <:+ w :=
      List.suffix_of_suffix_length_le hlast h (by rw [List.length_cons]; omega)
    exact absurd (hspace.subset List.mem_cons_self) hw

/-- The check finds every change of a file whose path does not end in `Cargo.lock`. -/
theorem worktree_of_clean (ht : StatusOf u t r) (hclean : dirtyLines u (t.status r) = [])
    {p file : Text} (hp : r.index p = some file) (hlock : ¬ cargoLock <:+ p) :
    r.worktree p = some file := by
  by_contra hne
  obtain ⟨pre, name, hline, hblank, hname⟩ := ht.listed p file hp hne
  have hsuffix : cargoLock <:+ pre ++ ' ' :: name := by
    have hkept := List.filter_eq_nil_iff.mp hclean _ hline
    simpa [hblank] using hkept
  have hsuffix := suffix_of_append_space (by decide) hsuffix
  rcases hname with rfl | hquote
  · exact hlock hsuffix
  · -- `Cargo.lock` ends in no quote
    obtain ⟨w, rfl⟩ := hsuffix
    rw [List.getLast?_append, show cargoLock.getLast? = some 'k' from by decide] at hquote
    simp at hquote

/-! ## The checkout -/

/-- All that is tracked is as in the release commit. -/
theorem tagged_clean (ht : StatusOf u t r)
    (hupdate : ∀ files p, p ≠ cargoLock → t.cargoUpdate files p = files p)
    (h : ReadyToRelease u t args r new written)
    (honly : ∀ p file, r.index p = some file → cargoLock <:+ p → p = cargoLock) {p file : Text}
    (hp : (tagged t r new written).index p = some file) :
    (tagged t r new written).worktree p = some file := by
  have hp : (addedBy t (writtenTo r written)).index p = some file := hp
  unfold addedBy at hp
  by_cases hadded : p ∈ [cargoToml, cargoLock]
  · rw [Git.Repo.add_index_of_mem hadded] at hp
    exact hp
  · rw [Git.Repo.add_index_of_notMem hadded] at hp
    have hp : r.index p = some file := hp
    simp only [List.mem_cons, List.not_mem_nil, or_false, not_or] at hadded
    have hworktree : (tagged t r new written).worktree p = r.worktree p := by
      show t.cargoUpdate (Function.update r.worktree cargoToml (some written)) p = _
      rw [hupdate _ p hadded.2, Function.update_of_ne hadded.1]
    rw [hworktree]
    exact worktree_of_clean ht h.clean hp fun hlock => hadded.2 (honly p file hp hlock)

/-- The manifest at the head is the one in the working tree, which was written. -/
theorem tagged_cargoToml (hupdate : ∀ files p, p ≠ cargoLock → t.cargoUpdate files p = files p) :
    (tagged t r new written).worktree cargoToml = some written ∧
      (tagged t r new written).head.tree cargoToml = some written := by
  have hworktree : (tagged t r new written).worktree cargoToml = some written := by
    show t.cargoUpdate (Function.update r.worktree cargoToml (some written)) cargoToml = _
    rw [hupdate _ _ (by decide), Function.update_self]
  exact ⟨hworktree, hworktree⟩

/-- A checkout of the release has the manifest that was written. -/
theorem checkout_cargoToml
    (hupdate : ∀ files p, p ≠ cargoLock → t.cargoUpdate files p = files p)
    (hc : CheckoutOf hashes t (tagged t r new written) c) :
    c.cargoToml = written ∧ c.head.cargoToml = written := by
  obtain ⟨hworktree, htree⟩ := tagged_cargoToml (r := r) hupdate
  refine ⟨Option.some.inj (hc.worktree.symm.trans hworktree), ?_⟩
  rw [hc.head.cargoToml, htree]
  rfl

/-- The checkout is on the tag. -/
theorem nearestTag_tagged (hnew : Plain new)
    (hc : CheckoutOf hashes t (tagged t r new written) c) :
    ∃ tag, nearestTag c.history = some (tag, 0) := by
  have hline : '\n' ∉ tagOf new := by
    have hword := (line_of_word (plainWord hnew)).1
    simp [tagOf, show '\n' ∉ new from hword]
  have htag : ⟨tagOf new, hline⟩ ∈ c.head.tags := by
    rw [hc.head.tags, tagged_tags, Function.update_self]
  obtain ⟨tag, tags, htags⟩ := List.exists_cons_of_ne_nil (List.ne_nil_of_mem htag)
  exact ⟨tag, by rw [Checkout.history, nearestTag, htags]⟩

/-- **The build of a release is labelled as one.** Take a repository that passes the checks of
`bump-version.py`, whose `Cargo.toml` has Unix line ends and a version that is the first to be
found and plainly written, and which tracks no other file with a path that ends in
`Cargo.lock`. If the commands up to the tag succeed, `make package` is called in
the tagged repository, and there the Makefile and the spec come to the new version and to the
release `1`, with nothing but the dist suffix behind it.
SOURCE: bump-version.py:95-112, bump-version.py:159-190, Makefile:36-61, sleep-block.spec:26-36 -/
theorem release_build_label (ht : t.Faithful u)
    (hupdate : ∀ files p, p ≠ cargoLock → t.cargoUpdate files p = files p) {file : Text}
    (hfile : r.head.tree cargoToml = some file) (hmanifest : Manifest u file v)
    (honly : ∀ p file, r.index p = some file → cargoLock <:+ p → p = cargoLock)
    (h : ReadyToRelease u t args r new written) (hbefore : StatusOf u t r)
    (hafter : StatusOf u t (tagged t r new written))
    (hc : CheckoutOf hashes t (tagged t r new written) c) (dist : Text) :
    ((∀ cmd ∈ [Command.cargoUpdate, .gitAdd, .gitCommit, .gitTag], succeeds t cmd = true) →
      main u t args r = Script.exec (if args.noVerify then pure () else verify t (tagOf new))
        (tagged t r new written)) ∧
      c.label dist = ⟨new, '1' :: dist⟩ := by
  refine ⟨main_of_succeeding h, ?_⟩
  obtain ⟨hwritten, -⟩ := manifest_of_ready ht hfile hmanifest h
  obtain ⟨hworktree, hhead⟩ := checkout_cargoToml hupdate hc
  obtain ⟨tag, htag⟩ := nearestTag_tagged h.read.1 hc
  have hclean : c.Clean := by
    refine ⟨hworktree.trans hhead.symm, ?_⟩
    exact hafter.untracked rfl (fun _ _ hp => tagged_clean hbefore hupdate h honly hp) _ hc.status
      hc.lines
  have hversion : makeVersion c.cargoToml = new := by
    rw [hworktree, hwritten.read.2]
  rw [Checkout.label, hversion, Checkout.rpmRelease_tagged hclean htag]
  rfl

/-! ## A first patch release -/

/-- The manifest of the release. -/
def patched : Text := "[workspace.package]\nversion = \"0.1.1\"\n".toList

/-- A patch of the one-file repository is ready to release. -/
theorem ready_oneFile :
    ReadyToRelease .ascii (honest none) { part := .patch } (oneFile workspaceKey.text)
      "0.1.1".toList patched where
  dryRun := rfl
  written := ⟨workspaceKey.text, "0.1.0".toList, rfl, by decide, by decide, by decide⟩
  clean := by decide
  available := rfl

/-- With its manifest committed the repository has a clean status. -/
theorem honest_status {failing : Option Command} {r : Repo}
    (h : r.worktree cargoToml = r.head.tree cargoToml) : (honest failing).status r = [] :=
  if_pos h

/-- A repository with no change has no status. -/
theorem statusOf_honest {r : Repo} (hr : ∀ p file, r.index p = some file → r.worktree p = some file)
    (htoml : r.worktree cargoToml = r.head.tree cargoToml) : StatusOf .ascii (honest none) r where
  listed p file hp hne := absurd (hr p file hp) hne
  untracked _ _ lines hstatus _ := by
    have hnothing : unlines lines = [] := hstatus.symm.trans (honest_status htoml)
    have hlines : lines = [] := by
      cases lines with
      | nil => rfl
      | cons line lines => simp [unlines] at hnothing
    rw [hlines]
    exact fun line hline => absurd hline List.not_mem_nil

/-- The one-file repository has no other file. -/
theorem cargoToml_of_oneFile {p file : Text} (h : (oneFile workspaceKey.text).index p = some file) :
    p = cargoToml := by
  by_contra hne
  simp [oneFile, hne] at h

/-- The checkout in which the release is built. -/
def patchedCheckout : Checkout :=
  ⟨{ commitWith [⟨"v0.1.1".toList, by decide⟩] with cargoToml := patched }, [], patched, []⟩

/-- The hashes are the same whatever the tags. -/
theorem commitWith_hashes (tags tags' : List RefName) :
    (commitWith tags).short = (commitWith tags').short ∧
      (commitWith tags).described = (commitWith tags').described := ⟨rfl, rfl⟩

/-- The package built from the released patch is called by its version, release 1. -/
theorem release_build_label_oneFile :
    patchedCheckout.label ".fc44".toList = ⟨"0.1.1".toList, "1.fc44".toList⟩ := by
  have hupdate : ∀ files p, p ≠ cargoLock → (honest none).cargoUpdate files p = files p :=
    fun _ _ _ => rfl
  have honly : ∀ p file, (oneFile workspaceKey.text).index p = some file → cargoLock <:+ p →
      p = cargoLock := by
    intro p file hp hlock
    rw [cargoToml_of_oneFile hp] at hlock
    exact absurd hlock (by decide)
  have hbefore : StatusOf .ascii (honest none) (oneFile workspaceKey.text) :=
    statusOf_honest (fun _ _ hp => hp) rfl
  have hafter : StatusOf .ascii (honest none)
      (tagged (honest none) (oneFile workspaceKey.text) "0.1.1".toList patched) :=
    statusOf_honest (fun _ _ hp => tagged_clean hbefore hupdate ready_oneFile honly hp) rfl
  have hc : CheckoutOf sameHash (honest none)
      (tagged (honest none) (oneFile workspaceKey.text) "0.1.1".toList patched)
      patchedCheckout := by
    obtain ⟨hworktree, htree⟩ := tagged_cargoToml (r := oneFile workspaceKey.text) hupdate
    obtain ⟨hshort, hdescribed⟩ :=
      commitWith_hashes [⟨"v0.1.1".toList, by decide⟩] [firstTag]
    refine ⟨⟨?_, fun tag => ?_, hshort, hdescribed⟩,
      hworktree, by simp [patchedCheckout], honest_status (hworktree.trans htree.symm)⟩
    · rw [htree]
      rfl
    obtain ⟨text, hline⟩ := tag
    simp only [patchedCheckout, commitWith, List.mem_singleton, RefName.mk.injEq]
    rw [show "v0.1.1".toList = tagOf "0.1.1".toList from by decide, tagged_tags]
    constructor
    · rintro rfl
      exact Function.update_self ..
    · intro htag
      by_contra hne
      rw [Function.update_of_ne hne] at htag
      cases htag
  exact (release_build_label (honest_faithful none) hupdate rfl manifest_workspaceKey honly
    ready_oneFile hbefore hafter hc ".fc44".toList).2

end SleepBlocker.Analysis
