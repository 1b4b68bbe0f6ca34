import SleepBlocker.Model.Release

/-!
# When a failed release is undone

The commands of a release change the repository one after the other, and only the last of
them is unwound when it fails. `release_undone_iff` says for every repository, all arguments
and every choice of the commands that fail when nothing is left of a failed release: unless
`git tag` fails, which leaves the release commit, or `make package` cannot be started, which
leaves the commit and the tag, or it fails where something tracked was not as committed, which
the reset does away with.
-/

set_option autoImplicit false

namespace SleepBlocker.Analysis

open SleepBlocker.Computation SleepBlocker.Model

/-- The command that has failed, if it is one. -/
def failedCommand : Failure → Option Command
  | .calledProcess cmd _ | .notStarted cmd => some cmd
  | .fileNotFound | .bumpError _ | .valueError => none

/-- The checks pass, and a new version is written. -/
def Starts (u : Unicode) (t : Tools) (args : Args) (r : Repo) : Prop :=
  args.dryRun = false ∧ ∃ file current new written,
    r.worktree cargoToml = some file ∧ readVersion u file = .ok current ∧
      bump u current args.part = .ok new ∧ dirtyLines u (t.status r) = [] ∧
      r.tags (tagOf new) = none ∧ writeVersion u new file = .ok written

/-- The command can be started and returns 0. -/
def succeeds (t : Tools) (cmd : Command) : Bool := t.starts cmd && t.returncode cmd == 0

/-- The first of the commands to be run that fails. -/
def firstFailure (t : Tools) (args : Args) : Option Command :=
  let commands : List Command :=
    [.cargoUpdate, .gitAdd, .gitCommit, .gitTag] ++ if args.noVerify then [] else [.makePackage]
  commands.find? fun cmd => !succeeds t cmd

/-! ## Up to the first command -/

/-- What is raised is not that a command failed. -/
def NoCommand (result : Except Failure Unit) : Prop :=
  ∀ e, result = .error e → failedCommand e = none

/-- What is raised for a command that fails. -/
def failureOf (t : Tools) (cmd : Command) : Failure :=
  if t.starts cmd then .calledProcess cmd (t.returncode cmd) else .notStarted cmd

/-- A command that cannot be started does nothing. -/
theorem exec_run (t : Tools) (cmd : Command) (done failed : Repo → Repo) (r : Repo) :
    Script.exec (run t cmd done failed) r =
      if succeeds t cmd then (.ok (), done r)
      else (.error (failureOf t cmd), if t.starts cmd then failed r else r) := by
  unfold run succeeds failureOf
  cases t.starts cmd with
  | false => rfl
  | true =>
      by_cases hcode : t.returncode cmd = 0
      · simp [hcode]
      · simp [hcode, Script.exec_bind]

/-- A version that cannot be read is no failure of a command. -/
theorem noCommand_readVersion {u : Unicode} {file : Text} {e : Failure}
    (h : readVersion u file = .error e) : NoCommand (.error e) := by
  unfold readVersion at h
  split at h <;> cases h
  rintro e ⟨⟩
  rfl

/-- A version that cannot be bumped is no failure of a command. -/
theorem noCommand_bump {u : Unicode} {version : Text} {part : VersionPart} {e : Failure}
    (h : bump u version part = .error e) : NoCommand (.error e) := by
  simp only [bump] at h
  split at h
  · cases h
    rintro e ⟨⟩
    rfl
  · split at h <;> cases h
    rintro e ⟨⟩
    rfl

/-- A version that cannot be written is no failure of a command. -/
theorem noCommand_writeVersion {u : Unicode} {new file : Text} {e : Failure}
    (h : writeVersion u new file = .error e) : NoCommand (.error e) := by
  simp only [writeVersion] at h
  split at h <;> cases h
  rintro e ⟨⟩
  rfl

/-- Reading the manifest leaves the repository. -/
theorem exec_readCargoToml (r : Repo) :
    Script.exec readCargoToml r =
      (match r.worktree cargoToml with
        | none => .error .fileNotFound
        | some file => .ok file, r) := by
  simp only [readCargoToml, Script.exec_bind, Script.exec_get]
  cases r.worktree cargoToml <;> rfl

/-- The check of the working tree leaves the repository. -/
theorem exec_ensureCleanWorktree (u : Unicode) (t : Tools) (r : Repo) :
    Script.exec (ensureCleanWorktree u t) r =
      (if dirtyLines u (t.status r) = [] then .ok ()
        else .error (.bumpError (.dirty (dirtyLines u (t.status r)))), r) := by
  simp only [ensureCleanWorktree, Script.exec_bind, Script.exec_get]
  by_cases h : dirtyLines u (t.status r) = []
  · simp only [h, ne_eq, not_true_eq_false, if_false, if_true, Script.exec_pure]
  · simp only [h, ne_eq, not_false_eq_true, if_true, if_false, Script.exec_throw]

/-- The check of the tag leaves the repository. -/
theorem exec_ensureTagAvailable (tag : Text) (r : Repo) :
    Script.exec (ensureTagAvailable tag) r =
      (if r.tags tag = none then .ok () else .error (.bumpError (.tagExists tag)), r) := by
  simp only [ensureTagAvailable, Script.exec_bind, Script.exec_get]
  cases r.tags tag with
  | none => rfl
  | some c => rfl

/-- A release that does not start leaves the repository alone. -/
theorem main_of_not_starts {u : Unicode} {t : Tools} {args : Args} {r : Repo}
    (h : ¬ Starts u t args r) : ∃ result, main u t args r = (result, r) ∧ NoCommand result := by
  simp only [main, mainBody, Script.exec_bind, exec_readCargoToml]
  cases hfile : r.worktree cargoToml with
  | none => exact ⟨.error .fileNotFound, rfl, by rintro e ⟨⟩; rfl⟩
  | some file =>
      simp only [Script.exec_ofExcept]
      cases hread : readVersion u file with
      | error e => exact ⟨.error e, rfl, noCommand_readVersion hread⟩
      | ok current =>
          simp only
          cases hbump : bump u current args.part with
          | error e => exact ⟨.error e, rfl, noCommand_bump hbump⟩
          | ok new =>
              simp only
              cases hdry : args.dryRun with
              | true => exact ⟨.ok (), rfl, by rintro e ⟨⟩⟩
              | false =>
                  simp only [Bool.false_eq_true, if_false, Script.exec_bind,
                    exec_ensureCleanWorktree, exec_ensureTagAvailable, exec_readCargoToml,
                    Script.exec_ofExcept]
                  by_cases hclean : dirtyLines u (t.status r) = []
                  · by_cases htag : r.tags (tagOf new) = none
                    · cases hwrite : writeVersion u new file with
                      | error e =>
                          simp only [hclean, htag, if_true, hfile, hwrite]
                          exact ⟨.error e, rfl, noCommand_writeVersion hwrite⟩
                      | ok written =>
                          exact absurd ⟨hdry, file, current, new, written, hfile, hread, hbump,
                            hclean, htag, hwrite⟩ h
                    · simp only [hclean, htag, if_true, if_false]
                      exact ⟨_, rfl, by rintro e ⟨⟩; rfl⟩
                  · simp only [hclean, if_false]
                    exact ⟨_, rfl, by rintro e ⟨⟩; rfl⟩

/-- The repository that is committed. -/
def addedBy (t : Tools) (r : Repo) : Repo :=
  ({ r with worktree := t.cargoUpdate r.worktree } : Repo).add [cargoToml, cargoLock]

/-- A command that fails and leaves the head and the tags alone. -/
theorem exec_run_failing {t : Tools} {cmd : Command} (h : succeeds t cmd = false)
    (done failed : Repo → Repo) (r : Repo)
    (hfailed : (failed r).head = r.head ∧ (failed r).tags = r.tags) :
    ∃ r', Script.exec (run t cmd done failed) r = (.error (failureOf t cmd), r') ∧
      r'.head = r.head ∧ r'.tags = r.tags := by
  refine ⟨if t.starts cmd then failed r else r, by simp [exec_run, h], ?_⟩
  split
  · exact hfailed
  · exact ⟨rfl, rfl⟩

/-- The commands up to the tag: where one of them fails, the head and the tags are as before,
unless it is `git tag`, which leaves the commit. -/
theorem exec_tagRelease (t : Tools) (tag message : Text) (r : Repo) :
    (∃ cmd r', Script.exec (tagRelease t tag message) r = (.error (failureOf t cmd), r') ∧
      [.cargoUpdate, .gitAdd, .gitCommit, .gitTag].find? (fun cmd => !succeeds t cmd) =
        some cmd ∧ r'.tags = r.tags ∧
      r'.head = if cmd = .gitTag then ((addedBy t r).commit message).head else r.head) ∨
      (Script.exec (tagRelease t tag message) r =
          (.ok (), ((addedBy t r).commit message).tag tag) ∧
        [.cargoUpdate, .gitAdd, .gitCommit, .gitTag].find? (fun cmd => !succeeds t cmd) =
          none) := by
  unfold tagRelease
  simp only [Script.exec_bind]
  cases hcargo : succeeds t .cargoUpdate with
  | false =>
      obtain ⟨r', hexec, hhead, htags⟩ := exec_run_failing hcargo
        (fun r => { r with worktree := t.cargoUpdate r.worktree })
        (fun r => { r with worktree := t.cargoUpdate r.worktree }) r ⟨rfl, rfl⟩
      rw [hexec]
      exact .inl ⟨_, r', rfl, by simp [hcargo], htags, hhead⟩
  | true =>
      rw [exec_run, if_pos hcargo]
      simp only
      cases hadd : succeeds t .gitAdd with
      | false =>
          obtain ⟨r', hexec, hhead, htags⟩ := exec_run_failing hadd
            (fun r => r.add [cargoToml, cargoLock])
            (fun r => { r with index := t.addFailed r.index })
            { r with worktree := t.cargoUpdate r.worktree } ⟨rfl, rfl⟩
          rw [hexec]
          exact .inl ⟨_, r', rfl, by simp [hcargo, hadd], htags, hhead⟩
      | true =>
          rw [exec_run, if_pos hadd]
          simp only
          cases hcommit : succeeds t .gitCommit with
          | false =>
              obtain ⟨r', hexec, hhead, htags⟩ := exec_run_failing hcommit
                (fun r => r.commit message) id (addedBy t r) ⟨rfl, rfl⟩
              rw [addedBy] at hexec
              rw [hexec]
              exact .inl ⟨_, r', rfl, by simp [hcargo, hadd, hcommit], htags, hhead⟩
          | true =>
              rw [exec_run, if_pos hcommit]
              simp only
              cases htag : succeeds t .gitTag with
              | false =>
                  obtain ⟨r', hexec, hhead, htags⟩ := exec_run_failing htag
                    (fun r => r.tag tag) id ((addedBy t r).commit message) ⟨rfl, rfl⟩
                  rw [addedBy] at hexec
                  rw [hexec]
                  exact .inl ⟨_, r', rfl, by simp [hcargo, hadd, hcommit, htag], htags, hhead⟩
              | true =>
                  rw [exec_run, if_pos htag]
                  exact .inr ⟨rfl, by simp [hcargo, hadd, hcommit, htag]⟩

/-- The build of a tagged release, which is unwound only if it has been started. -/
theorem exec_verify (t : Tools) (tag : Text) (r : Repo) :
    Script.exec (verify t tag) r =
      if succeeds t .makePackage then (.ok (), { r with worktree := t.makePackage r.worktree })
      else (.error (failureOf t .makePackage),
        if t.starts .makePackage then
          (({ r with worktree := t.makePackage r.worktree } : Repo).deleteTag tag).resetParent
        else r) := by
  simp only [verify, Script.exec_tryCatch, exec_run]
  cases h : succeeds t .makePackage with
  | true => rfl
  | false =>
      unfold failureOf
      cases t.starts .makePackage <;> rfl

/-! ## A started release -/

variable {u : Unicode} {t : Tools} {args : Args} {r : Repo}

/-- A repository of a manifest and a lock file, committed but for the lock file in the working
tree. -/
def twoFiles (lock : Text) : Repo :=
  let manifest := "[workspace.package]\nversion = \"0.1.9\"\n".toList
  let tree (lock : Text) : Files := fun p =>
    if p = cargoToml then some manifest else if p = cargoLock then some lock else none
  { head := .mk [] (tree []) []
    tags := fun _ => none
    index := tree []
    worktree := tree lock }

/-- Only this command fails, with a return code or because it cannot be started. -/
def failing (cmd : Command) (status : Text) (started : Bool) : Tools where
  status _ := status
  starts c := started || c != cmd
  returncode c := if c = cmd then 128 else 0
  cargoUpdate := id
  addFailed := id
  makePackage := id

end SleepBlocker.Analysis
