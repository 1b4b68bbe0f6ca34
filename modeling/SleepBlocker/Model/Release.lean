import SleepBlocker.Computation.Git
import SleepBlocker.Computation.Script
import SleepBlocker.Model.BumpVersion

/-!
# Cutting a release

The model of `main` in `bump-version.py`: a script over the git repository and its working
tree. What the commands print, return and do to the working tree is a parameter, `Tools`;
what git's commands do to the repository when they succeed is `Git.Repo`'s.
-/

set_option autoImplicit false

namespace SleepBlocker.Model

open SleepBlocker.Computation

/-- The files of the project, by path. -/
abbrev Files := Git.Tree Text Text

/-- The repository of the project. -/
abbrev Repo := Git.Repo Text Text Text

/-- The manifest. -/
def cargoToml : Text := "Cargo.toml".toList

/-- The lock file. -/
def cargoLock : Text := "Cargo.lock".toList

/-- The programs that the script calls. -/
structure Tools where
  /-- What `git status --porcelain` prints. -/
  status : Repo → Text
  /-- Whether the program is there and can be started. -/
  starts : Command → Bool
  /-- What it returns if it is; less than 0 when a signal has ended it. -/
  returncode : Command → ℤ
  /-- The working tree that `cargo update` leaves, whether it succeeds or fails. -/
  cargoUpdate : Files → Files
  /-- The index that a `git add` leaves when it fails. -/
  addFailed : Files → Files
  /-- The working tree that `make package` leaves, whether it succeeds or fails. -/
  makePackage : Files → Files

/-- What the command line says. -/
structure Args where
  part : VersionPart
  dryRun : Bool := false
  noVerify : Bool := false
  deriving DecidableEq, Repr

/-- `str.strip`. -/
def strip (u : Unicode) (text : Text) : Text :=
  ((text.dropWhile u.isSpace).reverse.dropWhile u.isSpace).reverse

/-- The characters that `str.splitlines` splits at. -/
def lineEnds : List ℕ := [10, 11, 12, 13, 28, 29, 30, 0x85, 0x2028, 0x2029]

/-- `str.splitlines`, behind the beginning of a line, latest character first. -/
def splitlinesFrom (line : Text) : Text → List Text
  | [] => if line = [] then [] else [line.reverse]
  | '\r' :: '\n' :: rest => line.reverse :: splitlinesFrom [] rest
  | c :: rest =>
    if lineEnds.contains c.toNat then line.reverse :: splitlinesFrom [] rest
    else splitlinesFrom (c :: line) rest

/-- `str.splitlines`. -/
def splitlines (text : Text) : List Text := splitlinesFrom [] text

/-- The lines of a status that are not about a `Cargo.lock`. -/
def dirtyLines (u : Unicode) (status : Text) : List Text :=
  (splitlines (strip u status)).filter fun line =>
    strip u line != [] && !cargoLock.isSuffixOf line

/-- A part of the script: it works on the repository and may fail. -/
abbrev ReleaseM (α : Type) := Script Repo Failure α

/-- `CARGO_TOML`, which has to be there to be read. -/
def readCargoToml : ReleaseM Text := do
  match (← get).worktree cargoToml with
  | none => throw .fileNotFound
  | some file => return file

/-- `ensure_clean_worktree`. -/
def ensureCleanWorktree (u : Unicode) (t : Tools) : ReleaseM Unit := do
  let dirty := dirtyLines u (t.status (← get))
  if dirty ≠ [] then throw (.bumpError (.dirty dirty))

/-- `ensure_tag_available`. -/
def ensureTagAvailable (tag : Text) : ReleaseM Unit := do
  if ((← get).tags tag).isSome then throw (.bumpError (.tagExists tag))

/-- `run` of a command, given what it does when it succeeds and when it fails. -/
def run (t : Tools) (cmd : Command) (done failed : Repo → Repo) : ReleaseM Unit := do
  if t.starts cmd = false then throw (.notStarted cmd)
  else if t.returncode cmd = 0 then modify done
  else
    modify failed
    throw (.calledProcess cmd (t.returncode cmd))

/-- The commands up to the tag. -/
def tagRelease (t : Tools) (tag message : Text) : ReleaseM Unit := do
  let update (r : Repo) : Repo := { r with worktree := t.cargoUpdate r.worktree }
  run t .cargoUpdate update update
  run t .gitAdd (fun r => r.add [cargoToml, cargoLock])
    (fun r => { r with index := t.addFailed r.index })
  run t .gitCommit (fun r => r.commit message) id
  run t .gitTag (fun r => r.tag tag) id

/-- `make package`, which is unwound if it fails: `git tag -d`, `git reset --hard HEAD^`. Only a
`CalledProcessError` is caught. -/
def verify (t : Tools) (tag : Text) : ReleaseM Unit := do
  let build (r : Repo) : Repo := { r with worktree := t.makePackage r.worktree }
  try
    run t .makePackage build build
  catch
  | .calledProcess cmd code =>
    modify fun r => r.deleteTag tag
    modify fun r => r.resetParent
    throw (.calledProcess cmd code)
  | e => throw e

/-- The body of `main`, from reading the version to the end. -/
def mainBody (u : Unicode) (t : Tools) (args : Args) : ReleaseM Unit := do
  let current ← Script.ofExcept (readVersion u (← readCargoToml))
  let new ← Script.ofExcept (bump u current args.part)
  if args.dryRun then return
  ensureCleanWorktree u t
  ensureTagAvailable (tagOf new)
  let written ← Script.ofExcept (writeVersion u new (← readCargoToml))
  modify fun r => { r with worktree := Function.update r.worktree cargoToml (some written) }
  tagRelease t (tagOf new) ("Release ".toList ++ new)
  if args.noVerify then return
  verify t (tagOf new)

/-- `main`: what was raised, if anything, and the repository afterwards. -/
def main (u : Unicode) (t : Tools) (args : Args) (r : Repo) : Except Failure Unit × Repo :=
  (mainBody u t args).exec r

end SleepBlocker.Model
