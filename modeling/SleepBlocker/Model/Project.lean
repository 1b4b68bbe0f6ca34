import SleepBlocker.Computation.Machine
import SleepBlocker.Model.Release
import SleepBlocker.Model.RpmRelease

/-!
# The project over time

What happens to the project's repository from release to release: work by hand in the index
and the working tree, commits of it, and runs of `bump-version.py`, each with programs that
succeed or fail as they do then. `Revisions` are the revisions that the Makefile sees of a
commit and its ancestors.
-/

set_option autoImplicit false

namespace SleepBlocker.Model

open SleepBlocker.Computation

/-- A commit of the project. -/
abbrev Commit := Git.Commit Text Text Text

/-- What is done to the repository. -/
inductive Activity where
  /-- Files are edited and staged. -/
  | edit (index worktree : Files)
  | commit (message : Text)
  | bump (t : Tools) (args : Args)

/-- The repository after an activity. -/
def Activity.apply (u : Unicode) (r : Repo) : Activity → Repo
  | .edit index worktree => { r with index, worktree }
  | .commit message => r.commit message
  | .bump t args => (main u t args r).2

/-- The project as a machine. -/
def project (u : Unicode) : Machine Repo Activity where
  step r a := some (a.apply u r)

/-- The abbreviations of commit hashes: of `git rev-parse --short` and of `git describe`. -/
structure Hashes where
  short : Commit → Hash
  described : Commit → Hash

/-- What the Makefile sees of a commit. -/
structure RevisionOf (hashes : Hashes) (r : Repo) (c : Commit) (rev : Revision) : Prop where
  cargoToml : rev.cargoToml = (c.tree Model.cargoToml).getD []
  tags : ∀ tag, tag ∈ rev.tags ↔ r.tags tag.text = some c
  short : rev.short = hashes.short c
  described : rev.described = hashes.described c

/-- `git status --porcelain` and `cargo update --workspace` as far as the script relies on them:
a `Cargo.toml` that is not as committed has a line, and is not touched by the update. -/
structure Tools.Faithful (u : Unicode) (t : Tools) : Prop where
  status : ∀ r : Repo, r.worktree cargoToml ≠ r.head.tree cargoToml → dirtyLines u (t.status r) ≠ []
  cargoUpdate : ∀ files, t.cargoUpdate files cargoToml = files cargoToml

end SleepBlocker.Model
