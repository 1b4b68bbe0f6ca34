import SleepBlocker.Computation.RpmVersion
import SleepBlocker.Model.Makefile

/-!
# The release in the Makefile

The model of `COMMITS_SINCE_TAG`, `GIT_SHA`, `GIT_DIRTY` and `RPM_RELEASE`, and of the version
and release that `sleep-block.spec` makes of them. A history is linear and given newest
revision first. `git describe --tags --long` reports the nearest tag, the number of commits
since and an abbreviation of the hash, and prints nothing when no tag can be reached.
-/

set_option autoImplicit false

namespace SleepBlocker.Model

open SleepBlocker.Computation

/-- `[0-9a-f]`. -/
def isHex (c : Char) : Bool := c.isDigit || "abcdef".toList.contains c

/-- An abbreviated commit hash. -/
structure Hash where
  text : Text
  nonempty : text ≠ []
  chars : ∀ c ∈ text, isHex c = true

/-- The name of a tag, which has no line ends. -/
structure RefName where
  text : Text
  line : '\n' ∉ text

/-- A revision, as far as a build of the package looks at it. -/
structure Revision where
  /-- `Cargo.toml` as committed. -/
  cargoToml : Text
  /-- The tags it carries, the one that `git describe` prefers first. -/
  tags : List RefName := []
  /-- What `git rev-parse --short` prints for it. -/
  short : Hash
  /-- The abbreviation that `git describe --long` uses for it. -/
  described : Hash

/-- A working tree on some revision. -/
structure Checkout where
  head : Revision
  /-- The ancestors of `HEAD`, its parent first. -/
  ancestors : List Revision
  /-- `Cargo.toml` in the working tree. -/
  cargoToml : Text
  /-- The lines that `git status --porcelain` prints. -/
  status : List Text

/-- The nearest tag of a history and the number of commits since. -/
def nearestTag : List Revision → Option (RefName × ℕ)
  | [] => none
  | r :: rest =>
    match r.tags with
    | tag :: _ => some (tag, 0)
    | [] => (nearestTag rest).map fun (tag, n) => (tag, n + 1)

/-- `.*-\([0-9]\+\)-g[0-9a-f]\+`. -/
def countPattern : Pattern Char String :=
  .seq (.greedy fun _ => true)
    (.seq (.one (· == '-'))
      (.seq (.group "1" (.seq (.one Char.isDigit) (.greedy Char.isDigit)))
        (.seq (.one (· == '-'))
          (.seq (.one (· == 'g')) (.seq (.one isHex) (.greedy isHex))))))

/-- `$`. -/
def atLineEnd (m : Cursor Char String) : Option (Cursor Char String) :=
  if m.after = [] then some m else none

/-- What `s/.*-\([0-9]\+\)-g[0-9a-f]\+$/\1/` makes of a line that matches. With `.*` in front
a match begins at the beginning of the line. -/
def commitCount (line : Text) : Option Text :=
  (countPattern.run atLineEnd ⟨[], line, []⟩).map fun m => (m.group "1").getD []

/-- `sed -n 's/.../\1/p'`, the last line without a line end if it has none. -/
def sedCounts : List Text → Text
  | [] => []
  | [last] => (commitCount last).getD []
  | line :: rest => ((commitCount line).map (· ++ ['\n'])).getD [] ++ sedCounts rest

namespace Checkout

/-- The revisions of a checkout, its head first. -/
def history (c : Checkout) : List Revision := c.head :: c.ancestors

/-- No file under version control has changed. -/
structure Clean (c : Checkout) : Prop where
  cargoToml : c.cargoToml = c.head.cargoToml
  untracked : ∀ line ∈ c.status, "??".toList <+: line

/-- `git describe --tags --long`. -/
def describe (c : Checkout) : Text :=
  match nearestTag c.history with
  | some (tag, n) =>
    tag.text ++ '-' :: Nat.toDigits 10 n ++ '-' :: 'g' :: c.head.described.text ++ ['\n']
  | none => []

/-- `COMMITS_SINCE_TAG`. -/
def commitsSinceTag (c : Checkout) : Text := shellOutput (sedCounts (c.describe.splitOn '\n'))

/-- `GIT_SHA`. -/
def gitSha (c : Checkout) : Text := shellOutput (c.head.short.text ++ ['\n'])

/-- `GIT_DIRTY`: `grep -qv '^??'` finds a line that is not of an untracked file. -/
def gitDirty (c : Checkout) : Text :=
  shellOutput (if c.status.any (!"??".toList.isPrefixOf ·) then ".dirty\n".toList else [])

/-- `RPM_RELEASE`. -/
def rpmRelease (c : Checkout) : Text :=
  if c.commitsSinceTag = ['0'] then '1' :: c.gitDirty
  else if c.commitsSinceTag = [] then "0.git".toList ++ c.gitSha ++ c.gitDirty
  else "1.".toList ++ c.commitsSinceTag ++ ".git".toList ++ c.gitSha ++ c.gitDirty

/-- `Version` and `Release` of the spec, where `dist` is what `%{?dist}` expands to. -/
def label (c : Checkout) (dist : Text) : Rpm.Label where
  version := makeVersion c.cargoToml
  release := c.rpmRelease ++ dist

end Checkout

end SleepBlocker.Model
