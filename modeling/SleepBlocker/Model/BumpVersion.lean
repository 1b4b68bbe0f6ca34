import Mathlib.Data.Int.Notation
import SleepBlocker.Computation.Pattern

/-!
# Bumping the version

The model of the first half of `bump-version.py`: `read_version`, `bump` and `write_version`
on the text of `Cargo.toml`. What Python knows about characters is a parameter, `Unicode`,
of which only the part on ASCII is fixed.
-/

set_option autoImplicit false

namespace SleepBlocker.Model

open SleepBlocker.Computation

/-- A text is the list of its characters. -/
abbrev Text := List Char

/-- The ASCII characters for which `str.isspace` holds. -/
def asciiSpaces : List ℕ := [9, 10, 11, 12, 13, 28, 29, 30, 31, 32]

/-- Python's character tables, with what they say about ASCII. -/
structure Unicode where
  /-- `\s`. -/
  isSpace : Char → Bool
  /-- `\w`. -/
  isWord : Char → Bool
  /-- `str.isdigit`. -/
  isDigit : Char → Bool
  /-- The value that `int` takes a character for, if it takes it. -/
  decimal : Char → Option ℕ
  space_ascii : ∀ c : Char, c.toNat < 128 → isSpace c = asciiSpaces.contains c.toNat
  word_ascii : ∀ c : Char, c.toNat < 128 → isWord c = (c.isAlphanum || c == '_')
  digit_ascii : ∀ c : Char, c.toNat < 128 → isDigit c = c.isDigit
  decimal_ascii : ∀ c : Char, c.isDigit = true → decimal c = some (c.toNat - '0'.toNat)

namespace Unicode

/-- Tables that know ASCII only. -/
def ascii : Unicode where
  isSpace c := asciiSpaces.contains c.toNat
  isWord c := c.isAlphanum || c == '_'
  isDigit c := c.isDigit
  decimal c := if c.isDigit then some (c.toNat - '0'.toNat) else none
  space_ascii _ _ := rfl
  word_ascii _ _ := rfl
  digit_ascii _ _ := rfl
  decimal_ascii _ h := if_pos h

/-- `int` of a string of digits. -/
def int (u : Unicode) (p : Text) : Option ℕ :=
  p.foldlM (fun n c => (u.decimal c).map (10 * n + ·)) 0

end Unicode

/-- A condition that stops the bump with a readable message. -/
inductive BumpError where
  /-- There is no `[workspace.package]` version. -/
  | noVersion
  /-- The version is not a plain MAJOR.MINOR.PATCH. -/
  | notPlain (version : Text)
  /-- The version substitution made no change. -/
  | noChange
  /-- The working tree has uncommitted changes. -/
  | dirty (lines : List Text)
  | tagExists (tag : Text)
  deriving DecidableEq, Repr

/-- The commands that `main` runs, in order, apart from the two that unwind. -/
inductive Command where
  | cargoUpdate
  | gitAdd
  | gitCommit
  | gitTag
  | makePackage
  deriving DecidableEq, Repr

/-- What may be raised. -/
inductive Failure where
  /-- There is no `Cargo.toml`. -/
  | fileNotFound
  | bumpError (e : BumpError)
  /-- `int` does not take all that `str.isdigit` takes. -/
  | valueError
  /-- A command has returned something else than 0. -/
  | calledProcess (cmd : Command) (returncode : ℤ)
  /-- A command cannot be started: `subprocess.run` raises an `OSError`. -/
  | notStarted (cmd : Command)
  deriving DecidableEq, Repr

/-- Text mode translates all line ends to `\n`. -/
def universalNewlines : Text → Text
  | [] => []
  | '\r' :: '\n' :: rest => '\n' :: universalNewlines rest
  | '\r' :: rest => '\n' :: universalNewlines rest
  | c :: rest => c :: universalNewlines rest

/-- `CARGO_TOML.read_text()`. `write_text` leaves the text as it is. -/
def readText (file : Text) : Text := universalNewlines file

/-- The quotation mark of a basic string. -/
def quote : Char := '"'

/-- `WORKSPACE_VERSION`. -/
def workspaceVersion (u : Unicode) : Pattern Char String :=
  .seq
    (.group "head"
      (.literal "[workspace.package]".toList
        (.seq (.lazily (· != '['))
          (.seq (.boundary u.isWord)
            (.literal "version".toList
              (.seq (.greedy u.isSpace)
                (.seq (.one (· == '='))
                  (.seq (.greedy u.isSpace) (.one (· == quote))))))))))
    (.seq (.group "version" (.seq (.one (· != quote)) (.greedy (· != quote))))
      (.group "tail" (.one (· == quote))))

/-- `read_version`. -/
def readVersion (u : Unicode) (file : Text) : Except Failure Text :=
  match (workspaceVersion u).search (readText file) with
  | none => .error (.bumpError .noVersion)
  | some (_, m) => .ok ((m.group "version").getD [])

/-- The part of the version to bump. -/
inductive VersionPart where
  | major
  | minor
  | patch
  deriving DecidableEq, Repr

/-- `f"{a}.{b}.{c}"`. -/
def dotted (a b c : ℕ) : Text :=
  ['.'].intercalate [Nat.toDigits 10 a, Nat.toDigits 10 b, Nat.toDigits 10 c]

/-- `bump`. -/
def bump (u : Unicode) (version : Text) (part : VersionPart) : Except Failure Text :=
  let parts := version.splitOn '.'
  if parts.length ≠ 3 ∨ ¬ (parts.all fun p => p != [] && p.all u.isDigit) then
    .error (.bumpError (.notPlain version))
  else
    match parts.mapM u.int with
    | some [major, minor, patch] =>
      .ok (match part with
        | .major => dotted (major + 1) 0 0
        | .minor => dotted major (minor + 1) 0
        | .patch => dotted major minor (patch + 1))
    | _ => .error .valueError

/-- `f"v{new_version}"`. -/
def tagOf (version : Text) : Text := 'v' :: version

/-- `WORKSPACE_VERSION.sub(..., text, count=1)`. -/
def substituted (u : Unicode) (new text : Text) : Text :=
  match (workspaceVersion u).search text with
  | none => text
  | some (s, m) =>
    s.before.reverse ++ (m.group "head").getD [] ++ new ++ (m.group "tail").getD [] ++ m.after

/-- `write_version`, with what it writes. -/
def writeVersion (u : Unicode) (new file : Text) : Except Failure Text :=
  let text := readText file
  let updated := substituted u new text
  if updated = text then .error (.bumpError .noChange) else .ok updated

end SleepBlocker.Model
