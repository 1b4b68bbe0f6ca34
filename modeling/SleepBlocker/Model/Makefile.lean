import Mathlib.Data.List.DropRight
import SleepBlocker.Model.BumpVersion

/-!
# The version in the Makefile

The model of `VERSION`, which the Makefile takes from `Cargo.toml` on its own: the lines that
`sed -n 's/^version *= *"\(.*\)"/\1/p'` prints, the first of them that `head -1` passes on, and
what `$(shell ...)` makes of it.
-/

set_option autoImplicit false

namespace SleepBlocker.Model

open SleepBlocker.Computation

/-- `version *= *"`. -/
def sedOpening : Pattern Char String :=
  .literal "version".toList
    (.seq (.greedy (· == ' '))
      (.seq (.one (· == '=')) (.seq (.greedy (· == ' ')) (.one (· == quote)))))

/-- The pattern of `s`, which is tried at the beginning of a line. -/
def sedPattern : Pattern Char String :=
  .seq sedOpening (.seq (.group "1" (.greedy fun _ => true)) (.one (· == quote)))

/-- What `s` makes of a line that matches: the group, and the rest behind the match. -/
def edited (line : Text) : Option Text :=
  (sedPattern.run some ⟨[], line, []⟩).map fun m => (m.group "1").getD [] ++ m.after

/-- The edited lines, the last one without a line end if it has none. -/
def sedLines : List Text → Text
  | [] => []
  | [last] => (edited last).getD []
  | line :: rest => ((edited line).map (· ++ ['\n'])).getD [] ++ sedLines rest

/-- `sed`, line by line. -/
def sed (file : Text) : Text := sedLines (file.splitOn '\n')

/-- `head -1`. -/
def headLine : Text → Text
  | [] => []
  | c :: rest => if c = '\n' then [c] else c :: headLine rest

/-- `$(shell ...)` takes a carriage return before a line end for a part of it. -/
def foldReturns : Text → Text
  | [] => []
  | '\r' :: '\n' :: rest => '\n' :: foldReturns rest
  | c :: rest => c :: foldReturns rest

/-- `$(shell ...)`: line ends are dropped at the end, and are blanks elsewhere. -/
def shellOutput (output : Text) : Text :=
  ((foldReturns output).rdropWhile (· == '\n')).map fun c => if c = '\n' then ' ' else c

/-- `VERSION`. -/
def makeVersion (file : Text) : Text := shellOutput (headLine (sed file))

end SleepBlocker.Model
