import Mathlib.Data.List.Basic

/-!
# TOML documents

The concrete syntax of TOML, with its blanks, comments and line ends, the text of each part,
and what a string is written for. Scalars that are no strings are left as words of the
characters that they may have. An `Entry` is a document seen from one of its keys, where the
value of the key is a string; `put` writes another word there.
-/

set_option autoImplicit false

namespace SleepBlocker.Computation.Toml

/-- Characters of one class. -/
abbrev Chars (k : Char → Bool) := { w : List Char // ∀ c ∈ w, k c = true }

/-- A character that must not stand in a comment. -/
def isControl (c : Char) : Bool := (c.toNat < 32 && c != '\t') || c.toNat == 127

/-- A space or a tab. -/
def isBlank (c : Char) : Bool := c == ' ' || c == '\t'

/-- White space on one line. -/
abbrev Blank := Chars isBlank

/-- A comment behind its `#`. -/
abbrev Comment := Chars fun c => !isControl c

/-- The text of a comment, with its number sign. -/
def commentText : Option Comment → List Char
  | none => []
  | some comment => '#' :: comment.val

/-- How a line ends. -/
inductive Newline where
  | lf
  | crlf
  deriving DecidableEq, Repr

/-- The characters of a line end. -/
def Newline.text : Newline → List Char
  | .lf => ['\n']
  | .crlf => ['\r', '\n']

/-! ## Strings -/

/-- The four ways to quote a string. -/
inductive Quoting where
  | basic
  | literal
  | multiBasic
  | multiLiteral
  deriving DecidableEq, Repr

/-- Where the reading of a string has got to. -/
inductive Mode where
  /-- After so many quotation marks in a row. -/
  | plain (marks : ℕ)
  /-- After a backslash. -/
  | escape
  /-- Within the digits of a code point. -/
  | hex (left code : ℕ)
  /-- Behind a backslash at the end of a line, or still before that end. -/
  | folding (ended : Bool)
  /-- After a carriage return. -/
  | carriage (folded : Bool)
  deriving DecidableEq, Repr

/-- A string may end here. -/
def Mode.finished : Mode → Bool
  | .plain _ | .folding true => true
  | _ => false

/-- The value of a hexadecimal digit. -/
def hexDigit (c : Char) : Option ℕ :=
  if c.isDigit then some (c.toNat - '0'.toNat)
  else if 'a' ≤ c ∧ c ≤ 'f' then some (c.toNat - 'a'.toNat + 10)
  else if 'A' ≤ c ∧ c ≤ 'F' then some (c.toNat - 'A'.toNat + 10)
  else none

namespace Quoting

/-- The string may span lines. -/
def multi : Quoting → Bool
  | .basic | .literal => false
  | .multiBasic | .multiLiteral => true

/-- The string reads escapes. -/
def escapes : Quoting → Bool
  | .basic | .multiBasic => true
  | .literal | .multiLiteral => false

/-- The quotation mark of the delimiter. -/
def mark : Quoting → Char
  | .basic | .multiBasic => '"'
  | .literal | .multiLiteral => Char.ofNat 39

/-- What stands on either side of the string. -/
def delim (q : Quoting) : List Char := List.replicate (if q.multi then 3 else 1) q.mark

/-- A character within the string: the mode that it leads to, and what it stands for. -/
def plainStep (q : Quoting) (marks : ℕ) (c : Char) : Option (Mode × List Char) :=
  if c = q.mark then if q.multi && marks < 2 then some (.plain (marks + 1), [c]) else none
  else if c = '\\' ∧ q.escapes = true then some (.escape, [])
  else if c = '\n' then if q.multi then some (.plain 0, [c]) else none
  else if c = '\r' then if q.multi then some (.carriage false, []) else none
  else if isControl c then none
  else some (.plain 0, [c])

/-- A character after a backslash. -/
def escapeStep (q : Quoting) : Char → Option (Mode × List Char)
  | 'b' => some (.plain 0, [Char.ofNat 8])
  | 't' => some (.plain 0, ['\t'])
  | 'n' => some (.plain 0, ['\n'])
  | 'f' => some (.plain 0, [Char.ofNat 12])
  | 'r' => some (.plain 0, ['\r'])
  | 'u' => some (.hex 4 0, [])
  | 'U' => some (.hex 8 0, [])
  | c =>
    if c = '\\' ∨ c = q.mark then some (.plain 0, [c])
    else if !q.multi then none
    else if isBlank c then some (.folding false, [])
    else if c = '\n' then some (.folding true, [])
    else if c = '\r' then some (.carriage true, [])
    else none

/-- What one character does to the reading, and what it adds to the value. -/
def step (q : Quoting) : Mode → Char → Option (Mode × List Char)
  | .plain marks, c => q.plainStep marks c
  | .escape, c => q.escapeStep c
  | .hex left code, c => do
    let n := 16 * code + (← hexDigit c)
    if left ≠ 1 then some (.hex (left - 1) n, [])
    else if n.isValidChar then some (.plain 0, [Char.ofNat n])
    else none
  | .folding ended, c =>
    if isBlank c then some (.folding ended, [])
    else if c = '\n' then some (.folding true, [])
    else if c = '\r' then some (.carriage true, [])
    else if ended then q.plainStep 0 c
    else none
  | .carriage folded, c =>
    if c ≠ '\n' then none
    else if folded then some (.folding true, [])
    else some (.plain 0, ['\n'])

/-- What is left of a string stands for, from a mode on. -/
def read (q : Quoting) : Mode → List Char → Option (List Char)
  | mode, [] => if mode.finished then some [] else none
  | mode, c :: rest => do
    let (mode', out) ← q.step mode c
    return out ++ (← q.read mode' rest)

/-- The line end with which a string over several lines may begin does not count. -/
def decode (q : Quoting) (raw : List Char) : Option (List Char) :=
  if q.multi then
    match raw with
    | '\n' :: rest | '\r' :: '\n' :: rest => q.read (.plain 0) rest
    | raw => q.read (.plain 0) raw
  else q.read (.plain 0) raw

end Quoting

/-- A string as it is written, and what it is written for. -/
structure Str where
  quoting : Quoting
  raw : List Char
  value : List Char
  decodes : quoting.decode raw = some value

/-- The text of a string, its delimiters included. -/
def Str.text (s : Str) : List Char := s.quoting.delim ++ s.raw ++ s.quoting.delim

/-- A character that every kind of string takes as it stands. -/
def isWordChar (c : Char) : Bool := c.isAlphanum || c == '.' || c == '-' || c == '+'

/-- A word that is written as it is, however it is quoted. -/
structure Word where
  text : List Char
  nonempty : text ≠ []
  chars : ∀ c ∈ text, isWordChar c = true
  deriving DecidableEq

/-- Characters between two others have their numbers between. -/
theorem toNat_between {c low high : Char} (hlow : low.val ≤ c.val) (hhigh : c.val ≤ high.val) :
    low.toNat ≤ c.toNat ∧ c.toNat ≤ high.toNat :=
  ⟨UInt32.le_iff_toNat_le.mp hlow, UInt32.le_iff_toNat_le.mp hhigh⟩

/-- The numbers of the letters. -/
theorem toNat_of_isAlpha {c : Char} (h : c.isAlpha = true) :
    65 ≤ c.toNat ∧ c.toNat ≤ 90 ∨ 97 ≤ c.toNat ∧ c.toNat ≤ 122 := by
  rcases Bool.or_eq_true_iff.mp h with hupper | hlower
  · have hrange : 'A'.val ≤ c.val ∧ c.val ≤ 'Z'.val := of_decide_eq_true hupper
    exact Or.inl (toNat_between hrange.1 hrange.2)
  · obtain ⟨hlow, hhigh⟩ := Bool.and_eq_true_iff.mp hlower
    have hlow : 'a'.val ≤ c.val := of_decide_eq_true hlow
    exact Or.inr (toNat_between hlow (of_decide_eq_true hhigh))

/-- The characters of words are printable ASCII. -/
theorem toNat_of_isWordChar {c : Char} (h : isWordChar c = true) :
    32 ≤ c.toNat ∧ c.toNat < 127 := by
  simp only [isWordChar, Char.isAlphanum, Bool.or_eq_true, beq_iff_eq] at h
  rcases h with (((halpha | hdigit) | rfl) | rfl) | rfl
  · have hc := toNat_of_isAlpha halpha
    omega
  · obtain ⟨hlow, hhigh⟩ := Bool.and_eq_true_iff.mp hdigit
    have hlow : '0'.val ≤ c.val := of_decide_eq_true hlow
    have hc : 48 ≤ c.toNat ∧ c.toNat ≤ 57 := toNat_between hlow (of_decide_eq_true hhigh)
    omega
  all_goals decide

/-- A character of a word is none that is no character of words. -/
theorem ne_of_isWordChar {c x : Char} (h : isWordChar c = true) (hx : isWordChar x = false) :
    c ≠ x := by
  rintro rfl
  rw [h] at hx
  cases hx

namespace Quoting

/-- Every kind of string takes a character of a word as it stands. -/
theorem plainStep_word (q : Quoting) (marks : ℕ) {c : Char} (h : isWordChar c = true) :
    q.plainStep marks c = some (.plain 0, [c]) := by
  obtain ⟨hlow, hhigh⟩ := toNat_of_isWordChar h
  have hmark : c ≠ q.mark := by
    cases q <;> exact ne_of_isWordChar h (by decide)
  have hescape : c ≠ '\\' := ne_of_isWordChar h (by decide)
  have hline : c ≠ '\n' := ne_of_isWordChar h (by decide)
  have hreturn : c ≠ '\r' := ne_of_isWordChar h (by decide)
  have hcontrol : isControl c = false := by
    have h32 : ¬ c.toNat < 32 := by omega
    have h127 : ¬ c.toNat = 127 := by omega
    simp [isControl, h32, h127]
  simp [plainStep, hmark, hescape, hline, hreturn, hcontrol]

/-- Every kind of string reads a word as itself. -/
theorem read_word (q : Quoting) (marks : ℕ) {w : List Char} (h : ∀ c ∈ w, isWordChar c = true) :
    q.read (.plain marks) w = some w := by
  induction w generalizing marks with
  | nil => rfl
  | cons c w ih =>
      obtain ⟨hc, hw⟩ := List.forall_mem_cons.mp h
      simp only [read, step, plainStep_word q marks hc]
      show (do return [c] ++ (← q.read (.plain 0) w) : Option (List Char)) = some (c :: w)
      rw [ih 0 hw]
      rfl

/-- The modes of a string on one line. -/
def single : Mode → Bool
  | .plain _ | .escape | .hex _ _ => true
  | .folding _ | .carriage _ => false

/-- A string on one line has no line ends, and stays on it. -/
theorem step_single {q : Quoting} (hq : q.multi = false) {mode mode' : Mode} {c : Char}
    {out : List Char} (hmode : single mode = true) (h : q.step mode c = some (mode', out)) :
    c ≠ '\n' ∧ c ≠ '\r' ∧ single mode' = true := by
  have hmark : q.mark ≠ '\n' ∧ q.mark ≠ '\r' := by
    cases q <;> decide
  cases mode with
  | plain marks =>
      simp only [step, plainStep, hq, Bool.false_and, Bool.false_eq_true, if_false] at h
      split at h
      · cases h
      · split at h
        · rename_i hescape
          cases h
          rw [hescape.1]
          decide
        · split at h
          · cases h
          · rename_i hline
            split at h
            · cases h
            · rename_i hreturn
              split at h
              · cases h
              · cases h
                exact ⟨hline, hreturn, rfl⟩
  | escape =>
      simp only [step] at h
      unfold escapeStep at h
      split at h
      case h_8 =>
        split at h
        · rename_i hescape
          cases h
          rcases hescape with rfl | rfl
          · decide
          · exact ⟨hmark.1, hmark.2, rfl⟩
        · simp only [hq, Bool.not_false, if_true] at h
          cases h
      all_goals
        cases h
        decide
  | hex left code =>
      simp only [step, Option.bind_eq_bind, Option.bind_eq_some_iff] at h
      obtain ⟨digit, hdigit, h⟩ := h
      refine ⟨?_, ?_, ?_⟩
      · rintro rfl
        cases hdigit
      · rintro rfl
        cases hdigit
      · split at h
        · cases h
          rfl
        · split at h <;> cases h
          rfl
  | folding ended => cases hmode
  | carriage folded => cases hmode

/-- A string that may not span lines has no line end in it. -/
theorem read_single {q : Quoting} (hq : q.multi = false) {mode : Mode} {raw value : List Char}
    (hmode : single mode = true) (h : q.read mode raw = some value) :
    '\n' ∉ raw ∧ '\r' ∉ raw := by
  induction raw generalizing mode value with
  | nil => simp
  | cons c raw ih =>
      simp only [read, Option.bind_eq_bind, Option.bind_eq_some_iff] at h
      obtain ⟨⟨mode', out⟩, hstep, rest, hrest, -⟩ := h
      obtain ⟨hline, hreturn, hmode'⟩ := step_single hq hmode hstep
      obtain ⟨hlines, hreturns⟩ := ih hmode' hrest
      simp [Ne.symm hline, Ne.symm hreturn, hlines, hreturns]

/-- A word stands for itself. -/
theorem decode_word (q : Quoting) (w : Word) : q.decode w.text = some w.text := by
  unfold decode
  split
  · split
    · rename_i hw
      exact absurd rfl (ne_of_isWordChar (w.chars '\n' (by simp [hw])) (by decide))
    · rename_i hw
      exact absurd rfl (ne_of_isWordChar (w.chars '\r' (by simp [hw])) (by decide))
    · exact read_word q 0 w.chars
  · exact read_word q 0 w.chars

end Quoting

/-- The same of a string of the document. -/
theorem Str.raw_single (s : Str) (h : s.quoting.multi = false) :
    '\n' ∉ s.raw ∧ '\r' ∉ s.raw := by
  have hread := s.decodes
  simp only [Quoting.decode, h, Bool.false_eq_true, if_false] at hread
  exact Quoting.read_single h rfl hread

/-- The same string with a word in its place. -/
def Str.put (s : Str) (w : Word) : Str := ⟨s.quoting, w.text, w.text, s.quoting.decode_word w⟩

/-! ## Keys and values -/

/-- A character of a bare key. -/
def isBare (c : Char) : Bool := c.isAlphanum || c == '_' || c == '-'

/-- One part of a key. -/
inductive SimpleKey where
  | bare (word : Chars isBare) (nonempty : word.val ≠ [])
  | quoted (s : Str) (single : s.quoting.multi = false)

/-- The text of a part of a key. -/
def SimpleKey.text : SimpleKey → List Char
  | .bare word _ => word.val
  | .quoted s _ => s.text

/-- What a part of a key reads as. -/
def SimpleKey.name : SimpleKey → List Char
  | .bare word _ => word.val
  | .quoted s _ => s.value

/-- A key, of several parts with dots between them if it is dotted. -/
structure Key where
  first : SimpleKey
  rest : List (Blank × Blank × SimpleKey) := []

/-- The text of a dotted key. -/
def Key.text (k : Key) : List Char :=
  k.first.text ++ k.rest.flatMap fun (b, b', part) => b.val ++ '.' :: b'.val ++ part.text

/-- The path that a key names. -/
def Key.path (k : Key) : List (List Char) :=
  k.first.name :: k.rest.map fun (_, _, part) => part.name

/-- Blanks, comments and line ends. -/
structure Filler where
  lines : List (Blank × Option Comment × Newline) := []
  last : Blank := ⟨[], by simp⟩

/-- The text of what stands between the items of an array. -/
def Filler.text (f : Filler) : List Char :=
  (f.lines.flatMap fun (b, comment, newline) => b.val ++ commentText comment ++ newline.text) ++
    f.last.val

/-- The characters of numbers, truth values and dates. -/
def isScalar (c : Char) : Bool := c.isAlphanum || "+-_.: ".toList.contains c

mutual

/-- A value. -/
inductive Value where
  | string (s : Str)
  | scalar (word : Chars isScalar) (nonempty : word.val ≠ [])
  | array (items : Items) (last : Filler)
  | emptyTable (b : Blank)
  | inlineTable (fields : Fields)

/-- The values of an array; nothing follows the last comma if it ends with `nil`. -/
inductive Items where
  | nil
  | last (before : Filler) (v : Value) (behind : Filler)
  | cons (before : Filler) (v : Value) (behind : Filler) (rest : Items)

/-- The fields of an inline table. -/
inductive Fields where
  | last (before : Blank) (k : Key) (b b' : Blank) (v : Value) (behind : Blank)
  | cons (before : Blank) (k : Key) (b b' : Blank) (v : Value) (behind : Blank) (rest : Fields)

end

mutual

/-- The text of a value. -/
def Value.text : Value → List Char
  | .string s => s.text
  | .scalar word _ => word.val
  | .array items last => '[' :: items.text ++ last.text ++ [']']
  | .emptyTable b => '\x7b' :: b.val ++ ['\x7d']
  | .inlineTable fields => '\x7b' :: fields.text ++ ['\x7d']

/-- The text of the items of an array. -/
def Items.text : Items → List Char
  | .nil => []
  | .last before v behind => before.text ++ v.text ++ behind.text
  | .cons before v behind rest => before.text ++ v.text ++ behind.text ++ ',' :: rest.text

/-- The text of the fields of an inline table. -/
def Fields.text : Fields → List Char
  | .last before k b b' v behind =>
    before.val ++ k.text ++ b.val ++ '=' :: b'.val ++ v.text ++ behind.val
  | .cons before k b b' v behind rest =>
    before.val ++ k.text ++ b.val ++ '=' :: b'.val ++ v.text ++ behind.val ++ ',' :: rest.text

end

/-! ## Documents -/

/-- What one line of a document says. -/
inductive Expression where
  | empty
  | setting (k : Key) (b b' : Blank) (v : Value)
  | table (b : Blank) (k : Key) (b' : Blank)
  | arrayTable (b : Blank) (k : Key) (b' : Blank)

/-- The text of an expression. -/
def Expression.text : Expression → List Char
  | .empty => []
  | .setting k b b' v => k.text ++ b.val ++ '=' :: b'.val ++ v.text
  | .table b k b' => '[' :: b.val ++ k.text ++ b'.val ++ [']']
  | .arrayTable b k b' => '[' :: '[' :: b.val ++ k.text ++ b'.val ++ [']', ']']

/-- An expression with the blanks and the comment beside it. -/
structure Row where
  indent : Blank := ⟨[], by simp⟩
  expression : Expression
  behind : Blank := ⟨[], by simp⟩
  comment : Option Comment := none

/-- The text of a line, without its end. -/
def Row.text (r : Row) : List Char :=
  r.indent.val ++ r.expression.text ++ r.behind.val ++ commentText r.comment

/-- The table that the keys behind these rows are set in, which has no path inside an array of
tables. -/
def currentTable (rows : List (Row × Newline)) : Option (List (List Char)) :=
  rows.foldl (fun path (row, _) =>
    match row.expression with
    | .table _ k _ => some k.path
    | .arrayTable _ _ _ => none
    | .empty | .setting _ _ _ _ => path) (some [])

/-- A document, seen from a key of it that is set to a string. -/
structure Entry where
  before : List (Row × Newline) := []
  indent : Blank := ⟨[], by simp⟩
  key : Key
  gap : Blank := ⟨[], by simp⟩
  gap' : Blank := ⟨[], by simp⟩
  string : Str
  behind : Blank := ⟨[], by simp⟩
  comment : Option Comment := none
  after : List (Newline × Row) := []

namespace Entry

/-- The path of the key in the document. -/
def path (e : Entry) : Option (List (List Char)) :=
  (currentTable e.before).map (· ++ e.key.path)

/-- All that stands before the value. -/
def opening (e : Entry) : List Char :=
  (e.before.flatMap fun (row, newline) => row.text ++ newline.text) ++
    (e.indent.val ++ e.key.text ++ e.gap.val ++ '=' :: e.gap'.val) ++ e.string.quoting.delim

/-- All that stands behind the value and its quotation marks. -/
def trail (e : Entry) : List Char :=
  e.behind.val ++ commentText e.comment ++ e.after.flatMap fun (newline, row) =>
    newline.text ++ row.text

/-- The text of the document. -/
def text (e : Entry) : List Char :=
  e.opening ++ e.string.raw ++ (e.string.quoting.delim ++ e.trail)

/-- The same document with a word for the value of the key. -/
def put (e : Entry) (w : Word) : Entry := { e with string := e.string.put w }

/-- Putting a word in the place of the value changes the string between its quotation marks
only. -/
theorem text_put (e : Entry) (w : Word) :
    (e.put w).text = e.opening ++ w.text ++ (e.string.quoting.delim ++ e.trail) := rfl

/-- The path stays. -/
@[simp] theorem path_put (e : Entry) (w : Word) : (e.put w).path = e.path := rfl

/-- The value is the word. -/
@[simp] theorem value_put (e : Entry) (w : Word) : (e.put w).string.value = w.text := rfl

end Entry

end SleepBlocker.Computation.Toml
