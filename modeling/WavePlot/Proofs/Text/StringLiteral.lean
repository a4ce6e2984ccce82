import Mathlib.Data.List.Basic
import Mathlib.Tactic.SplitIfs
import WavePlot.Text.Quoted

/-!
# String literals

A string literal stands on one line between two equal quotation marks. A character between them
stands for itself, apart from the mark, the ends of lines, NUL and the backslash. A backslash begins
an escape: for a mark, a backslash or a control character, for a code point in octal or in
hexadecimal, or for a character by its name; in front of any other character it stands for itself.
The table of names is left open, and a code point that no character has stands for nothing.
-/

namespace WavePlot.Text.StringLiteral

/-- What the character behind a backslash announces. -/
inductive Escape where
  /-- One character, for which it stands by itself. -/
  | single (c : Char)
  /-- A code point of so many hexadecimal digits. -/
  | hexadecimal (width : Nat)
  /-- A code point of up to three octal digits, of which it is the first. -/
  | octal
  /-- A name between braces. -/
  | named
  | other

def isOctalDigit (c : Char) : Bool := '0' ≤ c && c ≤ '7'

def Escape.ofChar : Char → Escape
  | '\\' => .single '\\'
  | '\x27' => .single '\x27'
  | '\x22' => .single '\x22'
  | 'a' => .single '\x07'
  | 'b' => .single '\x08'
  | 'f' => .single '\x0c'
  | 'n' => .single '\n'
  | 'r' => .single '\r'
  | 't' => .single '\t'
  | 'v' => .single '\x0b'
  | 'x' => .hexadecimal 2
  | 'u' => .hexadecimal 4
  | 'U' => .hexadecimal 8
  | 'N' => .named
  | c => if isOctalDigit c then .octal else .other

/-- The value of a hexadecimal digit in either case. -/
def hexDigit? (c : Char) : Option Nat :=
  if c.isDigit then some (c.toNat - 48)
  else if 'a' ≤ c && c ≤ 'f' then some (c.toNat - 87)
  else if 'A' ≤ c && c ≤ 'F' then some (c.toNat - 55)
  else none

def hexNumber? (digits : List Char) : Option Nat :=
  digits.foldlM (fun n c => (hexDigit? c).map (16 * n + ·)) 0

/-- The character of a code point; surrogates have none. -/
def char? (n : Nat) : Option Char := if n.isValidChar then some (Char.ofNat n) else none

/-- What an escape or a character stands for, and what stands behind it; nothing if it is none. -/
abbrev Read := Option (List Char × List Char)

def readHexadecimal (width : Nat) (body : List Char) : Read :=
  if width ≤ body.length then
    ((hexNumber? (body.take width)).bind char?).map fun c => ([c], body.drop width)
  else none

def readOctal (body : List Char) : Read :=
  let digits := (body.take 3).takeWhile isOctalDigit
  some ([Char.ofNat (Nat.ofDigitChars 8 digits 0)], body.drop digits.length)

/-- A line end or NUL, which no literal holds. -/
def isExcluded (c : Char) : Bool := c == '\n' || c == '\r' || c == '\x00'

/-- One of the two quotation marks. -/
def IsMark (mark : Char) : Prop := mark = '\x27' ∨ mark = '\x22'

instance (mark : Char) : Decidable (IsMark mark) := inferInstanceAs (Decidable (_ ∨ _))

section Names

variable (names : String → Option Char)

def readNamed : List Char → Read
  | '\x7b' :: rest =>
    let name := rest.takeWhile (· != '\x7d')
    if name = rest then none
    else (names (String.ofList name)).map fun c => ([c], rest.drop (name.length + 1))
  | _ => none

/-- Reads the escape behind a backslash. -/
def readEscape : List Char → Read
  | [] => none
  | c :: rest =>
    match Escape.ofChar c with
    | .single d => some ([d], rest)
    | .hexadecimal width => readHexadecimal width rest
    | .octal => readOctal (c :: rest)
    | .named => readNamed names rest
    | .other => if isExcluded c then none else some (['\\', c], rest)

/-- Reads the first character or escape in front of the closing mark. -/
def readUnit (mark : Char) : List Char → Read
  | [] => none
  | c :: rest =>
    if c = '\\' then readEscape names rest
    else if c = mark || isExcluded c then none
    else some ([c], rest)

variable {names} {mark : Char} {body value rest : List Char}

theorem suffix_of_readHexadecimal {width : Nat}
    (h : readHexadecimal width body = some (value, rest)) : rest <:+ body := by
  unfold readHexadecimal at h
  split_ifs at h
  obtain ⟨c, _, heq⟩ := Option.map_eq_some_iff.1 h
  cases heq
  exact List.drop_suffix width body

theorem suffix_of_readNamed (h : readNamed names body = some (value, rest)) : rest <:+ body := by
  unfold readNamed at h
  split at h
  · dsimp only at h
    split_ifs at h
    obtain ⟨c, _, heq⟩ := Option.map_eq_some_iff.1 h
    cases heq
    exact (List.drop_suffix _ _).trans (List.suffix_cons _ _)
  · cases h

theorem suffix_of_readEscape (h : readEscape names body = some (value, rest)) : rest <:+ body := by
  unfold readEscape at h
  split at h
  · cases h
  · rename_i c behind
    split at h
    · cases h
      exact List.suffix_cons c rest
    · exact (suffix_of_readHexadecimal h).trans (List.suffix_cons c behind)
    · cases h
      exact List.drop_suffix _ _
    · exact (suffix_of_readNamed h).trans (List.suffix_cons c behind)
    · split_ifs at h
      cases h
      exact List.suffix_cons c rest

theorem length_lt_of_readUnit (h : readUnit names mark body = some (value, rest)) :
    rest.length < body.length := by
  unfold readUnit at h
  split at h
  · cases h
  · split_ifs at h
    · exact Nat.lt_succ_of_le (suffix_of_readEscape h).length_le
    · cases h
      exact Nat.lt_succ_self _

variable (names)

/-- What a literal stands for from a place in it on, up to the closing mark. -/
def evaluateBody? (mark : Char) (body : List Char) : Option (List Char) :=
  -- A mark with anything behind it is no unit, so it closes the literal at the very end only.
  if body = [mark] then some []
  else
    match _h : readUnit names mark body with
    | some (value, rest) => (evaluateBody? mark rest).map (value ++ ·)
    | none => none
termination_by body.length
decreasing_by exact length_lt_of_readUnit _h

/-- The text that a string literal stands for; nothing if it is none. -/
def evaluate? (literal : String) : Option String :=
  match literal.toList with
  | [] => none
  | mark :: body =>
    if IsMark mark then (evaluateBody? names mark body).map String.ofList else none

example : evaluate? (fun _ => none) "'\\101\\x42\\d'" = some "AB\\d" := by decide +kernel

end Names

end WavePlot.Text.StringLiteral
