/-!
# Wide texts

A text from outside is a list of code points. Nearly all of them are characters; the others are
surrogates, which stand for nothing on their own: an octet of a command line that is no UTF-8 comes
in as one. A wide text can hold them, and only a text without any is a string.
-/

namespace WavePlot

/-- A code point: a character, or a surrogate by its place in the range that begins at U+D800. -/
inductive CodePoint where
  | char (c : Char)
  | surrogate (place : Fin 0x800)
  deriving DecidableEq, Repr

namespace CodePoint

def isSurrogate : CodePoint → Bool
  | .char _ => false
  | .surrogate _ => true

/-- Whether the code point is a character with the property. -/
def isCharWith (p : Char → Bool) : CodePoint → Bool
  | .char c => p c
  | .surrogate _ => false

end CodePoint

def surrogateNumber (place : Fin 0x800) : Nat := 0xD800 + place

/-- A text that can hold surrogates. -/
abbrev Wide := List CodePoint

namespace Wide

@[coe]
def ofString (s : String) : Wide := s.toList.map .char

instance : Coe String Wide := ⟨ofString⟩

/-- The characters of a text that holds nothing else. -/
def chars? : Wide → Option (List Char)
  | [] => some []
  | .char c :: rest => (chars? rest).map (c :: ·)
  | .surrogate _ :: _ => none

/-- The string that a text is, if it holds no surrogate. -/
def string? (text : Wide) : Option String := text.chars?.map String.ofList

@[simp] theorem ofString_empty : ofString "" = [] := rfl

@[simp] theorem ofString_append (s t : String) : ofString (s ++ t) = ofString s ++ ofString t := by
  simp [ofString]

@[simp] theorem ofString_ofList (chars : List Char) :
    ofString (String.ofList chars) = chars.map .char := by
  simp [ofString]

@[simp] theorem ofString_inj {s t : String} : ofString s = ofString t ↔ s = t := by
  unfold ofString
  rw [List.map_inj_right fun _ _ h => CodePoint.char.inj h, String.toList_inj]

@[simp] theorem chars?_map_char (chars : List Char) : chars? (chars.map .char) = some chars := by
  induction chars with
  | nil => rfl
  | cons c rest ih => simp [chars?, ih]

@[simp] theorem string?_ofString (s : String) : string? (ofString s) = some s := by
  simp [string?, ofString]

theorem eq_map_char_of_chars? {text : Wide} {chars : List Char} (h : text.chars? = some chars) :
    text = chars.map .char := by
  induction text generalizing chars with
  | nil => cases h; rfl
  | cons point rest ih =>
    cases point with
    | surrogate place => cases h
    | char c =>
      obtain ⟨others, hothers, rfl⟩ := Option.map_eq_some_iff.1 h
      rw [List.map_cons, ← ih hothers]

theorem string?_eq_some_iff {text : Wide} {s : String} : text.string? = some s ↔ text = s := by
  constructor
  · intro h
    obtain ⟨chars, hchars, rfl⟩ := Option.map_eq_some_iff.1 h
    rw [ofString_ofList, eq_map_char_of_chars? hchars]
  · rintro rfl
    exact string?_ofString s

theorem surrogate_not_mem_ofString {place : Fin 0x800} {s : String} :
    CodePoint.surrogate place ∉ ofString s := by
  simp [ofString]

/-- A text is a string exactly if it holds no surrogate. -/
theorem exists_eq_ofString_iff {text : Wide} :
    (∃ s : String, text = ofString s) ↔ ∀ place, .surrogate place ∉ text := by
  constructor
  · rintro ⟨s, rfl⟩ place
    exact surrogate_not_mem_ofString
  · intro h
    induction text with
    | nil => exact ⟨"", rfl⟩
    | cons point rest ih =>
      obtain ⟨s, rfl⟩ := ih fun place hplace => h place (List.mem_cons_of_mem _ hplace)
      cases point with
      | char c => exact ⟨String.ofList (c :: s.toList), by simp [ofString]⟩
      | surrogate place => exact absurd List.mem_cons_self (h place)

@[simp] theorem char_mem_ofString {c : Char} {s : String} :
    CodePoint.char c ∈ ofString s ↔ c ∈ s.toList := by
  simp [ofString]

end Wide

end WavePlot
