import Mathlib.Algebra.Group.Nat.Defs
import WavePlot.Proofs.Text.StringLiteral
import WavePlot.Proofs.Text.WellFormed

/-!
# Quoted texts as literals

A quoted text is a string literal that stands for the text it was made from, whatever the text
holds, so different texts are quoted differently. It has printable characters only, and none of
these ends a line.
-/

namespace WavePlot.Text

/-! ## Printable characters -/

theorem isPrintable_of_ascii {c : Char} (hlow : 0x20 ≤ c.toNat) (hhigh : c.toNat < 0x7F) :
    isPrintable c = true := by
  have hascii : c.toNat < 0x80 := by omega
  simp [isPrintable, hascii, hlow, hhigh]

/-- Every code point of the text is a character that can be shown as itself. -/
def AllPrintable (text : Wide) : Prop := ∀ c ∈ text, c.isCharWith isPrintable = true

instance (text : Wide) : Decidable (AllPrintable text) :=
  inferInstanceAs (Decidable (∀ c ∈ text, _))

theorem AllPrintable.append {text other : Wide} (h : AllPrintable text)
    (hother : AllPrintable other) : AllPrintable (text ++ other) :=
  List.forall_mem_append.2 ⟨h, hother⟩

theorem allPrintable_ofString {text : String} (h : ∀ c ∈ text.toList, isPrintable c = true) :
    AllPrintable text :=
  List.forall_mem_map.2 h

/-- The characters at which a text is broken into lines. -/
def lineEnds : List Char :=
  ['\n', '\x0b', '\x0c', '\r', '\x1c', '\x1d', '\x1e', '\x85', '\u2028', '\u2029']

theorem not_mem_lineEnds_of_isPrintable {c : Char} (h : isPrintable c = true) : c ∉ lineEnds := by
  have hall : lineEnds.all (fun c => !isPrintable c) = true := by decide +kernel
  intro hc
  have hnot := List.all_eq_true.1 hall c hc
  rw [h] at hnot
  cases hnot

/-- The text is the one line, ended by a line feed. -/
def IsOneLine (line text : Wide) : Prop :=
  text = line ++ "\n" ∧ ∀ c ∈ lineEnds, .char c ∉ line

theorem AllPrintable.isOneLine {line : Wide} (h : AllPrintable line) :
    IsOneLine line (line ++ "\n") :=
  ⟨rfl, fun _ hend hc => not_mem_lineEnds_of_isPrintable (h _ hc) hend⟩

/-! ## Hexadecimal digits -/

theorem length_fixedHex (width n : Nat) : (fixedHex width n).length = width := by
  induction width generalizing n with
  | zero => rfl
  | succ width ih => simp [fixedHex, ih]

theorem isPrintable_digitChar : ∀ d < 16, isPrintable (Nat.digitChar d) = true := by decide

theorem isPrintable_of_mem_fixedHex {width n : Nat} {c : Char} (hc : c ∈ fixedHex width n) :
    isPrintable c = true := by
  induction width generalizing n with
  | zero => cases hc
  | succ width ih =>
    rcases List.mem_append.1 hc with hc | hc
    · exact ih hc
    · rw [List.mem_singleton.1 hc]
      exact isPrintable_digitChar (n % 16) (Nat.mod_lt n (by decide))

namespace StringLiteral

theorem hexDigit?_digitChar : ∀ d < 16, hexDigit? (Nat.digitChar d) = some d := by decide

theorem hexNumber?_fixedHex (width n : Nat) :
    hexNumber? (fixedHex width n) = some (n % 16 ^ width) := by
  induction width generalizing n with
  | zero => simp [fixedHex, hexNumber?, Nat.mod_one]
  | succ width ih =>
    have hdigit := hexDigit?_digitChar (n % 16) (Nat.mod_lt n (by decide))
    have hmod : 16 * (n / 16 % 16 ^ width) + n % 16 = n % 16 ^ (width + 1) := by
      rw [Nat.pow_succ, Nat.mul_comm (16 ^ width), Nat.mod_mul, Nat.add_comm]
    unfold hexNumber? at ih ⊢
    rw [fixedHex, List.foldlM_append, ih]
    simp [hdigit, hmod]

theorem char?_toNat (c : Char) : char? c.toNat = some c := by
  have hvalid : c.toNat.isValidChar := c.valid
  rw [char?, if_pos hvalid, Char.ofNat_toNat]

theorem readHexadecimal_fixedHex {width : Nat} {c : Char} (hc : c.toNat < 16 ^ width)
    (rest : List Char) :
    readHexadecimal width (fixedHex width c.toNat ++ rest) = some ([c], rest) := by
  have hlength := length_fixedHex width c.toNat
  have htake : (fixedHex width c.toNat ++ rest).take width = fixedHex width c.toNat :=
    List.take_left' hlength
  have hdrop : (fixedHex width c.toNat ++ rest).drop width = rest := List.drop_left' hlength
  have hle : width ≤ (fixedHex width c.toNat ++ rest).length := by simp [hlength]
  rw [readHexadecimal, if_pos hle, htake, hdrop, hexNumber?_fixedHex, Nat.mod_eq_of_lt hc]
  simp [char?_toNat]

/-! ## How a character is written -/

/-- What a character is written as between the marks: an escape for it alone, itself, or an escape
with its code point. -/
inductive Written (mark c : Char) : List Char → Prop where
  | single {letter : Char} (hletter : isPrintable letter = true)
      (hescape : Escape.ofChar letter = .single c) : Written mark c ['\\', letter]
  | self (hc : isPrintable c = true) (hmark : c ≠ mark) (hslash : c ≠ '\\') : Written mark c [c]
  | hexadecimal {letter : Char} {width : Nat} (hletter : isPrintable letter = true)
      (hescape : Escape.ofChar letter = .hexadecimal width) (hc : c.toNat < 16 ^ width) :
      Written mark c ('\\' :: letter :: fixedHex width c.toNat)

variable {mark c : Char} {written : List Char}

theorem isPrintable_of_isMark (h : IsMark mark) : isPrintable mark = true := by
  rcases h with rfl | rfl <;> rfl

theorem ofChar_of_isMark (h : IsMark mark) : Escape.ofChar mark = .single mark := by
  rcases h with rfl | rfl <;> rfl

theorem written_escape (hmark : IsMark mark) (c : Char) : Written mark c (escape mark c) := by
  unfold escape
  split_ifs with hself hnewline hreturn htab hprintable htwo hfour
  · rw [Bool.or_eq_true, decide_eq_true_iff, decide_eq_true_iff] at hself
    rcases hself with rfl | rfl
    · exact .single (isPrintable_of_isMark hmark) (ofChar_of_isMark hmark)
    · exact .single rfl rfl
  · subst hnewline
    exact .single rfl rfl
  · subst hreturn
    exact .single rfl rfl
  · subst htab
    exact .single rfl rfl
  · rw [Bool.or_eq_true, not_or, decide_eq_true_iff, decide_eq_true_iff] at hself
    exact .self hprintable hself.1 hself.2
  · exact .hexadecimal rfl rfl htwo
  · exact .hexadecimal rfl rfl hfour
  · have hvalid := Utf8.toNat_valid c
    exact .hexadecimal rfl rfl (by omega)

theorem Written.ne_nil (h : Written mark c written) : written ≠ [] := by
  cases h <;> exact List.cons_ne_nil _ _

theorem Written.isPrintable_of_mem (h : Written mark c written) {d : Char} (hd : d ∈ written) :
    isPrintable d = true := by
  cases h with
  | self hc =>
    rw [List.mem_singleton.1 hd]
    exact hc
  | single hletter =>
    rcases List.mem_pair.1 hd with rfl | rfl
    · rfl
    · exact hletter
  | hexadecimal hletter =>
    rcases List.mem_cons.1 hd with rfl | hd
    · rfl
    rcases List.mem_cons.1 hd with rfl | hd
    · exact hletter
    · exact isPrintable_of_mem_fixedHex hd

theorem isExcluded_of_isPrintable (h : isPrintable c = true) : isExcluded c = false := by
  rw [← Bool.not_eq_true]
  intro hexcluded
  simp only [isExcluded, Bool.or_eq_true, beq_iff_eq] at hexcluded
  rcases hexcluded with (rfl | rfl) | rfl <;> cases h

/-! ## Reading a quoted text -/

variable (names : String → Option Char)

/-- What a character is written as is read as that character, whatever stands behind it. -/
theorem Written.readUnit (h : Written mark c written) (rest : List Char) :
    readUnit names mark (written ++ rest) = some ([c], rest) := by
  cases h with
  | single _ hescape => simp [StringLiteral.readUnit, readEscape, hescape]
  | self hc hmark hslash =>
    simp [StringLiteral.readUnit, hslash, hmark, isExcluded_of_isPrintable hc]
  | hexadecimal _ hescape hc =>
    simp [StringLiteral.readUnit, readEscape, hescape, readHexadecimal_fixedHex hc]

theorem evaluateBody?_of_readUnit {body value rest : List Char} (hbody : body ≠ [mark])
    (h : readUnit names mark body = some (value, rest)) :
    evaluateBody? names mark body = (evaluateBody? names mark rest).map (value ++ ·) := by
  rw [evaluateBody?, if_neg hbody]
  split
  · rename_i hread
    cases h.symm.trans hread
    rfl
  · rename_i hread
    cases h.symm.trans hread

/-- Read one character after the other, a text between the marks is read back. -/
theorem evaluateBody?_escaped (hmark : IsMark mark) (text : List Char) :
    evaluateBody? names mark (text.flatMap (escape mark) ++ [mark]) = some text := by
  induction text with
  | nil => rw [List.flatMap_nil, List.nil_append, evaluateBody?, if_pos rfl]
  | cons c rest ih =>
    have hwritten := written_escape hmark c
    -- The closing mark alone would be shorter than a character with the mark behind it.
    have hne : escape mark c ++ (rest.flatMap (escape mark) ++ [mark]) ≠ [mark] := by
      intro heq
      have hlength := congrArg List.length heq
      have hpos := List.length_pos_iff.2 hwritten.ne_nil
      simp only [List.length_append, List.length_singleton] at hlength
      omega
    rw [List.flatMap_cons, List.append_assoc,
      evaluateBody?_of_readUnit names hne (hwritten.readUnit names _), ih]
    rfl

theorem isMark_quotationMark (text : Wide) : IsMark (quotationMark text) := by
  unfold quotationMark
  split
  · exact Or.inr rfl
  · exact Or.inl rfl

theorem flatMap_escapePoint_ofString (mark : Char) (text : String) :
    (Wide.ofString text).flatMap (escapePoint mark) = text.toList.flatMap (escape mark) := by
  unfold Wide.ofString
  rw [List.flatMap_map]
  rfl

/-- A quoted string is a literal that stands for the string. -/
theorem evaluate?_quote (text : String) : evaluate? names (quote text) = some text := by
  have hmark := isMark_quotationMark text
  unfold evaluate? quote quoteChars
  dsimp only
  rw [String.toList_ofList, List.cons_append]
  dsimp only
  rw [if_pos hmark, flatMap_escapePoint_ofString, evaluateBody?_escaped names hmark,
    Option.map_some, String.ofList_toList]

example : quote "it's\"\n\u202e" = "'it\\'s\"\\n\\u202e'" := by decide +kernel

end StringLiteral

theorem quote_injective {text other : String}
    (h : quote text = quote other) : text = other := by
  have hread := StringLiteral.evaluate?_quote (fun _ => none) text
  rw [h, StringLiteral.evaluate?_quote] at hread
  exact (Option.some.inj hread).symm

theorem isPrintable_of_mem_escapePoint {mark : Char} (hmark : StringLiteral.IsMark mark)
    (point : CodePoint) : ∀ c ∈ escapePoint mark point, isPrintable c = true := by
  cases point with
  | char c => exact fun _ => (StringLiteral.written_escape hmark c).isPrintable_of_mem
  | surrogate place =>
    intro c hc
    rcases List.mem_cons.1 hc with rfl | hc
    · rfl
    rcases List.mem_cons.1 hc with rfl | hc
    · rfl
    · exact isPrintable_of_mem_fixedHex hc

theorem allPrintable_quote (text : Wide) : AllPrintable (quote text) := by
  have hmark := StringLiteral.isMark_quotationMark text
  have hmarkPrintable := StringLiteral.isPrintable_of_isMark hmark
  refine allPrintable_ofString fun c hc => ?_
  rw [quote, String.toList_ofList] at hc
  rcases List.mem_cons.1 hc with rfl | hc
  · exact hmarkPrintable
  rcases List.mem_append.1 hc with hc | hc
  · obtain ⟨point, _, hpoint⟩ := List.mem_flatMap.1 hc
    exact isPrintable_of_mem_escapePoint hmark point c hpoint
  · rw [List.mem_singleton.1 hc]
    exact hmarkPrintable

end WavePlot.Text
