import WavePlot.Proofs.Decimal.RoundTrip
import WavePlot.Proofs.Decimal.Significant

/-!
# The grammar of number text

`Spells` is the language of number text as a relation: blanks around, digits of any script, single
underscores between two digits, and inside a literal in digits or one of the words for an infinity
and for not-a-number. Reading accepts this language and nothing else, and a text spells at most one
literal.
-/

namespace WavePlot.Decimal

open Text (isBlank trim dropEndWhile toAsciiDigit)

/-! ## The language -/

def AreDigits (text : List Char) : Prop := ∀ c ∈ text, c.isDigit = true

/-- A sign; if it is absent the number is not negative. -/
inductive IsSign : Bool → List Char → Prop
  | absent : IsSign false []
  | plus : IsSign false ['+']
  | minus : IsSign true ['-']

/-- Digits behind a point, of which there may be none, or no point. -/
inductive IsFraction : List Char → List Char → Prop
  | absent : IsFraction [] []
  | point {digits : List Char} (h : AreDigits digits) : IsFraction digits ('.' :: digits)

/-- A signed power of ten behind its mark; if it is absent the power is zero. -/
inductive IsExponent : Int → List Char → Prop
  | absent : IsExponent 0 []
  | marked {mark : Char} {negative : Bool} {sign digits : List Char}
      (hmark : mark = 'e' ∨ mark = 'E') (hsign : IsSign negative sign) (hne : digits ≠ [])
      (hdigits : AreDigits digits) :
      IsExponent (signed negative (Nat.ofDigitChars 10 digits 0)) (mark :: (sign ++ digits))

/-- The letters are the word in any mixture of cases. -/
def IsWord (word : String) (letters : List Char) : Prop := letters.map Char.toLower = word.toList

instance (word : String) (letters : List Char) : Decidable (IsWord word letters) :=
  inferInstanceAs (Decidable (_ = _))

/-- A literal as it is written without blanks and underscores in ASCII digits. -/
inductive Literal.Written : Literal → List Char → Prop
  | number {negative : Bool} {e : Int} {sign whole fraction behind exponent : List Char}
      (hsign : IsSign negative sign) (hwhole : AreDigits whole)
      (hfraction : IsFraction fraction behind) (hne : whole ++ fraction ≠ [])
      (hexponent : IsExponent e exponent) :
      Written (.number negative (Nat.ofDigitChars 10 (whole ++ fraction) 0) (e - fraction.length))
        (sign ++ (whole ++ behind ++ exponent))
  | infinity {negative : Bool} {sign letters : List Char} (hsign : IsSign negative sign)
      (hletters : IsWord "inf" letters ∨ IsWord "infinity" letters) :
      Written (.infinity negative) (sign ++ letters)
  | nan {negative : Bool} {sign letters : List Char} (hsign : IsSign negative sign)
      (hletters : IsWord "nan" letters) : Written .nan (sign ++ letters)

/-- The text without its underscores, each of which stands between two digits. -/
structure Grouped (text plain : List Char) : Prop where
  joined : plain = text.filter (· != '_')
  between : ∀ before after, text = before ++ '_' :: after →
    before.getLast?.any Char.isDigit = true ∧ after.head?.any Char.isDigit = true

/-- The text is blanks around a literal, in digits of any script and with grouped digits. -/
def Spells (raw : String) (l : Literal) : Prop :=
  ∃ front text back plain, raw.toList.map toAsciiDigit = front ++ text ++ back ∧
    (∀ c ∈ front ++ back, isBlank c = true) ∧ Grouped text plain ∧ l.Written plain

/-! ## Signs and digits -/

theorem isSign_of_splitSign (text : List Char) :
    ∃ sign, IsSign (splitSign text).1 sign ∧ text = sign ++ (splitSign text).2 := by
  unfold splitSign
  split
  · exact ⟨['-'], .minus, rfl⟩
  · exact ⟨['+'], .plus, rfl⟩
  · exact ⟨[], .absent, rfl⟩

/-- A sign is split off whatever follows, if that does not start with a sign itself. -/
theorem splitSign_of_isSign {negative : Bool} {sign : List Char} (h : IsSign negative sign)
    {c : Char} {rest : List Char} (hminus : c ≠ '-') (hplus : c ≠ '+') :
    splitSign (sign ++ c :: rest) = (negative, c :: rest) := by
  cases h with
  | absent => exact splitSign_eq_self hminus hplus
  | plus | minus => rfl

theorem ne_sign_of_isDigit {c : Char} (h : c.isDigit = true) : c ≠ '-' ∧ c ≠ '+' := by
  constructor <;>
  · intro heq
    subst heq
    revert h
    decide

theorem natural?_eq_some_iff {digits : List Char} {n : Nat} : natural? digits = some n ↔
    digits ≠ [] ∧ AreDigits digits ∧ n = Nat.ofDigitChars 10 digits 0 := by
  constructor
  · intro h
    unfold natural? at h
    split_ifs at h with hdigits
    rw [Bool.and_eq_true, Bool.not_eq_true', List.isEmpty_eq_false_iff, List.all_eq_true]
      at hdigits
    exact ⟨hdigits.1, hdigits.2, (Option.some.inj h).symm⟩
  · intro h
    rw [natural?_digits h.1 h.2.1, h.2.2]

/-! ## Unsigned literals -/

theorem exponent?_eq_some_iff {text : List Char} {e : Int} :
    exponent? text = some e ↔ IsExponent e text := by
  constructor
  · intro h
    cases text with
    | nil =>
      cases h
      exact .absent
    | cons mark rest =>
      unfold exponent? at h
      dsimp only at h
      split_ifs at h with hmark
      rw [Bool.or_eq_true, decide_eq_true_iff, decide_eq_true_iff] at hmark
      obtain ⟨n, hn, rfl⟩ := Option.map_eq_some_iff.1 h
      obtain ⟨hne, hdigits, rfl⟩ := natural?_eq_some_iff.1 hn
      obtain ⟨sign, hsign, hrest⟩ := isSign_of_splitSign rest
      generalize splitSign rest = parts at hsign hrest hne hdigits
      subst hrest
      exact .marked hmark hsign hne hdigits
  · intro h
    cases h with
    | absent => rfl
    | @marked mark negative sign digits hmark hsign hne hdigits =>
      obtain ⟨c, rest, rfl⟩ := List.exists_cons_of_ne_nil hne
      obtain ⟨hminus, hplus⟩ := ne_sign_of_isDigit (hdigits c List.mem_cons_self)
      have hmarked : (decide (mark = 'e') || decide (mark = 'E')) = true := by
        rwa [Bool.or_eq_true, decide_eq_true_iff, decide_eq_true_iff]
      unfold exponent?
      dsimp only
      rw [if_pos hmarked, splitSign_of_isSign hsign hminus hplus]
      dsimp only
      rw [natural?_digits hne hdigits, Option.map_some]

theorem head?_of_isExponent {e : Int} {text : List Char} (h : IsExponent e text) :
    ∀ c ∈ text.head?, c.isDigit = false ∧ c ≠ '.' := by
  intro c hc
  cases h with
  | absent => cases hc
  | marked hmark =>
    cases hc
    rcases hmark with rfl | rfl <;> decide

/-- A literal without its sign: its coefficient and its power of ten. -/
def IsUnsigned (body : List Char) (coefficient : Nat) (exponent : Int) : Prop :=
  ∃ whole fraction behind power e, body = whole ++ behind ++ power ∧ AreDigits whole ∧
    IsFraction fraction behind ∧ whole ++ fraction ≠ [] ∧ IsExponent e power ∧
    coefficient = Nat.ofDigitChars 10 (whole ++ fraction) 0 ∧ exponent = e - fraction.length

theorem spanDigits_spec (text : List Char) : text = (spanDigits text).1 ++ (spanDigits text).2 ∧
    AreDigits (spanDigits text).1 := by
  exact ⟨List.takeWhile_append_dropWhile.symm, List.all_eq_true.1 List.all_takeWhile⟩

theorem spanFraction_spec (text : List Char) : ∃ behind,
    text = behind ++ (spanFraction text).2 ∧ IsFraction (spanFraction text).1 behind := by
  unfold spanFraction
  split
  · rename_i rest
    obtain ⟨hrest, hdigits⟩ := spanDigits_spec rest
    refine ⟨'.' :: (spanDigits rest).1, ?_, .point hdigits⟩
    rw [List.cons_append, ← hrest]
  · exact ⟨[], rfl, .absent⟩

theorem unsigned?_eq_some_iff {body : List Char} {c : Nat} {e : Int} :
    unsigned? body = some (c, e) ↔ IsUnsigned body c e := by
  constructor
  · intro h
    obtain ⟨hwhole, hdigits⟩ := spanDigits_spec body
    obtain ⟨behind, hbehind, hfraction⟩ := spanFraction_spec (spanDigits body).2
    unfold unsigned? at h
    dsimp only at h
    obtain ⟨coefficient, hcoefficient, h⟩ := Option.bind_eq_some_iff.1 h
    obtain ⟨power, hpower, h⟩ := Option.bind_eq_some_iff.1 h
    obtain ⟨hne, _, hvalue⟩ := natural?_eq_some_iff.1 hcoefficient
    cases h
    refine ⟨_, _, behind, _, _, ?_, hdigits, hfraction, hne, exponent?_eq_some_iff.1 hpower,
      hvalue, rfl⟩
    rw [List.append_assoc, ← hbehind, ← hwhole]
  · intro h
    obtain ⟨whole, fraction, behind, power, x, rfl, hwhole, hfraction, hne, hpower, rfl, rfl⟩ := h
    have hhead := head?_of_isExponent hpower
    have hread := exponent?_eq_some_iff.2 hpower
    cases hfraction with
    | absent =>
      rw [List.append_nil] at hne ⊢
      rw [unsigned?_whole hwhole hne hhead hread, List.length_nil, Nat.cast_zero, sub_zero]
    | point hdigits =>
      rw [List.append_assoc, List.cons_append]
      exact unsigned?_point hwhole hdigits hne (fun c hc => (hhead c hc).1) hread

/-! ## Plain literals -/

/-- An unsigned literal starts with a digit or the point. -/
theorem IsUnsigned.exists_head {body : List Char} {c : Nat} {e : Int} (h : IsUnsigned body c e) :
    ∃ first rest, body = first :: rest ∧ (first.isDigit = true ∨ first = '.') := by
  obtain ⟨whole, fraction, behind, power, _, rfl, hwhole, hfraction, hne, _⟩ := h
  cases whole with
  | cons first rest => exact ⟨first, _, rfl, Or.inl (hwhole first List.mem_cons_self)⟩
  | nil =>
    cases hfraction with
    | absent => exact absurd rfl hne
    | point => exact ⟨'.', _, rfl, Or.inr rfl⟩

theorem toLower_of_isDigit_or_point {c : Char} (h : c.isDigit = true ∨ c = '.') :
    c.toLower = c ∧ c ≠ '-' ∧ c ≠ '+' ∧ c ≠ 'i' ∧ c ≠ 'n' := by
  rcases h with h | rfl
  · have hnot : ∀ d : Char, d.isDigit = false → c ≠ d := by
      intro d hd heq
      rw [heq, hd] at h
      cases h
    exact ⟨toLower_of_isDigit h, hnot _ rfl, hnot _ rfl, hnot _ rfl, hnot _ rfl⟩
  · decide

theorem not_isWord_of_head (word : String) {first start : Char} {rest others : List Char}
    (hword : word.toList = start :: others) (hlower : first.toLower = first)
    (hne : first ≠ start) : ¬ IsWord word (first :: rest) := by
  intro h
  rw [IsWord, hword, List.map_cons, hlower] at h
  exact hne (List.cons.inj h).1

/-- A word starts with a letter, so a sign in front of it is split off. -/
theorem splitSign_of_isWord {word : String} {start : Char} {others letters sign : List Char}
    {negative : Bool} (hword : word.toList = start :: others) (hstart : start ≠ '-' ∧ start ≠ '+')
    (hsign : IsSign negative sign) (hletters : IsWord word letters) :
    splitSign (sign ++ letters) = (negative, letters) := by
  rw [IsWord, hword] at hletters
  obtain ⟨c, rest, rfl, hlower, _⟩ := List.map_eq_cons_iff.1 hletters
  refine splitSign_of_isSign hsign ?_ ?_
  · intro hc
    rw [hc] at hlower
    exact hstart.1 hlower.symm
  · intro hc
    rw [hc] at hlower
    exact hstart.2 hlower.symm

/-- What a plain text spells is decided by what follows its sign. -/
theorem ofPlain?_of_splitSign {plain body : List Char} {negative : Bool}
    (h : splitSign plain = (negative, body)) :
    Literal.ofPlain? plain =
      if IsWord "inf" body ∨ IsWord "infinity" body then some (.infinity negative)
      else if IsWord "nan" body then some .nan
      else (unsigned? body).map fun value => .number negative value.1 value.2 := by
  unfold Literal.ofPlain?
  rw [h]
  simp only [Bool.or_eq_true, decide_eq_true_iff, IsWord]
  congr

theorem written_of_ofPlain? {plain : List Char} {l : Literal}
    (h : Literal.ofPlain? plain = some l) : l.Written plain := by
  obtain ⟨sign, hsign, hplain⟩ := isSign_of_splitSign plain
  obtain ⟨negative, body, hsplit⟩ : ∃ negative body, splitSign plain = (negative, body) :=
    ⟨_, _, rfl⟩
  rw [hsplit] at hsign hplain
  dsimp only at hsign hplain
  rw [ofPlain?_of_splitSign hsplit] at h
  rw [hplain]
  split_ifs at h with hinfinity hnan
  · cases h
    exact .infinity hsign hinfinity
  · cases h
    exact .nan hsign hnan
  · obtain ⟨value, hunsigned, rfl⟩ := Option.map_eq_some_iff.1 h
    obtain ⟨whole, fraction, behind, power, x, hbody, hwhole, hfraction, hne, hpower, hc, he⟩ :=
      unsigned?_eq_some_iff.1 hunsigned
    rw [hbody, hc, he]
    exact .number hsign hwhole hfraction hne hpower

theorem ofPlain?_of_written {plain : List Char} {l : Literal} (h : l.Written plain) :
    Literal.ofPlain? plain = some l := by
  cases h with
  | infinity hsign hletters =>
    have hsplit := hletters.elim (fun hword => splitSign_of_isWord rfl (by decide) hsign hword)
      fun hword => splitSign_of_isWord rfl (by decide) hsign hword
    rw [ofPlain?_of_splitSign hsplit, if_pos hletters]
  | nan hsign hletters =>
    have hnot : ∀ {word : String}, word.toList ≠ "nan".toList → ¬ IsWord word _ :=
      fun hne hword => hne (hword.symm.trans hletters)
    rw [ofPlain?_of_splitSign (splitSign_of_isWord rfl (by decide) hsign hletters),
      if_neg (not_or.2 ⟨hnot (by decide), hnot (by decide)⟩), if_pos hletters]
  | @number negative e sign whole fraction behind exponent hsign hwhole hfraction hne hexponent =>
    have hunsigned : IsUnsigned (whole ++ behind ++ exponent)
        (Nat.ofDigitChars 10 (whole ++ fraction) 0) (e - fraction.length) :=
      ⟨_, _, _, _, _, rfl, hwhole, hfraction, hne, hexponent, rfl, rfl⟩
    have hread := unsigned?_eq_some_iff.2 hunsigned
    -- A digit or a point comes first, which is no sign and begins none of the words.
    obtain ⟨first, rest, hbody, hfirst⟩ := hunsigned.exists_head
    obtain ⟨hlower, hminus, hplus, hi, hn⟩ := toLower_of_isDigit_or_point hfirst
    have hinfinity : ¬ (IsWord "inf" (first :: rest) ∨ IsWord "infinity" (first :: rest)) :=
      not_or.2 ⟨not_isWord_of_head "inf" rfl hlower hi, not_isWord_of_head "infinity" rfl hlower hi⟩
    rw [hbody] at hread ⊢
    rw [ofPlain?_of_splitSign (splitSign_of_isSign hsign hminus hplus), if_neg hinfinity,
      if_neg (not_isWord_of_head "nan" rfl hlower hn), hread, Option.map_some]

/-! ## Blanks and underscores -/

/-- Every underscore stands between two digits, one of which stands in front of the text if
`afterDigit`. -/
def UnderscoresBetween (afterDigit : Bool) (text : List Char) : Prop :=
  ∀ before after, text = before ++ '_' :: after →
    (before.getLast?.map Char.isDigit).getD afterDigit = true ∧ after.head?.any Char.isDigit = true

theorem underscoresBetween_cons_iff {afterDigit : Bool} {c : Char} {rest : List Char} :
    UnderscoresBetween afterDigit (c :: rest) ↔
      (c = '_' → afterDigit = true ∧ rest.head?.any Char.isDigit = true) ∧
        UnderscoresBetween c.isDigit rest := by
  have hlast : ∀ (before : List Char) (d : Bool),
      ((c :: before).getLast?.map Char.isDigit).getD d =
        (before.getLast?.map Char.isDigit).getD c.isDigit := by
    intro before d
    rw [List.getLast?_cons]
    cases before.getLast? <;> rfl
  constructor
  · intro h
    refine ⟨fun hc => h [] rest (hc ▸ rfl), fun before after heq => ?_⟩
    have hnext := h (c :: before) after (congrArg (c :: ·) heq)
    rwa [hlast] at hnext
  · intro h before after heq
    obtain ⟨hfirst, hrest⟩ := h
    cases before with
    | nil =>
      cases heq
      exact hfirst rfl
    | cons d before =>
      cases heq
      rw [hlast]
      exact hrest before after rfl

/-- Underscores are joined where the digits around them are, also across the start of the text. -/
theorem ungroup_eq_some_iff {text plain : List Char} {afterDigit : Bool} :
    ungroup afterDigit text = some plain ↔
      plain = text.filter (· != '_') ∧ UnderscoresBetween afterDigit text := by
  induction text generalizing afterDigit plain with
  | nil =>
    constructor
    · intro h
      cases h
      refine ⟨rfl, fun before after heq => ?_⟩
      cases before <;> cases heq
    · intro h
      rw [h.1]
      rfl
  | cons c rest ih =>
    rw [underscoresBetween_cons_iff]
    unfold ungroup
    by_cases hc : c = '_'
    · subst hc
      rw [if_pos rfl, List.filter_cons_of_neg (by decide)]
      constructor
      · intro h
        split_ifs at h with hboth
        obtain ⟨hplain, hbetween⟩ := ih.1 h
        exact ⟨hplain, fun _ => Bool.and_eq_true_iff.1 hboth, hbetween⟩
      · intro h
        obtain ⟨hplain, hfirst, hbetween⟩ := h
        rw [if_pos (Bool.and_eq_true_iff.2 (hfirst rfl))]
        exact ih.2 ⟨hplain, hbetween⟩
    · rw [if_neg hc, List.filter_cons_of_pos (by simpa using hc)]
      constructor
      · intro h
        obtain ⟨joined, hjoined, rfl⟩ := Option.map_eq_some_iff.1 h
        obtain ⟨hplain, hbetween⟩ := ih.1 hjoined
        exact ⟨congrArg (c :: ·) hplain, fun heq => absurd heq hc, hbetween⟩
      · intro h
        obtain ⟨hplain, _, hbetween⟩ := h
        exact Option.map_eq_some_iff.2 ⟨_, ih.2 ⟨rfl, hbetween⟩, hplain.symm⟩

theorem ungroup_eq_some_iff_grouped {text plain : List Char} :
    ungroup false text = some plain ↔ Grouped text plain := by
  have hlast : ∀ before : List Char, (before.getLast?.map Char.isDigit).getD false =
      before.getLast?.any Char.isDigit := by
    intro before
    cases before.getLast? <;> rfl
  rw [ungroup_eq_some_iff]
  simp only [UnderscoresBetween, hlast]
  exact ⟨fun h => ⟨h.1, h.2⟩, fun h => ⟨h.joined, h.between⟩⟩

/-- A character of a literal is no blank. -/
theorem not_isBlank_of_toLower {c : Char} (h : isBlank c.toLower = false) : isBlank c = false := by
  by_cases hupper : 65 ≤ c.toNat ∧ c.toNat ≤ 90
  · simp only [isBlank, Bool.or_eq_false_iff, Bool.and_eq_false_iff, beq_eq_false_iff_ne,
      decide_eq_false_iff_not]
    omega
  · have hsame : c.toLower = c := by
      unfold Char.toLower
      rw [dif_neg]
      exact hupper
    rwa [hsame] at h

theorem not_isBlank_of_mem_isSign {negative : Bool} {sign : List Char} (h : IsSign negative sign) :
    ∀ c ∈ sign, isBlank c = false := by
  intro c hc
  cases h with
  | absent => cases hc
  | plus | minus =>
    rw [List.mem_singleton.1 hc]
    rfl

theorem not_isBlank_of_mem_areDigits {digits : List Char} (h : AreDigits digits) :
    ∀ c ∈ digits, isBlank c = false :=
  fun c hc => (isPlain_of_isDigit (h c hc)).2.1

theorem not_isBlank_of_mem_isWord {word : String} {letters : List Char} (h : IsWord word letters)
    (hword : word.toList.any isBlank = false) : ∀ c ∈ letters, isBlank c = false := by
  intro c hc
  rw [List.any_eq_false, ← h] at hword
  exact not_isBlank_of_toLower (eq_false_of_ne_true (hword _ (List.mem_map_of_mem hc)))

theorem not_isBlank_of_mem_written {l : Literal} {plain : List Char} (h : l.Written plain) :
    ∀ c ∈ plain, isBlank c = false := by
  intro c hc
  cases h with
  | infinity hsign hletters =>
    rcases List.mem_append.1 hc with hc | hc
    · exact not_isBlank_of_mem_isSign hsign c hc
    · rcases hletters with hletters | hletters
      · exact not_isBlank_of_mem_isWord hletters (by decide) c hc
      · exact not_isBlank_of_mem_isWord hletters (by decide) c hc
  | nan hsign hletters =>
    rcases List.mem_append.1 hc with hc | hc
    · exact not_isBlank_of_mem_isSign hsign c hc
    · exact not_isBlank_of_mem_isWord hletters (by decide) c hc
  | number hsign hwhole hfraction _ hexponent =>
    rw [List.mem_append, List.mem_append, List.mem_append] at hc
    rcases hc with hc | (hc | hc) | hc
    · exact not_isBlank_of_mem_isSign hsign c hc
    · exact not_isBlank_of_mem_areDigits hwhole c hc
    · cases hfraction with
      | absent => cases hc
      | point hdigits =>
        rcases List.mem_cons.1 hc with rfl | hc
        · rfl
        · exact not_isBlank_of_mem_areDigits hdigits c hc
    · cases hexponent with
      | absent => cases hc
      | marked hmark hsign _ hdigits =>
        rcases List.mem_cons.1 hc with rfl | hc
        · rcases hmark with rfl | rfl <;> rfl
        · rcases List.mem_append.1 hc with hc | hc
          · exact not_isBlank_of_mem_isSign hsign c hc
          · exact not_isBlank_of_mem_areDigits hdigits c hc

theorem trim_spec (text : List Char) : ∃ front back, text = front ++ trim text ++ back ∧
    ∀ c ∈ front ++ back, isBlank c = true := by
  obtain ⟨back, hback, hblank⟩ :=
    Text.dropEndWhile_append_dropped isBlank (text.dropWhile isBlank)
  refine ⟨text.takeWhile isBlank, back, ?_, fun c hc => ?_⟩
  · rw [trim, List.append_assoc, ← hback, List.takeWhile_append_dropWhile]
  · rcases List.mem_append.1 hc with hc | hc
    · exact List.all_eq_true.1 List.all_takeWhile c hc
    · exact hblank c hc

/-- Blanks around a text without blanks are what is trimmed. -/
theorem trim_eq {front text back : List Char} (hblank : ∀ c ∈ front ++ back, isBlank c = true)
    (htext : ∀ c ∈ text, isBlank c = false) : trim (front ++ text ++ back) = text := by
  have hfront : ∀ c ∈ front, isBlank c = true := fun c hc => hblank c (List.mem_append_left _ hc)
  have hback : ∀ c ∈ back, isBlank c = true := fun c hc => hblank c (List.mem_append_right _ hc)
  rw [trim, List.append_assoc, List.dropWhile_append_of_pos hfront]
  cases text with
  | nil =>
    have hall : (back ++ []).dropWhile isBlank = [] := List.dropWhile_append_of_pos hback
    rw [List.append_nil] at hall
    rw [List.nil_append, hall]
    rfl
  | cons c rest =>
    rw [List.cons_append, List.dropWhile_cons_of_neg (by simp [htext c List.mem_cons_self]),
      ← List.cons_append, Text.dropEndWhile_append_of_all hback, Text.dropEndWhile_eq_self htext]

/-- Reading accepts the language of number text and nothing else. -/
theorem spells_iff {raw : String} {l : Literal} : Spells raw l ↔ literal? raw = some l := by
  constructor
  · intro h
    obtain ⟨front, text, back, plain, hraw, hblank, hgrouped, hwritten⟩ := h
    have htext : ∀ c ∈ text, isBlank c = false := by
      intro c hc
      by_cases hunderscore : c = '_'
      · rw [hunderscore]
        rfl
      · refine not_isBlank_of_mem_written hwritten c ?_
        rw [hgrouped.joined]
        exact List.mem_filter.2 ⟨hc, by simpa using hunderscore⟩
    rw [literal?, plain?, hraw, trim_eq hblank htext, ungroup_eq_some_iff_grouped.2 hgrouped]
    exact ofPlain?_of_written hwritten
  · intro h
    obtain ⟨plain, hplain, hliteral⟩ := Option.bind_eq_some_iff.1 h
    obtain ⟨front, back, hraw, hblank⟩ := trim_spec (raw.toList.map toAsciiDigit)
    exact ⟨front, _, back, plain, hraw, hblank, ungroup_eq_some_iff_grouped.1 hplain,
      written_of_ofPlain? hliteral⟩

end WavePlot.Decimal
