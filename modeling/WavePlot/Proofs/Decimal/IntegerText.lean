import WavePlot.Decimal.Numeral
import WavePlot.Proofs.Decimal.Grammar

/-!
# The grammar of integer text

`SpellsInteger` is the language of integer text as a relation: blanks around an optional sign and,
right behind it, groups of digits of any script joined by single underscores. Reading accepts this
language up to a limit on the digits, where leading zeros count and the sign and the underscores do
not, and gives the integer that the digits denote.
-/

namespace WavePlot.Decimal

open Text (isBlank toAsciiDigit)

/-! ## The language -/

/-- Digits, and a text of them in groups that single underscores join. -/
inductive IsGroups : List Char → List Char → Prop where
  | single {digits : List Char} (hne : digits ≠ []) (hdigits : AreDigits digits) :
      IsGroups digits digits
  | joined {first digits rest : List Char} (hne : first ≠ []) (hfirst : AreDigits first)
      (hrest : IsGroups digits rest) : IsGroups (first ++ digits) (first ++ '_' :: rest)

/-- The text is blanks around a sign and groups of the digits of any script, which denote the
integer. -/
def SpellsInteger (raw : String) (digits : List Char) (n : Int) : Prop :=
  ∃ front sign groups back negative,
    raw.toList.map toAsciiDigit = front ++ (sign ++ groups) ++ back ∧
    (∀ c ∈ front ++ back, isBlank c = true) ∧ IsSign negative sign ∧ IsGroups digits groups ∧
    n = signed negative (Nat.ofDigitChars 10 digits 0)

/-! ## Groups of digits -/

variable {c : Char} {digits text groups sign : List Char} {negative : Bool}

theorem ne_underscore_of_isDigit (h : c.isDigit = true) : c ≠ '_' :=
  (isPlain_of_isDigit h).2.2

namespace IsGroups

theorem cons (hc : c.isDigit = true) (h : IsGroups digits text) :
    IsGroups (c :: digits) (c :: text) := by
  cases h with
  | single hne hdigits =>
    exact .single (List.cons_ne_nil c _) (List.forall_mem_cons.2 ⟨hc, hdigits⟩)
  | joined hne hfirst hrest =>
    exact .joined (List.cons_ne_nil c _) (List.forall_mem_cons.2 ⟨hc, hfirst⟩) hrest

theorem ne_nil (h : IsGroups digits text) : digits ≠ [] := by
  cases h with
  | single hne => exact hne
  | joined hne => exact List.append_ne_nil_of_left_ne_nil hne _

theorem areDigits (h : IsGroups digits text) : AreDigits digits := by
  induction h with
  | single _ hdigits => exact hdigits
  | joined _ hfirst _ ih => exact List.forall_mem_append.2 ⟨hfirst, ih⟩

theorem head?_isDigit (h : IsGroups digits text) : text.head?.any Char.isDigit = true := by
  have hfirst : ∀ {first : List Char} (rest : List Char), first ≠ [] → AreDigits first →
      (first ++ rest).head?.any Char.isDigit = true := by
    intro first rest hne hdigits
    obtain ⟨d, others, rfl⟩ := List.exists_cons_of_ne_nil hne
    exact hdigits d List.mem_cons_self
  cases h with
  | single hne hdigits => simpa using hfirst [] hne hdigits
  | joined hne hdigits => exact hfirst _ hne hdigits

theorem not_isBlank (h : IsGroups digits text) : ∀ d ∈ text, isBlank d = false := by
  induction h with
  | single _ hdigits => exact not_isBlank_of_mem_areDigits hdigits
  | joined _ hfirst _ ih =>
    intro d hd
    rcases List.mem_append.1 hd with hd | hd
    · exact not_isBlank_of_mem_areDigits hfirst d hd
    · rcases List.mem_cons.1 hd with rfl | hd
      · rfl
      · exact ih d hd

end IsGroups

/-! ## Joining groups -/

theorem ungroup_cons_of_ne (hc : c ≠ '_') (afterDigit : Bool) (rest : List Char) :
    ungroup afterDigit (c :: rest) = (ungroup c.isDigit rest).map (c :: ·) := by
  rw [ungroup, if_neg hc]

theorem ungroup_digits_append (hne : digits ≠ []) (hdigits : AreDigits digits)
    (afterDigit : Bool) (rest : List Char) :
    ungroup afterDigit (digits ++ rest) = (ungroup true rest).map (digits ++ ·) := by
  induction digits generalizing afterDigit with
  | nil => exact absurd rfl hne
  | cons d others ih =>
    have hd := hdigits d List.mem_cons_self
    rw [List.cons_append, ungroup_cons_of_ne (ne_underscore_of_isDigit hd), hd]
    cases others with
    | nil => rfl
    | cons e others =>
      rw [ih (List.cons_ne_nil e others) (fun x hx => hdigits x (List.mem_cons_of_mem d hx)),
        Option.map_map]
      rfl

theorem ungroup_of_isGroups (h : IsGroups digits groups) (afterDigit : Bool) :
    ungroup afterDigit groups = some digits := by
  induction h generalizing afterDigit with
  | single _ hdigits =>
    exact ungroup_eq_self afterDigit fun d hd => ne_underscore_of_isDigit (hdigits d hd)
  | joined hne hfirst hrest ih =>
    rw [ungroup_digits_append hne hfirst, ungroup, if_pos rfl, hrest.head?_isDigit,
      Bool.and_self, if_pos rfl, ih, Option.map_some]

/-- A text from which only digits are left is groups of them, by itself or behind a digit. -/
theorem isGroups_of_ungroup (hdigits : AreDigits digits) :
    (text ≠ [] → ungroup false text = some digits → IsGroups digits text) ∧
      ∀ c : Char, c.isDigit = true → ungroup true text = some digits →
        IsGroups (c :: digits) (c :: text) := by
  -- A first underscore needs a digit before it, so the two cases call each other.
  induction text generalizing digits with
  | nil =>
    refine ⟨fun hne => absurd rfl hne, fun c hc h => ?_⟩
    cases h
    exact .single (List.cons_ne_nil c []) (List.forall_mem_cons.2 ⟨hc, hdigits⟩)
  | cons d rest ih =>
    by_cases hd : d = '_'
    · subst hd
      refine ⟨fun _ h => ?_, fun c hc h => ?_⟩
      · cases h
      · rw [ungroup, if_pos rfl, Bool.true_and] at h
        split_ifs at h with hhead
        have hne : rest ≠ [] := by
          rintro rfl
          cases hhead
        have hgroups := (ih hdigits).1 hne h
        show IsGroups ([c] ++ digits) ([c] ++ '_' :: rest)
        exact .joined (List.cons_ne_nil c []) (List.forall_mem_singleton.2 hc) hgroups
    · have hgroups : ∀ afterDigit, ungroup afterDigit (d :: rest) = some digits →
          IsGroups digits (d :: rest) := by
        intro afterDigit h
        rw [ungroup_cons_of_ne hd] at h
        obtain ⟨others, hothers, rfl⟩ := Option.map_eq_some_iff.1 h
        obtain ⟨hdigit, hrest⟩ := List.forall_mem_cons.1 hdigits
        rw [hdigit] at hothers
        exact (ih hrest).2 d hdigit hothers
      exact ⟨fun _ h => hgroups false h, fun c hc h => (hgroups true h).cons hc⟩

/-- A sign stays in front of what is joined. -/
theorem ungroup_sign_eq_some_iff (hsign : IsSign negative sign) (hne : digits ≠ [])
    (hdigits : AreDigits digits) : ungroup false text = some (sign ++ digits) ↔
      ∃ groups, text = sign ++ groups ∧ IsGroups digits groups := by
  have hunsigned : ∀ {text}, ungroup false text = some digits → IsGroups digits text := by
    intro text h
    refine (isGroups_of_ungroup hdigits).1 ?_ h
    rintro rfl
    exact hne (Option.some.inj h).symm
  have hsigned : ∀ {mark : Char}, mark.isDigit = false →
      ungroup false text = some (mark :: digits) → ∃ groups, text = mark :: groups ∧
        IsGroups digits groups := by
    intro mark hmark h
    cases text with
    | nil => cases h
    | cons d rest =>
      by_cases hd : d = '_'
      · subst hd
        cases h
      · rw [ungroup_cons_of_ne hd] at h
        obtain ⟨others, hothers, heq⟩ := Option.map_eq_some_iff.1 h
        cases heq
        rw [hmark] at hothers
        exact ⟨rest, rfl, hunsigned hothers⟩
  constructor
  · intro h
    cases hsign with
    | absent => exact ⟨text, rfl, hunsigned h⟩
    | plus | minus => exact hsigned rfl h
  · rintro ⟨groups, rfl, hgroups⟩
    cases hsign with
    | absent => exact ungroup_of_isGroups hgroups false
    | plus | minus =>
      rw [List.singleton_append, ungroup_cons_of_ne (by decide), ungroup_of_isGroups hgroups]
      rfl

/-! ## Reading -/

/-- Reading accepts the language of integer text up to the digit limit, and nothing else. -/
theorem integer?_eq_some_iff {raw : String} {n : Int} : integer? raw = some n ↔
    ∃ digits, SpellsInteger raw digits n ∧ digits.length ≤ digitLimit := by
  constructor
  · intro h
    obtain ⟨plain, hplain, h⟩ := Option.bind_eq_some_iff.1 h
    obtain ⟨sign, hsign, hsplit⟩ := isSign_of_splitSign plain
    dsimp only at h
    generalize splitSign plain = parts at h hsign hsplit
    obtain ⟨negative, digits⟩ := parts
    dsimp only at h hsign hsplit
    split_ifs at h with hlength
    obtain ⟨magnitude, hmagnitude, rfl⟩ := Option.map_eq_some_iff.1 h
    obtain ⟨hne, hdigits, rfl⟩ := natural?_eq_some_iff.1 hmagnitude
    obtain ⟨front, back, hraw, hblank⟩ := trim_spec (raw.toList.map toAsciiDigit)
    rw [plain?, hsplit] at hplain
    obtain ⟨groups, htrim, hgroups⟩ := (ungroup_sign_eq_some_iff hsign hne hdigits).1 hplain
    rw [htrim] at hraw
    exact ⟨digits, ⟨front, sign, groups, back, negative, hraw, hblank, hsign, hgroups, rfl⟩,
      hlength⟩
  · rintro ⟨digits, ⟨front, sign, groups, back, negative, hraw, hblank, hsign, hgroups, rfl⟩,
      hlength⟩
    have htext : ∀ c ∈ sign ++ groups, isBlank c = false :=
      List.forall_mem_append.2 ⟨not_isBlank_of_mem_isSign hsign, hgroups.not_isBlank⟩
    have hplain : plain? raw.toList = some (sign ++ digits) := by
      rw [plain?, hraw, trim_eq hblank htext]
      exact (ungroup_sign_eq_some_iff hsign hgroups.ne_nil hgroups.areDigits).2 ⟨groups, rfl, hgroups⟩
    have hsplit : splitSign (sign ++ digits) = (negative, digits) := by
      obtain ⟨d, others, rfl⟩ := List.exists_cons_of_ne_nil hgroups.ne_nil
      obtain ⟨hminus, hplus⟩ := ne_sign_of_isDigit (hgroups.areDigits d List.mem_cons_self)
      exact splitSign_of_isSign hsign hminus hplus
    refine Option.bind_eq_some_iff.2 ⟨sign ++ digits, hplain, ?_⟩
    rw [hsplit]
    dsimp only
    rw [if_pos hlength, natural?_digits hgroups.ne_nil hgroups.areDigits, Option.map_some]

end WavePlot.Decimal
