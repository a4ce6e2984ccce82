import WavePlot.Text.Encodable

/-!
# Which texts can be encoded

A text can be encoded for a file when it is a string, and as a name for the system when each of
its surrogates stands for an octet. A failure names the first surrogate that is not taken, by the
number of code points in front of it.
-/

namespace WavePlot.Text

/-- The text holds no surrogate but those that are taken. -/
def Takes (taken : Fin 0x800 → Bool) (text : Wide) : Prop :=
  ∀ place, .surrogate place ∈ text → taken place = true

theorem takes_cons_char {taken : Fin 0x800 → Bool} {c : Char} {rest : Wide} :
    Takes taken (.char c :: rest) ↔ Takes taken rest := by
  simp [Takes]

theorem takes_cons_surrogate {taken : Fin 0x800 → Bool} {place : Fin 0x800} {rest : Wide} :
    Takes taken (.surrogate place :: rest) ↔ taken place = true ∧ Takes taken rest := by
  simp [Takes]

theorem encodeFailureFrom_eq_none_iff {taken : Fin 0x800 → Bool} {position : Nat} {text : Wide} :
    encodeFailureFrom taken position text = none ↔ Takes taken text := by
  induction text generalizing position with
  | nil => exact iff_of_true rfl nofun
  | cons point rest ih =>
    cases point with
    | char c => rw [encodeFailureFrom, ih, takes_cons_char]
    | surrogate place =>
      rw [encodeFailureFrom, takes_cons_surrogate]
      split
      · rename_i htaken
        rw [ih, and_iff_right htaken]
      · rename_i htaken
        exact iff_of_false nofun fun h => htaken h.1

/-- A text can be encoded for a file exactly if it is a string. -/
theorem encodeFailure?_eq_none_iff {text : Wide} :
    encodeFailure? text = none ↔ ∃ s : String, text = s := by
  rw [encodeFailure?, encodeFailureFrom_eq_none_iff, Wide.exists_eq_ofString_iff]
  exact forall_congr' fun place => imp_congr_right fun _ => iff_of_false nofun id

/-- The failure names the first surrogates that are not taken, as many as stand one behind the
other. -/
structure EncodeFailure.Names (taken : Fin 0x800 → Bool) (text : Wide) (f : EncodeFailure) :
    Prop where
  cut : ∃ before behind, text = before ++ .surrogate f.place :: behind ∧ Takes taken before ∧
    f.start = before.length ∧ f.width = (behind.takeWhile CodePoint.isSurrogate).length + 1
  refused : taken f.place = false

theorem encodeFailureFrom_append {taken : Fin 0x800 → Bool} {before : Wide}
    (hbefore : Takes taken before) {place : Fin 0x800} (hplace : taken place = false)
    (position : Nat) (behind : Wide) :
    encodeFailureFrom taken position (before ++ .surrogate place :: behind) =
      some ⟨position + before.length, (behind.takeWhile CodePoint.isSurrogate).length + 1,
        place⟩ := by
  induction before generalizing position with
  | nil => simp [encodeFailureFrom, hplace]
  | cons point rest ih =>
    have hposition : position + (point :: rest).length = position + 1 + rest.length := by
      rw [List.length_cons]
      omega
    rw [List.cons_append, hposition]
    cases point with
    | char c => exact ih (takes_cons_char.1 hbefore) (position + 1)
    | surrogate other =>
      obtain ⟨hother, hrest⟩ := takes_cons_surrogate.1 hbefore
      rw [encodeFailureFrom, if_pos hother]
      exact ih hrest (position + 1)

/-- A text with a surrogate that is not taken has a first one. -/
theorem exists_cut_of_not_takes {taken : Fin 0x800 → Bool} {text : Wide} (h : ¬ Takes taken text) :
    ∃ before place behind, text = before ++ .surrogate place :: behind ∧ Takes taken before ∧
      taken place = false := by
  induction text with
  | nil => exact absurd nofun h
  | cons point rest ih =>
    cases point with
    | char c =>
      rw [takes_cons_char] at h
      obtain ⟨before, place, behind, rfl, hbefore, hplace⟩ := ih h
      exact ⟨.char c :: before, place, behind, rfl, takes_cons_char.2 hbefore, hplace⟩
    | surrogate place =>
      cases hplace : taken place with
      | false => exact ⟨[], place, rest, rfl, nofun, hplace⟩
      | true =>
        rw [takes_cons_surrogate, and_iff_right hplace] at h
        obtain ⟨before, other, behind, rfl, hbefore, hother⟩ := ih h
        exact ⟨.surrogate place :: before, other, behind, rfl,
          takes_cons_surrogate.2 ⟨hplace, hbefore⟩, hother⟩

theorem encodeFailureFrom_eq_some_iff {taken : Fin 0x800 → Bool} {text : Wide}
    {f : EncodeFailure} : encodeFailureFrom taken 0 text = some f ↔ f.Names taken text := by
  constructor
  · intro h
    have hnot : ¬ Takes taken text := by
      rw [← @encodeFailureFrom_eq_none_iff taken 0, h]
      exact nofun
    obtain ⟨before, place, behind, rfl, hbefore, hplace⟩ := exists_cut_of_not_takes hnot
    rw [encodeFailureFrom_append hbefore hplace] at h
    cases h
    exact ⟨⟨before, behind, rfl, hbefore, Nat.zero_add _, rfl⟩, hplace⟩
  · rintro ⟨⟨before, behind, rfl, hbefore, hstart, hwidth⟩, hplace⟩
    rw [encodeFailureFrom_append hbefore hplace, Nat.zero_add, ← hstart, ← hwidth]

theorem encodeFailure?_eq_some_iff {text : Wide} {f : EncodeFailure} :
    encodeFailure? text = some f ↔ f.Names (fun _ => false) text :=
  encodeFailureFrom_eq_some_iff

theorem nameFailure?_eq_none_iff {text : Wide} :
    nameFailure? text = none ↔ Takes standsForOctet text :=
  encodeFailureFrom_eq_none_iff

end WavePlot.Text
