import WavePlot.Proofs.Settings.Refusal
import WavePlot.Proofs.Template.Leftover
import WavePlot.Proofs.Text.Encodable

/-!
# Which scripts can be encoded

A template is loaded as a string, and so are numbers written. A surrogate in a script therefore
comes from a text of the user's that is put in: a script is a string exactly if all these texts are.
Those among them that are stored come from the words that assigned them.
-/

namespace WavePlot

variable {place : Fin 0x800}

namespace Template

/-- A code point of a filled cut stands in a literal text or in a text that was put in. -/
theorem Pieces.mem_spell_iff {p : Pieces} {texts : Placeholder → Wide} {c : CodePoint} :
    c ∈ p.spell texts ↔
      (∃ literal ∈ p.first :: p.rest.map Prod.snd, c ∈ literal) ∨
        ∃ piece ∈ p.rest, c ∈ texts piece.1 := by
  simp only [spell, List.mem_append, List.mem_flatMap, List.mem_cons, List.mem_map,
    exists_eq_or_imp, exists_exists_and_eq_and, or_assoc]
  refine or_congr_right ?_
  constructor
  · rintro ⟨piece, hpiece, hc | hc⟩
    · exact Or.inr ⟨piece, hpiece, hc⟩
    · exact Or.inl ⟨piece, hpiece, hc⟩
  · rintro (⟨piece, hpiece, hc⟩ | ⟨piece, hpiece, hc⟩)
    · exact ⟨piece, hpiece, Or.inr hc⟩
    · exact ⟨piece, hpiece, Or.inl hc⟩

/-- A surrogate in a filled template stands in a text that was put in. -/
theorem surrogate_mem_fill_iff {texts : Placeholder → Wide} {template : String} :
    .surrogate place ∈ fill texts template ↔
      ∃ h : Placeholder, h.marker <:+: template ∧ .surrogate place ∈ texts h := by
  obtain ⟨p, hp, hspell⟩ := exists_plain_pieces template
  have hliteral : ∀ literal ∈ p.first :: p.rest.map Prod.snd, .surrogate place ∉ literal := by
    intro literal hmem hplace
    have hin : .surrogate place ∈ p.spell Placeholder.marker :=
      Pieces.mem_spell_iff.2 (Or.inl ⟨literal, hmem, hplace⟩)
    rw [hspell] at hin
    exact Wide.surrogate_not_mem_ofString hin
  rw [fill_eq_fillAmong_all, fillAmong_spell Placeholder.mem_all texts hp hspell,
    Pieces.mem_spell_iff, or_iff_right fun ⟨literal, hmem, hplace⟩ => hliteral literal hmem hplace,
    ← hspell]
  simp only [Pieces.marker_infix_spell_iff hp]
  constructor
  · rintro ⟨piece, hpiece, hplace⟩
    exact ⟨piece.1, ⟨piece, hpiece, rfl⟩, hplace⟩
  · rintro ⟨_, ⟨piece, hpiece, rfl⟩, hplace⟩
    exact ⟨piece, hpiece, hplace⟩

end Template

namespace Settings

/-- The script of normal settings is a string exactly if every text of the user's is that the
template has a place for. -/
theorem script_eq_string_iff {s : Settings} (hs : s.Normal) {template : String}
    {output script : Wide} (hrender : s.render template output = .ok script) :
    (∃ t : String, script = t) ↔
      ∀ given ∈ s.givenTexts output, given.1.marker <:+: template →
        ∃ t : String, given.2 = t := by
  rw [render_of_normal hs] at hrender
  cases hrender
  simp only [Wide.exists_eq_ofString_iff, Template.surrogate_mem_fill_iff]
  constructor
  · intro hnone given hmem hinfix place hplace
    refine hnone place ⟨given.1, hinfix, ?_⟩
    rwa [placeholderText_of_mem_givenTexts hmem]
  · rintro hgiven place ⟨h, hinfix, hplace⟩
    rcases s.mem_givenTexts_or_numeral output h with hmem | ⟨numeral, heq, _⟩
    · exact hgiven _ hmem hinfix place hplace
    · rw [heq] at hplace
      exact Wide.surrogate_not_mem_ofString hplace

end Settings

/-! ## Where surrogates come from -/

theorem Color.surrogate_mem_of_expand {text : Wide} (h : .surrogate place ∈ expand text) :
    .surrogate place ∈ text := by
  unfold expand at h
  split at h
  · split at h
    · simp at h
    · exact h
  · exact h

/-- What is stored for a text that has been read has no surrogates but those of the text. -/
theorem Parameter.surrogate_mem_of_accept {p : Parameter} {raw : Wide} {v : Value} {x : p.Carrier}
    (hread : p.kind.read? raw = some v) (haccept : p.accept v = .ok x)
    (h : .surrogate place ∈ (p.kind.toValue x).shown) : .surrogate place ∈ raw := by
  cases p with
  | color =>
    cases hread
    cases haccept
    exact Color.surrogate_mem_of_expand h
  | plotWidth | plotHeight =>
    cases hread
    cases haccept
    exact h
  | _ => exact absurd h Wide.surrogate_not_mem_ofString

namespace Settings

theorem surrogate_not_mem_default (p : Parameter) :
    .surrogate place ∉ (default.value p).shown := by
  cases p <;> exact Wide.surrogate_not_mem_ofString

theorem surrogate_mem_of_apply {s t : Settings} {word : Wide} {p : Parameter}
    (happly : s.apply word = .ok t) (h : .surrogate place ∈ (t.value p).shown) :
    .surrogate place ∈ (s.value p).shown ∨ .surrogate place ∈ word := by
  unfold apply at happly
  cases hword : Assignment.ofWord word with
  | error e =>
    rw [hword] at happly
    cases happly
  | ok a =>
    rw [hword] at happly
    obtain ⟨x, haccept, rfl⟩ := Parameter.map_eq_ok happly
    by_cases hp : p = a.parameter
    · subst hp
      obtain ⟨raw, rfl, hread⟩ := Assignment.ofWord_eq_ok_iff.1 hword
      rw [value, get_put_self] at h
      exact Or.inr (List.mem_append_right _ (Parameter.surrogate_mem_of_accept hread haccept h))
    · rw [value, get_put_of_ne s x hp] at h
      exact Or.inl h

/-- Settings made by words have no surrogates but those of the words. -/
theorem surrogate_mem_of_ofWords {words : List Wide} {s : Settings} {p : Parameter}
    (hwords : ofWords words = .ok s) (h : .surrogate place ∈ (s.value p).shown) :
    ∃ word ∈ words, .surrogate place ∈ word := by
  revert p
  refine foldlM_invariant (P := fun t => ∀ {p : Parameter}, .surrogate place ∈ (t.value p).shown →
    ∃ word ∈ words, .surrogate place ∈ word) ?_ ?_ hwords
  · intro u word hmem t hu ht p h
    exact (surrogate_mem_of_apply ht h).elim hu fun hword => ⟨word, hmem, hword⟩
  · intro p h
    exact absurd h (surrogate_not_mem_default p)

/-- Words and an output that are strings make a script that is one. -/
theorem exists_script_eq_string {words : List Wide} {s : Settings} {template : String}
    {output script : Wide} (hwords : ofWords words = .ok s)
    (hrender : s.render template output = .ok script) (houtput : ∃ t : String, output = t)
    (hstrings : ∀ word ∈ words, ∃ t : String, word = t) : ∃ t : String, script = t := by
  have hstored : ∀ p : Parameter, ∃ t : String, (s.value p).shown = t := by
    refine fun p => Wide.exists_eq_ofString_iff.2 fun place hplace => ?_
    obtain ⟨word, hmem, hword⟩ := surrogate_mem_of_ofWords hwords hplace
    exact Wide.exists_eq_ofString_iff.1 (hstrings word hmem) place hword
  refine (script_eq_string_iff (normal_ofWords hwords) hrender).2 fun given hmem _ => ?_
  simp only [givenTexts, List.mem_cons, List.not_mem_nil, or_false] at hmem
  rcases hmem with rfl | rfl | rfl | rfl
  · exact hstored .color
  · exact hstored .plotWidth
  · exact hstored .plotHeight
  · exact houtput

end Settings

end WavePlot
