import WavePlot.Proofs.Decimal.Characters
import WavePlot.Proofs.Template.Builtin
import WavePlot.Proofs.Template.Rendering

/-!
# Which markers a script keeps

A template whose markers are kept apart is filled without making a marker out of parts. What is
left in the script then stands in one of the texts that were put in. Numbers have no brace, so it
stands in a text of the user's: the colour, a size of the plot or the name of the output. A script
without markers is its own template.
-/

namespace WavePlot

namespace Template

/-- The markers in a text are those of its cut. -/
theorem Pieces.marker_infix_spell_iff {p : Pieces} (hp : p.Plain) {h : Placeholder} :
    h.marker <:+: p.spell Placeholder.marker ↔ ∃ piece ∈ p.rest, piece.1 = h := by
  constructor
  · intro hin
    obtain ⟨before, after, hsplit⟩ := hin
    obtain ⟨p₁, hp₁, rfl⟩ := exists_plain_pieces before
    obtain ⟨p₂, hp₂, rfl⟩ := exists_plain_pieces after
    have hjoin : p = p₁.join h p₂ := by
      refine eq_of_spell_marker_eq hp (plain_join hp₁ hp₂ h) ?_
      rw [spell_join, ← hsplit, List.append_assoc]
    refine ⟨(h, p₂.first), ?_, rfl⟩
    rw [hjoin]
    exact List.mem_append_right _ List.mem_cons_self
  · intro hmem
    obtain ⟨piece, hpiece, rfl⟩ := hmem
    obtain ⟨before, after, hrest⟩ := List.append_of_mem hpiece
    have hjoin : p = join ⟨p.first, before⟩ piece.1 ⟨piece.2, after⟩ := Pieces.ext rfl hrest
    rw [hjoin, spell_join]
    exact ⟨_, _, List.append_assoc ..⟩

variable {template : Wide}

/-- Where the markers of a template are kept apart, the filled template has a marker exactly if a
text put in has one. -/
theorem hasMarker_fill_iff (texts : Placeholder → Wide) (h : MarkersApart template) :
    HasMarker (fill texts template) ↔
      ∃ h : Placeholder, h.marker <:+: template ∧ HasMarker (texts h) := by
  obtain ⟨p, hp, rfl⟩ := exists_plain_pieces template
  rw [fill_eq_fillAmong_all, fillAmong_spell Placeholder.mem_all texts hp rfl,
    Pieces.hasMarker_spell_iff ((Pieces.markersApart_iff hp).1 h)]
  simp only [Pieces.marker_infix_spell_iff hp]
  constructor
  · intro hleft
    obtain ⟨piece, hmem, hmarker⟩ := hleft
    exact ⟨piece.1, ⟨piece, hmem, rfl⟩, hmarker⟩
  · intro hleft
    obtain ⟨_, ⟨piece, hmem, rfl⟩, hmarker⟩ := hleft
    exact ⟨piece, hmem, hmarker⟩

/-- A text without markers is filled with nothing. -/
theorem fill_eq_self (texts : Placeholder → Wide) (h : ¬ HasMarker template) :
    fill texts template = template := by
  rw [fill_eq_fillAmong_all, fillAmong_spell Placeholder.mem_all texts (Pieces.plain_alone h)
    (Pieces.spell_alone _ _), Pieces.spell_alone]

theorem markersApart_builtin : MarkersApart builtin := by
  rw [← spell_builtinPieces]
  exact (Pieces.markersApart_iff apart_builtinPieces.plain).2 apart_builtinPieces

theorem marker_infix_builtin (h : Placeholder) : h.marker <:+: builtin := by
  rw [← spell_builtinPieces, Pieces.marker_infix_spell_iff apart_builtinPieces.plain]
  obtain ⟨literal, hmem⟩ := mem_builtinPieces h
  exact ⟨(h, literal), hmem, rfl⟩

end Template

open Template

namespace Settings

/-- A parameter that is no text is shown as a number. -/
theorem exists_numeral_of_shown (s : Settings) {p : Parameter} (hp : p.kind ≠ .text) :
    ∃ numeral : String, (s.value p).shown = numeral ∧
      ∀ c ∈ numeral.toList, Decimal.IsNumeric c := by
  cases p with
  | color | plotWidth | plotHeight => exact absurd rfl hp
  | lineWidth => exact ⟨_, rfl, fun _ hc => Decimal.isNumeric_of_mem_toString hc⟩
  | _ => exact ⟨_, rfl, fun _ hc => Decimal.isNumeric_of_mem_text hc⟩

/-- The texts that are put into a template as the user gave them. -/
def givenTexts (s : Settings) (output : Wide) : List (Placeholder × Wide) :=
  [(.setting .color, s.color), (.setting .plotWidth, s.plotWidth),
    (.setting .plotHeight, s.plotHeight), (.outputName, output)]

theorem placeholderText_of_mem_givenTexts {s : Settings} {output : Wide}
    {given : Placeholder × Wide} (hmem : given ∈ s.givenTexts output) :
    s.placeholderText output given.1 = given.2 := by
  simp only [givenTexts, List.mem_cons, List.not_mem_nil, or_false] at hmem
  rcases hmem with rfl | rfl | rfl | rfl <;> rfl

/-- A text that is put in is one of the user's or a number. -/
theorem mem_givenTexts_or_numeral (s : Settings) (output : Wide) (h : Placeholder) :
    (h, s.placeholderText output h) ∈ s.givenTexts output ∨
      ∃ numeral : String, s.placeholderText output h = numeral ∧
        ∀ c ∈ numeral.toList, Decimal.IsNumeric c := by
  cases h with
  | outputName => exact Or.inl (by simp [givenTexts, placeholderText])
  | setting p =>
    by_cases hp : p.kind = .text
    · left
      cases p with
      | color | plotWidth | plotHeight =>
        simp [givenTexts, placeholderText, value, Kind.toValue, Value.shown, get]
      | _ => cases hp
    · exact Or.inr (s.exists_numeral_of_shown hp)

theorem mem_givenTexts_of_hasMarker {s : Settings} {output : Wide} {h : Placeholder}
    (hmarker : HasMarker (s.placeholderText output h)) :
    (h, s.placeholderText output h) ∈ s.givenTexts output := by
  refine (s.mem_givenTexts_or_numeral output h).resolve_right ?_
  rintro ⟨numeral, heq, hnumeric⟩
  refine not_hasMarker_of_no_brace (fun hbrace => ?_) hmarker
  rw [heq, Wide.char_mem_ofString] at hbrace
  exact absurd (hnumeric _ hbrace) (by decide)

/-- Where a template keeps its markers apart, as the built-in one does, the script of reachable
settings has a marker exactly if a text of the user's that is put in has one. A script without
markers is rendered to itself by all reachable settings. -/
theorem render_leaves_iff {s : Settings} (hs : s.Reachable) :
    MarkersApart builtin ∧
      ∀ template output : Wide, MarkersApart template →
        ∃ script, s.render template output = .ok script ∧
          (HasMarker script ↔
            ∃ given ∈ s.givenTexts output,
              given.1.marker <:+: template ∧ HasMarker given.2) ∧
          (¬ HasMarker script → ∀ t : Settings, t.Reachable → ∀ output' : Wide,
            t.render script output' = .ok script) := by
  refine ⟨markersApart_builtin, ?_⟩
  intro template output hapart
  refine ⟨_, render_of_normal (normal_of_reachable hs) template output, ?_, ?_⟩
  · rw [hasMarker_fill_iff _ hapart]
    constructor
    · intro hleft
      obtain ⟨h, hinfix, hmarker⟩ := hleft
      exact ⟨_, mem_givenTexts_of_hasMarker hmarker, hinfix, hmarker⟩
    · intro hgiven
      obtain ⟨given, hmem, hinfix, hmarker⟩ := hgiven
      refine ⟨given.1, hinfix, ?_⟩
      rwa [placeholderText_of_mem_givenTexts hmem]
  · intro hclean t ht output'
    rw [render_of_normal (normal_of_reachable ht), fill_eq_self _ hclean]

/-- A colour that spells a marker stays in the script; the script of the default settings has no
marker, and these settings leave it as it is. -/
theorem render_leaves_color :
    Reachable (default.perform (.apply "--color=\x7bSHIFT\x7d")).2 ∧
      (∃ script, (default.perform (.apply "--color=\x7bSHIFT\x7d")).2.render builtin "o.png" =
        .ok script ∧ HasMarker script) ∧
      ∃ script, default.render builtin "o.png" = .ok script ∧ ¬ HasMarker script ∧
        (default.perform (.apply "--color=\x7bSHIFT\x7d")).2.render script "p.png" =
          .ok script := by
  have hdefault : default.Reachable := @Reachable.start [] default rfl
  have hcolor := hdefault.perform (.apply "--color=\x7bSHIFT\x7d")
  refine ⟨hcolor, ?_, ?_⟩
  · obtain ⟨hapart, hrender⟩ := render_leaves_iff hcolor
    obtain ⟨script, hscript, hiff, _⟩ := hrender builtin "o.png" hapart
    refine ⟨script, hscript, hiff.2 ⟨(.setting .color, "\x7bSHIFT\x7d"), ?_, ?_, ?_⟩⟩
    · have hstored : (default.perform (.apply "--color=\x7bSHIFT\x7d")).2.color =
          "\x7bSHIFT\x7d" := by decide +kernel
      simp [givenTexts, hstored]
    · exact marker_infix_builtin _
    · exact ⟨.setting .shift, by decide⟩
  · obtain ⟨hapart, hrender⟩ := render_leaves_iff hdefault
    obtain ⟨script, hscript, hiff, hagain⟩ := hrender builtin "o.png" hapart
    have hclean : ¬ HasMarker script := by
      rw [hiff]
      intro hgiven
      obtain ⟨given, hmem, _, hmarker⟩ := hgiven
      have hall : ∀ given ∈ default.givenTexts "o.png", CodePoint.char '{' ∉ given.2 := by
        decide +kernel
      exact not_hasMarker_of_no_brace (hall given hmem) hmarker
    exact ⟨script, hscript, hclean, hagain hclean _ hcolor "p.png"⟩

end Settings

end WavePlot
