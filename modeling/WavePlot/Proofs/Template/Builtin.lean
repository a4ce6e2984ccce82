import WavePlot.Proofs.Template.Occurrence
import WavePlot.Template.Builtin

/-!
# The cut of the built-in template

The built-in template names every placeholder once and has no other brace. Behind each marker, in
the literal text before the next one, stands a delimiter: a character that ends what is put in the
marker's place, as long as it does not occur in it.
-/

namespace WavePlot.Template

/-- The literal texts of the built-in template, each behind the placeholder that it follows. -/
def builtinPieces : Pieces where
  first := "set terminal pngcairo size "
  rest :=
    [(.setting .plotWidth, ","),
      (.setting .plotHeight, " enhanced\nset output '"),
      (.outputName, "'\n\nset xrange ["),
      (.setting .xRangeStart, ":"),
      (.setting .xRangeEnd, "]\nset yrange ["),
      (.setting .yRangeStart, ":"),
      (.setting .yRangeEnd,
        "]\nset samples 2000\nset grid\nset xzeroaxis\nunset key\n\nperiod = "),
      (.setting .period, "\namplitude = "),
      (.setting .amplitude, "\nshift = "),
      (.setting .shift,
        "\n\ntriangle(x) = (2.0 * amplitude / pi)" ++
          " * asin(sin(2.0 * pi * (x - shift) / period))\n\n" ++
          "plot triangle(x) with lines linewidth "),
      (.setting .lineWidth, " linecolor rgb '"),
      (.setting .color, "'\n")]

/-- A character in the literal text behind a placeholder's marker. -/
def delimiter : Placeholder → Char
  | .setting .plotWidth => ','
  | .setting .xRangeStart | .setting .yRangeStart => ':'
  | .setting .lineWidth => ' '
  | _ => '\n'

theorem not_isNameChar_delimiter (h : Placeholder) : ¬ IsNameChar (.char (delimiter h)) := by
  have hall : ∀ h ∈ Placeholder.all, ¬ IsNameChar (.char (delimiter h)) := by decide
  exact hall h h.mem_all

-- The literal strings are turned into lists of characters by rewriting: to evaluate their octets
-- takes the kernel many times as long.
theorem spell_builtinPieces : builtinPieces.spell Placeholder.marker = builtin := by
  have hlines : Wide.ofString builtin =
      builtinLines.flatMap fun line => Wide.ofString line ++ [.char '\n'] := by
    rw [builtin, Wide.ofString, String.toList_join, List.flatMap_map, List.map_flatMap]
    exact List.flatMap_congr fun line _ => Wide.ofString_append line "\n"
  rw [hlines]
  unfold builtinPieces builtinLines
  repeat rw [Wide.ofString_ofList]
  repeat rw [List.flatMap_cons, Wide.ofString_ofList]
  decide +kernel

theorem mem_builtinPieces (h : Placeholder) : ∃ literal, (h, literal) ∈ builtinPieces.rest := by
  have hall : ∀ h ∈ Placeholder.all, h ∈ builtinPieces.rest.map Prod.fst := by decide
  obtain ⟨⟨_, literal⟩, hmem, rfl⟩ := List.mem_map.1 (hall h h.mem_all)
  exact ⟨literal, hmem⟩

theorem delimiter_mem : ∀ piece ∈ builtinPieces.rest, .char (delimiter piece.1) ∈ piece.2 := by
  unfold builtinPieces
  repeat rw [Wide.ofString_ofList]
  decide +kernel

theorem apart_builtinPieces : builtinPieces.Apart := by
  constructor
  · unfold builtinPieces
    repeat rw [Wide.ofString_ofList]
    decide +kernel
  · rw [List.isChain_iff_forall_rel_of_append_cons_cons]
    intro piece next before after hrest
    have hmem : piece ∈ builtinPieces.rest := by simp [hrest]
    exact ⟨.char (delimiter piece.1), delimiter_mem piece hmem, not_isNameChar_delimiter piece.1⟩

end WavePlot.Template
