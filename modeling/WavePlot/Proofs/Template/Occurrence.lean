import Mathlib.Data.List.Chain
import WavePlot.Proofs.Template.Pieces

/-!
# Markers in texts put together

Where texts are put together, a marker can stand in one of them or across a seam. Across a seam it
would have to reach from a left brace in one text to a right brace in another over all that is
between them, and only capitals and underscores stand inside a marker. So no marker is made by
putting texts into a template whose literal texts have no brace and, between two markers, some
character that no name has.
-/

namespace WavePlot

/-- A character that the names of placeholders are made of. -/
def IsNameChar : CodePoint → Prop
  | .char c => ('A' ≤ c ∧ c ≤ 'Z') ∨ c = '_'
  | .surrogate _ => False

instance : (c : CodePoint) → Decidable (IsNameChar c)
  | .char _ => inferInstanceAs (Decidable (_ ∨ _))
  | .surrogate _ => inferInstanceAs (Decidable False)

/-- Whether some marker stands in the text. -/
def HasMarker (text : Wide) : Prop := ∃ h : Placeholder, h.marker <:+: text

namespace Placeholder

theorem isNameChar_of_mem_name (h : Placeholder) : ∀ c ∈ (h.name : Wide), IsNameChar c := by
  have hall : ∀ h ∈ all, (h.name : Wide).all (fun c => IsNameChar c) = true := by decide
  intro c hc
  exact of_decide_eq_true (List.all_eq_true.1 (hall h h.mem_all) c hc)

/-- A proper end of a marker is name characters and the right brace. -/
theorem eq_concat_of_marker_eq {h : Placeholder} {u v : Wide} (heq : h.marker = u ++ v)
    (hu : u ≠ []) (hv : v ≠ []) : ∃ letters, v = letters ++ [.char '}'] ∧
      ∀ c ∈ letters, IsNameChar c := by
  obtain ⟨c, u, rfl⟩ := List.exists_cons_of_ne_nil hu
  obtain ⟨letters, last, rfl⟩ := (List.eq_nil_or_concat' v).resolve_left hv
  have htail : (h.name : Wide) ++ [.char '}'] = (u ++ letters) ++ [last] := by
    rw [List.append_assoc]
    exact (List.cons.inj heq).2
  obtain ⟨hname, hlast⟩ := List.append_inj' htail rfl
  refine ⟨letters, by rw [hlast], fun c hc => ?_⟩
  exact h.isNameChar_of_mem_name c (hname ▸ List.mem_append_right u hc)

theorem left_brace_mem_marker (h : Placeholder) : .char '{' ∈ h.marker := List.mem_cons_self

end Placeholder

namespace Template

/-! ## Across a seam -/

section Seam

variable {text literal rest : Wide}

theorem not_hasMarker_of_no_brace (h : .char '{' ∉ text) : ¬ HasMarker text := by
  intro hmarker
  obtain ⟨k, hin⟩ := hmarker
  exact h (hin.subset k.left_brace_mem_marker)

/-- A text without a left brace begins no marker. -/
theorem hasMarker_append_iff_right (hliteral : .char '{' ∉ literal) :
    HasMarker (literal ++ rest) ↔ HasMarker rest := by
  induction literal with
  | nil => exact Iff.rfl
  | cons c literal ih =>
    have hc : .char '{' ≠ c := fun heq => hliteral (heq ▸ List.mem_cons_self)
    rw [← ih fun hmem => hliteral (List.mem_cons_of_mem c hmem)]
    refine exists_congr fun h => ?_
    rw [List.cons_append, List.infix_cons_iff]
    exact or_iff_right fun hprefix => hc (List.cons_prefix_cons.1 hprefix).1

/-- No marker reaches from a text over a literal text without braces, if nothing follows it or if
it has a character that no name has. -/
theorem hasMarker_append_iff (hliteral : .char '{' ∉ literal ∧ .char '}' ∉ literal)
    (hends : rest = [] ∨ ∃ c ∈ literal, ¬ IsNameChar c) :
    HasMarker (text ++ (literal ++ rest)) ↔ HasMarker text ∨ HasMarker (literal ++ rest) := by
  constructor
  · rintro ⟨h, hinfix⟩
    rcases List.infix_append_iff_ne_nil.1 hinfix with hin | hin | ⟨u, v, hu, hv, heq, _, hstart⟩
    · exact Or.inl ⟨h, hin⟩
    · exact Or.inr ⟨h, hin⟩
    · obtain ⟨letters, rfl, hletters⟩ := Placeholder.eq_concat_of_marker_eq heq hu hv
      exfalso
      rcases List.prefix_or_prefix_of_prefix hstart (List.prefix_append literal rest) with
        hshort | hlong
      · exact hliteral.2 (hshort.subset (by simp))
      · rcases hends with rfl | ⟨c, hc, hnot⟩
        · rw [List.append_nil] at hstart
          exact hliteral.2 (hstart.subset (by simp))
        · rcases List.mem_append.1 (hlong.subset hc) with hletter | hbrace
          · exact hnot (hletters c hletter)
          · exact hliteral.2 (List.mem_singleton.1 hbrace ▸ hc)
  · rintro (⟨h, hin⟩ | ⟨h, hin⟩)
    · exact ⟨h, hin.trans (List.prefix_append _ _).isInfix⟩
    · exact ⟨h, hin.trans (List.suffix_append _ _).isInfix⟩

end Seam

/-! ## Cuts that keep texts apart -/

namespace Pieces

/-- No literal text has a brace, and each one with a placeholder behind it has a character that no
name has. -/
structure Apart (p : Pieces) : Prop where
  braceless : ∀ literal ∈ p.first :: p.rest.map Prod.snd, .char '{' ∉ literal ∧ .char '}' ∉ literal
  spaced : p.rest.IsChain fun piece _ => ∃ c ∈ piece.2, ¬ IsNameChar c

theorem Apart.plain {p : Pieces} (hp : p.Apart) : p.Plain :=
  fun literal hmem h hinfix => not_hasMarker_of_no_brace (hp.braceless literal hmem).1 ⟨h, hinfix⟩

theorem plain_alone {literal : Wide} (h : ¬ HasMarker literal) : Plain ⟨literal, []⟩ := by
  intro text hmem k hin
  rw [List.mem_singleton.1 hmem] at hin
  exact h ⟨k, hin⟩

theorem spell_cons (texts : Placeholder → Wide) (first : Wide)
    (piece : Placeholder × Wide) (rest : List (Placeholder × Wide)) :
    spell texts ⟨first, piece :: rest⟩ = first ++ (texts piece.1 ++ spell texts ⟨piece.2, rest⟩) := by
  simp [spell]

/-- A cut that keeps texts apart spells a marker only within a text that was put in. -/
theorem hasMarker_spell_iff {p : Pieces} (hp : p.Apart) (texts : Placeholder → Wide) :
    HasMarker (p.spell texts) ↔ ∃ piece ∈ p.rest, HasMarker (texts piece.1) := by
  obtain ⟨first, rest⟩ := p
  induction rest generalizing first with
  | nil =>
    have hfirst := hp.braceless first List.mem_cons_self
    rw [spell_alone]
    exact iff_of_false (not_hasMarker_of_no_brace hfirst.1) (by simp)
  | cons piece rest ih =>
    have hfirst := hp.braceless first List.mem_cons_self
    have hliteral := hp.braceless piece.2 (by simp)
    have hbehind : Apart ⟨piece.2, rest⟩ :=
      ⟨fun literal hmem => hp.braceless literal (List.mem_cons_of_mem first hmem),
        hp.spaced.tail⟩
    have hends : rest.flatMap (fun piece => texts piece.1 ++ piece.2) = [] ∨
        ∃ c ∈ piece.2, ¬ IsNameChar c := by
      cases rest with
      | nil => exact Or.inl rfl
      | cons next others => exact Or.inr (List.isChain_cons_cons.1 hp.spaced).1
    rw [spell_cons, hasMarker_append_iff_right hfirst.1, spell, hasMarker_append_iff hliteral hends,
      List.exists_mem_cons_iff]
    exact or_congr_right (ih piece.2 hbehind)

end Pieces

/-! ## The same said of the text -/

/-- Every brace of the text stands in a marker of it. -/
def BracesInMarkers (text : Wide) : Prop :=
  ∀ before c after, text = before ++ c :: after → c = .char '{' ∨ c = .char '}' →
    ∃ (h : Placeholder) (front u v back : Wide),
      before = front ++ u ∧ h.marker = u ++ c :: v ∧ after = v ++ back

/-- Every brace stands in a marker, and between a marker and the next one stands some character
that no name has. -/
structure MarkersApart (text : Wide) : Prop where
  braces : BracesInMarkers text
  spaced : ∀ (before literal after : Wide) (h k : Placeholder),
    text = before ++ (h.marker ++ (literal ++ (k.marker ++ after))) → ¬ HasMarker literal →
      ∃ c ∈ literal, ¬ IsNameChar c

namespace Pieces

theorem bracesInMarkers_push_iff {c : CodePoint} {p : Pieces} (hc : c ≠ .char '{' ∧ c ≠ .char '}') :
    BracesInMarkers ((p.push c).spell Placeholder.marker) ↔
      BracesInMarkers (p.spell Placeholder.marker) := by
  rw [spell_push]
  constructor
  · intro hbraces before d after hspell hd
    rw [hspell] at hbraces
    obtain ⟨k, front, u, v, back, hbefore, hmarker, hafter⟩ := hbraces (c :: before) d after rfl hd
    cases front with
    | nil =>
      have hu : u = c :: before := hbefore.symm
      rw [hu] at hmarker
      exact absurd (List.cons.inj hmarker).1.symm hc.1
    | cons e front => exact ⟨k, front, u, v, back, (List.cons.inj hbefore).2, hmarker, hafter⟩
  · intro hbraces before d after hspell hd
    cases before with
    | nil =>
      obtain rfl := (List.cons.inj hspell).1
      exact absurd hd (not_or.2 hc)
    | cons e before =>
      obtain ⟨rfl, htail⟩ := List.cons.inj hspell
      obtain ⟨k, front, u, v, back, rfl, hmarker, hafter⟩ := hbraces before d after htail hd
      exact ⟨k, c :: front, u, v, back, rfl, hmarker, hafter⟩

/-- A marker that holds a character behind another marker begins behind it. -/
theorem bracesInMarkers_of_mark {h : Placeholder} {p : Pieces}
    (hbraces : BracesInMarkers ((p.mark h).spell Placeholder.marker)) :
    BracesInMarkers (p.spell Placeholder.marker) := by
  intro before d after hspell hd
  rw [spell_mark, hspell] at hbraces
  obtain ⟨k, front, u, v, back, hbefore, hmarker, hafter⟩ :=
    hbraces (h.marker ++ before) d after (List.append_assoc ..).symm hd
  rcases List.append_eq_append_iff.1 hbefore with ⟨front', rfl, hrest⟩ | ⟨start, hstart, hu⟩
  · exact ⟨k, front', u, v, back, hrest, hmarker, hafter⟩
  · cases start with
    | nil => exact ⟨k, [], u, v, back, hu.symm, hmarker, hafter⟩
    | cons e start =>
      exfalso
      rw [hu] at hmarker
      obtain rfl : e = .char '{' := (List.cons.inj hmarker).1.symm
      cases front with
      | cons e front => exact Placeholder.brace_not_mem_tail hstart
      | nil =>
        have hprefix : h.marker <+: k.marker := by
          rw [hmarker, hstart, List.nil_append, List.append_assoc]
          exact List.prefix_append _ _
        obtain rfl := Placeholder.eq_of_marker_prefix hprefix (List.prefix_refl _)
        have hlength := congrArg List.length (hstart.symm.trans hmarker)
        simp only [List.length_append, List.length_cons, List.length_nil] at hlength
        omega

theorem bracesInMarkers_mark {p : Pieces} (h : Placeholder)
    (hbraces : BracesInMarkers (p.spell Placeholder.marker)) :
    BracesInMarkers ((p.mark h).spell Placeholder.marker) := by
  have hbehind : ∀ before c after, p.spell Placeholder.marker = before ++ c :: after →
      c = .char '{' ∨ c = .char '}' → ∃ (k : Placeholder) (front u v back : Wide),
        h.marker ++ before = front ++ u ∧ k.marker = u ++ c :: v ∧ after = v ++ back := by
    intro before c after hspell hc
    obtain ⟨k, front, u, v, back, rfl, hmarker, hafter⟩ := hbraces before c after hspell hc
    exact ⟨k, h.marker ++ front, u, v, back, (List.append_assoc ..).symm, hmarker, hafter⟩
  intro before c after hspell hc
  rw [spell_mark] at hspell
  rcases List.append_eq_append_iff.1 hspell with ⟨before', rfl, htail⟩ | ⟨start, hstart, htail⟩
  · exact hbehind before' c after htail hc
  · cases start with
    | nil =>
      have hbefore : h.marker ++ [] = before := by
        rw [hstart, List.append_nil, List.append_nil]
      rw [← hbefore]
      exact hbehind [] c after htail.symm hc
    | cons e start =>
      obtain ⟨rfl, rfl⟩ := List.cons.inj htail
      exact ⟨h, [], before, start, _, rfl, hstart, rfl⟩

/-- Every brace stands in a marker exactly if no literal text of the cut has one. -/
theorem bracesInMarkers_iff {p : Pieces} (hp : p.Plain) :
    BracesInMarkers (p.spell Placeholder.marker) ↔
      ∀ literal ∈ p.first :: p.rest.map Prod.snd, .char '{' ∉ literal ∧ .char '}' ∉ literal := by
  induction p using build with
  | nil =>
    refine iff_of_true ?_ (by simp)
    intro before c after hspell
    exact absurd hspell (by simp)
  | push c p ih =>
    obtain ⟨hfirst, hplain⟩ := (plain_push_iff c p).1 hp
    by_cases hc : c = .char '{' ∨ c = .char '}'
    · refine iff_of_false (fun hbraces => ?_) fun hbraceless => ?_
      · obtain ⟨h, front, u, v, back, hbefore, hmarker, hafter⟩ := hbraces [] c _ rfl hc
        obtain ⟨rfl, rfl⟩ := List.append_eq_nil_iff.1 hbefore.symm
        refine not_marker_prefix hfirst h ⟨back, ?_⟩
        rw [hmarker, List.nil_append, List.cons_append, ← hafter]
        rfl
      · have hnone := hbraceless (c :: p.first) List.mem_cons_self
        rcases hc with rfl | rfl
        · exact hnone.1 List.mem_cons_self
        · exact hnone.2 List.mem_cons_self
    · rw [not_or] at hc
      rw [bracesInMarkers_push_iff hc, ih hplain, List.forall_mem_cons, List.forall_mem_cons]
      simp [push, Ne.symm hc.1, Ne.symm hc.2]
  | mark h p ih =>
    have hmark : BracesInMarkers ((p.mark h).spell Placeholder.marker) ↔
        BracesInMarkers (p.spell Placeholder.marker) :=
      ⟨bracesInMarkers_of_mark, bracesInMarkers_mark h⟩
    rw [hmark, ih ((plain_mark_iff h p).1 hp)]
    simp [mark]

/-- A cut is kept apart exactly if the markers of the text are. -/
theorem markersApart_iff {p : Pieces} (hp : p.Plain) :
    MarkersApart (p.spell Placeholder.marker) ↔ p.Apart := by
  constructor
  · intro h
    refine ⟨(bracesInMarkers_iff hp).1 h.braces, ?_⟩
    rw [List.isChain_iff_forall_rel_of_append_cons_cons]
    intro piece next before after hrest
    have hmem : piece.2 ∈ p.first :: p.rest.map Prod.snd := by
      rw [hrest]
      simp
    have hjoin : p = join ⟨p.first, before⟩ piece.1 (join ⟨piece.2, []⟩ next.1 ⟨next.2, after⟩) :=
      Pieces.ext rfl hrest
    have hspell := congrArg (spell Placeholder.marker) hjoin
    rw [spell_join, spell_join, spell_alone] at hspell
    refine h.spaced _ piece.2 _ piece.1 next.1 hspell fun hmarker => ?_
    obtain ⟨k, hk⟩ := hmarker
    exact hp _ hmem k hk
  · intro h
    refine ⟨(bracesInMarkers_iff hp).2 h.braceless, ?_⟩
    intro before literal after k l hspell hliteral
    obtain ⟨p₁, hp₁, rfl⟩ := exists_plain_pieces before
    obtain ⟨p₂, hp₂, rfl⟩ := exists_plain_pieces after
    have hjoin : p = p₁.join k (join ⟨literal, []⟩ l p₂) := by
      refine eq_of_spell_marker_eq hp
        (plain_join hp₁ (plain_join (plain_alone hliteral) hp₂ l) k) ?_
      rw [spell_join, spell_join, spell_alone, hspell]
    have hrest : p.rest = p₁.rest ++ (k, literal) :: (l, p₂.first) :: p₂.rest :=
      congrArg Pieces.rest hjoin
    exact List.isChain_iff_forall_rel_of_append_cons_cons.1 h.spaced hrest

end Pieces

end Template

end WavePlot
