import Mathlib.Data.List.Infix
import Mathlib.Logic.ExistsUnique
import WavePlot.Template.Basic

/-!
# Templates as literal texts and markers

A marker opens with the only left brace in it and closes with the only right brace. So no two
markers begin at one place, and none begins inside another. It follows that every text can be cut
in exactly one way into markers and literal texts that hold no marker, and that the scan from left
to right finds this cut, in whatever order it tries the placeholders.
-/

namespace WavePlot

/-! ## Markers -/

namespace Placeholder

theorem brace_not_mem_name (h : Placeholder) : '{' ∉ h.name.toList ∧ '}' ∉ h.name.toList := by
  cases h with
  | setting p => cases p <;> decide
  | outputName => decide

theorem name_injective {h k : Placeholder} (heq : h.name = k.name) : h = k := by
  have hall : ∀ h ∈ all, ∀ k ∈ all, h.name = k.name → h = k := by decide
  exact hall h h.mem_all k k.mem_all heq

theorem brace_not_mem_points (h : Placeholder) :
    .char '{' ∉ (h.name : Wide) ∧ .char '}' ∉ (h.name : Wide) := by
  rw [Wide.char_mem_ofString, Wide.char_mem_ofString]
  exact h.brace_not_mem_name

/-- What stands before the first right brace gives the placeholder away. -/
theorem takeWhile_marker (h : Placeholder) (rest : Wide) :
    (h.marker ++ rest).takeWhile (· != .char '}') = .char '{' :: h.name := by
  have hname : ∀ c ∈ .char '{' :: (h.name : Wide), (c != .char '}') = true := by
    intro c hc
    rcases List.mem_cons.1 hc with rfl | hc
    · decide
    · exact bne_iff_ne.2 fun he => h.brace_not_mem_points.2 (he ▸ hc)
  have hsplit : h.marker ++ rest = (.char '{' :: (h.name : Wide)) ++ .char '}' :: rest := by
    simp [marker]
  rw [hsplit, List.takeWhile_append_of_pos hname]
  simp

theorem eq_of_marker_prefix {h k : Placeholder} {text : Wide} (hh : h.marker <+: text)
    (hk : k.marker <+: text) : h = k := by
  obtain ⟨u, rfl⟩ := hh
  obtain ⟨v, hv⟩ := hk
  have hnames := congrArg (List.takeWhile (· != .char '}')) hv
  rw [takeWhile_marker, takeWhile_marker] at hnames
  exact (name_injective (Wide.ofString_inj.1 (List.cons.inj hnames).2)).symm

/-- No marker begins inside a marker. -/
theorem brace_not_mem_tail {h : Placeholder} {c : CodePoint} {u v : Wide}
    (heq : h.marker = c :: u ++ .char '{' :: v) : False := by
  have htail : (h.name : Wide) ++ [.char '}'] = u ++ .char '{' :: v := (List.cons.inj heq).2
  have hmem : .char '{' ∈ (h.name : Wide) ++ [.char '}'] := by rw [htail]; simp
  rcases List.mem_append.1 hmem with hn | hb
  · exact h.brace_not_mem_points.1 hn
  · exact absurd (List.mem_singleton.1 hb) (by decide)

end Placeholder

namespace Template

/-! ## Pieces -/

/-- A template cut into literal texts, with a placeholder between each and the next. -/
@[ext]
structure Pieces where
  first : Wide
  rest : List (Placeholder × Wide)

namespace Pieces

/-- The text of the pieces when each placeholder stands for a text. -/
def spell (texts : Placeholder → Wide) (p : Pieces) : Wide :=
  p.first ++ p.rest.flatMap fun piece => texts piece.1 ++ piece.2

def Plain (p : Pieces) : Prop :=
  ∀ literal ∈ p.first :: p.rest.map Prod.snd, ∀ h : Placeholder, ¬ h.marker <:+: literal

def segments (p : Pieces) : List Segment :=
  p.first.map .plain ++ p.rest.flatMap fun piece => .slot piece.1 :: piece.2.map .plain

def push (c : CodePoint) (p : Pieces) : Pieces := ⟨c :: p.first, p.rest⟩

def mark (h : Placeholder) (p : Pieces) : Pieces := ⟨[], (h, p.first) :: p.rest⟩

def join (p : Pieces) (h : Placeholder) (q : Pieces) : Pieces :=
  ⟨p.first, p.rest ++ (h, q.first) :: q.rest⟩

@[simp] theorem spell_push (texts : Placeholder → Wide) (c : CodePoint) (p : Pieces) :
    (p.push c).spell texts = c :: p.spell texts := rfl

@[simp] theorem spell_mark (texts : Placeholder → Wide) (h : Placeholder) (p : Pieces) :
    (p.mark h).spell texts = texts h ++ p.spell texts := by
  simp [spell, mark]

@[simp] theorem spell_join (texts : Placeholder → Wide) (h : Placeholder) (p q : Pieces) :
    (p.join h q).spell texts = p.spell texts ++ (texts h ++ q.spell texts) := by
  simp [spell, join]

@[simp] theorem spell_alone (texts : Placeholder → Wide) (literal : Wide) :
    spell texts ⟨literal, []⟩ = literal := List.append_nil literal

theorem segments_push (c : CodePoint) (p : Pieces) :
    (p.push c).segments = .plain c :: p.segments := rfl

theorem segments_mark (h : Placeholder) (p : Pieces) :
    (p.mark h).segments = .slot h :: p.segments := by
  simp [segments, mark]

/-- Every cut is built from the empty one, a character or a placeholder at a time. -/
theorem build {P : Pieces → Prop} (nil : P ⟨[], []⟩) (push : ∀ c p, P p → P (p.push c))
    (mark : ∀ h p, P p → P (p.mark h)) (p : Pieces) : P p := by
  obtain ⟨first, rest⟩ := p
  induction rest generalizing first with
  | nil =>
    induction first with
    | nil => exact nil
    | cons c first ih => exact push c ⟨first, []⟩ ih
  | cons piece rest ihrest =>
    induction first with
    | nil => exact mark piece.1 ⟨piece.2, rest⟩ (ihrest piece.2)
    | cons c first ih => exact push c ⟨first, piece :: rest⟩ ih

theorem flatMap_fill (texts : Placeholder → Wide) (p : Pieces) :
    p.segments.flatMap (Segment.fill texts) = p.spell texts := by
  induction p using build with
  | nil => rfl
  | push c p ih => rw [segments_push, spell_push, List.flatMap_cons, ih]; rfl
  | mark h p ih => rw [segments_mark, spell_mark, List.flatMap_cons, ih]; rfl

/-- The pieces that segments come from. -/
def ofSegments : List Segment → Pieces
  | [] => ⟨[], []⟩
  | .plain c :: rest => (ofSegments rest).push c
  | .slot h :: rest => (ofSegments rest).mark h

theorem ofSegments_segments (p : Pieces) : ofSegments p.segments = p := by
  induction p using build with
  | nil => rfl
  | push c p ih => rw [segments_push, ofSegments, ih]
  | mark h p ih => rw [segments_mark, ofSegments, ih]

/-! ## Cuts without a marker in a literal text -/

theorem plain_nil : Plain ⟨[], []⟩ := by
  intro literal hmem h hinfix
  obtain rfl : literal = [] := by simpa using hmem
  exact absurd (List.infix_nil.1 hinfix) (List.cons_ne_nil _ _)

theorem plain_push_iff (c : CodePoint) (p : Pieces) :
    (p.push c).Plain ↔ (∀ h : Placeholder, ¬ h.marker <+: c :: p.first) ∧ p.Plain := by
  simp only [Plain, push, List.forall_mem_cons, List.infix_cons_iff, not_or, forall_and]
  exact and_assoc

theorem plain_mark_iff (h : Placeholder) (p : Pieces) : (p.mark h).Plain ↔ p.Plain := by
  simp only [Plain, mark, List.map_cons, List.forall_mem_cons]
  exact and_iff_right fun k hinfix => absurd (List.infix_nil.1 hinfix) (List.cons_ne_nil _ _)

theorem plain_join {p q : Pieces} (hp : p.Plain) (hq : q.Plain) (h : Placeholder) :
    (p.join h q).Plain := by
  intro literal hmem
  simp only [join, List.map_append, List.map_cons, ← List.cons_append, List.mem_append] at hmem
  rcases hmem with hmem | hmem
  · exact hp literal hmem
  · exact hq literal hmem

/-- What follows the first literal text begins with a marker, if there is anything. -/
theorem spell_eq_first_append (p : Pieces) :
    ∃ after, p.spell Placeholder.marker = p.first ++ after ∧
      ∀ c rest, after = c :: rest → c = .char '{' := by
  refine ⟨_, rfl, ?_⟩
  intro c rest heq
  cases hrest : p.rest with
  | nil =>
    rw [hrest] at heq
    cases heq
  | cons piece others =>
    rw [hrest] at heq
    exact (List.cons.inj heq).1.symm

/-- Before a marker that the first literal text does not hold, no marker begins. -/
theorem not_marker_prefix {c : CodePoint} {p : Pieces}
    (hplain : ∀ h : Placeholder, ¬ h.marker <+: c :: p.first) (h : Placeholder) :
    ¬ h.marker <+: c :: p.spell Placeholder.marker := by
  intro hprefix
  obtain ⟨after, hspell, hafter⟩ := p.spell_eq_first_append
  rw [hspell, ← List.cons_append] at hprefix
  rcases List.prefix_or_prefix_of_prefix hprefix (List.prefix_append _ after) with hin | ⟨u, hu⟩
  · exact hplain h hin
  · rw [← hu, List.prefix_append_right_inj] at hprefix
    obtain ⟨v, rfl⟩ := hprefix
    cases u with
    | nil => exact hplain h (by rw [← hu, List.append_nil])
    | cons d u =>
      obtain rfl := hafter d (u ++ v) rfl
      exact Placeholder.brace_not_mem_tail hu.symm

end Pieces

/-! ## The scan -/

variable {among : List Placeholder}

theorem marker_prefix_of_startingAt? {text : Wide} {h : Placeholder}
    (hstart : startingAt? among text = some h) : h.marker <+: text := by
  have hbool : h.marker.isPrefixOf text = true :=
    List.find?_some (p := fun k : Placeholder => k.marker.isPrefixOf text) hstart
  exact List.isPrefixOf_iff_prefix.1 hbool

theorem startingAt?_eq_some_iff (hall : ∀ h, h ∈ among) {text : Wide} {h : Placeholder} :
    startingAt? among text = some h ↔ h.marker <+: text := by
  constructor
  · exact marker_prefix_of_startingAt?
  · intro hprefix
    cases hstart : startingAt? among text with
    | none =>
      have hnone := List.find?_eq_none.1 hstart h (hall h)
      exact absurd (List.isPrefixOf_iff_prefix.2 hprefix) hnone
    | some k =>
      rw [Placeholder.eq_of_marker_prefix (marker_prefix_of_startingAt? hstart) hprefix]

theorem segmentsAfter_append (u v : Wide) :
    segmentsAfter among u.length (u ++ v) = segmentsAmong among v := by
  induction u with
  | nil => rfl
  | cons c u ih => exact ih

theorem segmentsAmong_cons (c : CodePoint) (rest : Wide) :
    segmentsAmong among (c :: rest) =
      match startingAt? among (c :: rest) with
      | some h => Segment.slot h :: segmentsAfter among (h.marker.length - 1) rest
      | none => Segment.plain c :: segmentsAmong among rest := rfl

theorem segmentsAmong_marker (hall : ∀ h, h ∈ among) (h : Placeholder) (text : Wide) :
    segmentsAmong among (h.marker ++ text) = .slot h :: segmentsAmong among text := by
  have hcons : h.marker ++ text = .char '{' :: (((h.name : Wide) ++ [.char '}']) ++ text) := rfl
  have hstart := (startingAt?_eq_some_iff hall).2 (List.prefix_append h.marker text)
  rw [hcons] at hstart ⊢
  rw [segmentsAmong_cons, hstart]
  exact congrArg _ (segmentsAfter_append ((h.name : Wide) ++ [.char '}']) text)

theorem segmentsAmong_plain (hall : ∀ h, h ∈ among) {c : CodePoint} {text : Wide}
    (hnone : ∀ h : Placeholder, ¬ h.marker <+: c :: text) :
    segmentsAmong among (c :: text) = .plain c :: segmentsAmong among text := by
  have hstart : startingAt? among (c :: text) = none := by
    rw [Option.eq_none_iff_forall_ne_some]
    intro h hsome
    exact hnone h ((startingAt?_eq_some_iff hall).1 hsome)
  rw [segmentsAmong_cons, hstart]

/-- The scan finds every cut without a marker in a literal text. -/
theorem segmentsAmong_spell (hall : ∀ h, h ∈ among) {p : Pieces} (hp : p.Plain) :
    segmentsAmong among (p.spell Placeholder.marker) = p.segments := by
  induction p using Pieces.build with
  | nil => rfl
  | push c p ih =>
    obtain ⟨hfirst, hplain⟩ := (Pieces.plain_push_iff c p).1 hp
    rw [Pieces.spell_push, segmentsAmong_plain hall (Pieces.not_marker_prefix hfirst), ih hplain,
      Pieces.segments_push]
  | mark h p ih =>
    rw [Pieces.spell_mark, segmentsAmong_marker hall, ih ((Pieces.plain_mark_iff h p).1 hp),
      Pieces.segments_mark]

/-! ## Existence and uniqueness -/

theorem exists_plain_pieces (text : Wide) :
    ∃ p : Pieces, p.Plain ∧ p.spell Placeholder.marker = text := by
  induction hn : text.length using Nat.strong_induction_on generalizing text with
  | _ n ih =>
    by_cases hstart : ∃ h : Placeholder, h.marker <+: text
    · obtain ⟨h, rest, rfl⟩ := hstart
      obtain ⟨p, hp, rfl⟩ := ih rest.length (by subst hn; simp [Placeholder.marker]; omega) rest rfl
      exact ⟨p.mark h, (Pieces.plain_mark_iff h p).2 hp, Pieces.spell_mark _ h p⟩
    · cases text with
      | nil => exact ⟨⟨[], []⟩, Pieces.plain_nil, rfl⟩
      | cons c rest =>
        obtain ⟨p, hp, rfl⟩ := ih rest.length (by subst hn; simp) rest rfl
        have hfirst : ∀ h : Placeholder, ¬ h.marker <+: c :: p.first := by
          intro h hprefix
          obtain ⟨after, hspell, _⟩ := p.spell_eq_first_append
          refine hstart ⟨h, hprefix.trans ?_⟩
          rw [hspell, ← List.cons_append]
          exact List.prefix_append _ _
        exact ⟨p.push c, (Pieces.plain_push_iff c p).2 ⟨hfirst, hp⟩, rfl⟩

/-- Every text has exactly one cut without a marker in a literal text. -/
theorem existsUnique_plain_pieces (text : Wide) :
    ∃! p : Pieces, p.Plain ∧ p.spell Placeholder.marker = text := by
  obtain ⟨p, hp, rfl⟩ := exists_plain_pieces text
  refine ⟨p, ⟨hp, rfl⟩, ?_⟩
  rintro q ⟨hq, hspell⟩
  have hseg := segmentsAmong_spell Placeholder.mem_all hq
  rw [hspell, segmentsAmong_spell Placeholder.mem_all hp] at hseg
  rw [← q.ofSegments_segments, ← hseg, p.ofSegments_segments]

theorem Pieces.eq_of_spell_marker_eq {p q : Pieces} (hp : p.Plain) (hq : q.Plain)
    (h : p.spell Placeholder.marker = q.spell Placeholder.marker) : p = q :=
  (existsUnique_plain_pieces (q.spell Placeholder.marker)).unique ⟨hp, h⟩ ⟨hq, rfl⟩

end Template

end WavePlot
