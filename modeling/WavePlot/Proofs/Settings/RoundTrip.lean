import WavePlot.Proofs.Decimal.RoundTrip
import WavePlot.Proofs.Settings.Assignment
import WavePlot.Proofs.Settings.Invariant
import WavePlot.Run

/-!
# Settings survive being shown and assigned again

A word that assigns a parameter the shown text of a normal value stores that value again, since
the text is read back exactly and the rule of the parameter keeps it. Words and keywords for all
parameters, in any order, therefore rebuild the settings they were taken from.
-/

namespace WavePlot

/-- A normal value is read back from its shown text. -/
theorem Parameter.read?_shown {p : Parameter} {x : p.Carrier} (h : p.Normal x) :
    p.kind.read? (p.kind.toValue x).shown = some (p.kind.toValue x) := by
  cases p with
  | lineWidth =>
    have hnumeral : Decimal.hasNumeral x = true := (Value.hasNumeral_iff h.1).2 h.2
    exact (Kind.read?_integer _).trans
      (congrArg (Option.map _) (Decimal.integer?_toString hnumeral))
  | color | plotWidth | plotHeight => rfl
  | _ => exact (Kind.read?_real _).trans (congrArg (Option.map _) (Decimal.real?_text x))

namespace Settings

/-! ## Stored values put again -/

theorem assign_value {s : Settings} (hs : s.Normal) (t : Settings) (p : Parameter) :
    t.assign p (s.value p) = .ok (t.put p (s.get p)) := by
  unfold assign value
  rw [Parameter.accept_of_normal (hs p)]
  rfl

theorem apply_word {s : Settings} (hs : s.Normal) (t : Settings) (p : Parameter) :
    t.apply (p.word (s.value p).shown) = .ok (t.put p (s.get p)) := by
  have hread : p.kind.read? (s.value p).shown = some (s.value p) :=
    Parameter.read?_shown (hs p)
  unfold apply
  rw [Assignment.ofWord_word hread]
  exact assign_value hs t p

theorem get_foldl_put (s t : Settings) (ps : List Parameter) (q : Parameter) :
    (ps.foldl (fun t p => t.put p (s.get p)) t).get q = if q ∈ ps then s.get q else t.get q := by
  induction ps generalizing t with
  | nil => rfl
  | cons p rest ih =>
    rw [List.foldl_cons, ih]
    by_cases hrest : q ∈ rest
    · rw [if_pos hrest, if_pos (List.mem_cons_of_mem p hrest)]
    · rw [if_neg hrest]
      by_cases hq : q = p
      · subst hq
        rw [get_put_self, if_pos List.mem_cons_self]
      · rw [get_put_of_ne t _ hq, if_neg (by simp [hq, hrest])]

/-- Putting every parameter's value leaves nothing of what was there before. -/
theorem foldl_put_eq (s t : Settings) {ps : List Parameter} (hall : ∀ p, p ∈ ps) :
    ps.foldl (fun t p => t.put p (s.get p)) t = s :=
  ext_get fun q => by rw [get_foldl_put, if_pos (hall q)]

/-! ## Words and keywords -/

theorem ofWords_words {s : Settings} (hs : s.Normal) {ps : List Parameter} (hall : ∀ p, p ∈ ps) :
    ofWords (ps.map fun p => p.word (s.value p).shown) = .ok s := by
  unfold ofWords
  rw [List.foldlM_map, foldlM_eq_foldl (fun t p _ => apply_word hs t p), foldl_put_eq s _ hall]

theorem lookup_key {s : Settings} {ps : List Parameter} {p : Parameter} (hp : p ∈ ps) :
    (ps.map fun p => ((p.key : Wide), s.value p)).lookup ↑p.key = some (s.value p) := by
  induction ps with
  | nil => cases hp
  | cons q rest ih =>
    rw [List.map_cons, List.lookup_cons]
    by_cases hq : p = q
    · simp [hq]
    · have hkey : ((p.key : Wide) == q.key) = false :=
        beq_false_of_ne fun h => hq (Parameter.key_injective h)
      rw [hkey]
      exact ih ((List.mem_cons.1 hp).resolve_left hq)

theorem ofKeywords_keys {s : Settings} (hs : s.Normal) {ps : List Parameter}
    (hall : ∀ p, p ∈ ps) : ofKeywords (ps.map fun p => (↑p.key, s.value p)) = .ok s := by
  have hknown : ((ps.map fun p => ((p.key : Wide), s.value p)).findSome? fun keyword =>
      keywordError? keyword.1) = none := by
    rw [List.findSome?_eq_none_iff]
    intro keyword hmem
    obtain ⟨p, _, rfl⟩ := List.mem_map.1 hmem
    exact p.keywordError?_key
  unfold ofKeywords
  rw [hknown]
  dsimp only
  rw [foldlM_eq_foldl (g := fun t p => t.put p (s.get p)), foldl_put_eq s _ Parameter.mem_all]
  intro t p _
  rw [lookup_key (hall p)]
  exact assign_value hs t p

/-- Reachable settings are rebuilt from their shown entries, read as words in any order, and from
their entries as keywords in any order. The same shown texts are listed and fill templates. -/
theorem rebuilt_from_entries {s : Settings} (hs : s.Reachable) {entries : List (Parameter × Value)}
    (horder : entries.Perm s.entries) :
    ofWords (entries.map fun entry => entry.1.word entry.2.shown) = .ok s ∧
      ofKeywords (entries.map fun entry => (entry.1.key, entry.2)) = .ok s ∧
      s.listing = (s.entries.map fun entry =>
        (entry.1.name ++ ": " ++ entry.2.shown ++ "\n" : Wide)).flatten ∧
      ∀ output, ∃ texts, s.placeholderTexts output = .ok texts ∧
        ∀ entry ∈ entries, texts (.setting entry.1) = entry.2.shown := by
  have hn := normal_of_reachable hs
  have hvalue : ∀ entry ∈ entries, entry = (entry.1, s.value entry.1) := by
    intro entry hmem
    obtain ⟨p, _, rfl⟩ := List.mem_map.1 (horder.mem_iff.1 hmem)
    rfl
  have hall : ∀ p, p ∈ entries.map Prod.fst := by
    intro p
    have hmem : (p, s.value p) ∈ s.entries := List.mem_map.2 ⟨p, p.mem_all, rfl⟩
    exact List.mem_map.2 ⟨_, horder.mem_iff.2 hmem, rfl⟩
  have hentries : entries = (entries.map Prod.fst).map fun p => (p, s.value p) := by
    rw [List.map_map]
    exact ((List.map_congr_left fun entry hmem => (hvalue entry hmem).symm).trans
      (List.map_id' entries)).symm
  refine ⟨?_, ?_, rfl, fun output => ⟨_, placeholderTexts_of_normal hn output, ?_⟩⟩
  · rw [hentries, List.map_map]
    exact ofWords_words hn hall
  · rw [hentries, List.map_map]
    exact ofKeywords_keys hn hall
  · intro entry hmem
    rw [hvalue entry hmem]
    rfl

/-- A colour with an equals sign, a blank, a quotation mark and a line break in it, with the entries
from last to first. -/
theorem rebuilt_odd_color :
    Reachable (default.perform (.apply "--color=a = \"b\n")).2 ∧
      (default.perform (.apply "--color=a = \"b\n")).2.color = "a = \"b\n" ∧
      ofWords ((default.perform (.apply "--color=a = \"b\n")).2.entries.reverse.map fun entry =>
        entry.1.word entry.2.shown) = .ok (default.perform (.apply "--color=a = \"b\n")).2 := by
  have hreach := (@Reachable.start [] default rfl).perform (.apply "--color=a = \"b\n")
  exact ⟨hreach, by decide +kernel, (rebuilt_from_entries hreach (List.reverse_perm _)).1⟩

end Settings

end WavePlot
