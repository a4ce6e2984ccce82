import Mathlib.Data.List.Basic
import WavePlot.Proofs.Settings.Locality
import WavePlot.Proofs.Settings.Refusal

/-!
# First error, last value

Words applied in turn fail as their first refused word does. If none is refused, each parameter
has what the last word naming it stores, whatever stands between. So words of different parameters
can change places, and a word can go if a later one names its parameter.
-/

namespace WavePlot

namespace Parameter

/-- What the word stores for the parameter, if it does. -/
def storedBy? (p : Parameter) (word : Wide) : Option p.Carrier := (Step.apply word).stored? p

/-- The word is the last of the words that names the parameter. -/
def LastNaming (p : Parameter) (words : List Wide) (word : Wide) : Prop :=
  ∃ before after, words = before ++ word :: after ∧ p.NamedBy word ∧
    ∀ later ∈ after, ¬ p.NamedBy later

end Parameter

namespace Settings

/-! ## Places -/

theorem put_put_self (s : Settings) (p : Parameter) (x y : p.Carrier) :
    (s.put p x).put p y = s.put p y := by cases p <;> rfl

theorem put_comm (s : Settings) {p q : Parameter} (x : p.Carrier) (y : q.Carrier) (h : q ≠ p) :
    (s.put p x).put q y = (s.put q y).put p x := by
  cases p <;> cases q <;> first | rfl | exact absurd rfl h

/-! ## What words store -/

theorem storedBy?_eq_some_iff {p : Parameter} {word : Wide} {x : p.Carrier} :
    p.storedBy? word = some x ↔ Accepted.ofWord word = .ok ⟨p, x⟩ := by
  show (Assignment.ofWord word).toOption.bind (Assignment.stored? p) = some x ↔
    (Assignment.ofWord word >>= Assignment.accepted) = .ok ⟨p, x⟩
  cases Assignment.ofWord word with
  | error e => exact ⟨nofun, nofun⟩
  | ok a =>
    obtain ⟨q, v⟩ := a
    show Assignment.stored? p ⟨q, v⟩ = some x ↔ Assignment.accepted ⟨q, v⟩ = .ok ⟨p, x⟩
    unfold Assignment.stored? Assignment.accepted
    by_cases hq : q = p
    · subst hq
      cases q.accept v <;> simp [Except.map, Except.toOption]
    · cases q.accept v <;> simp [Except.map, hq]

theorem namedBy_of_storedBy? {p : Parameter} {word : Wide} {x : p.Carrier}
    (h : p.storedBy? word = some x) : p.NamedBy word :=
  (Accepted.namedBy_iff (storedBy?_eq_some_iff.1 h) p).2 rfl

/-- An accepted word stores something for the parameter that it names. -/
theorem exists_storedBy? {p : Parameter} {word : Wide} (hword : Acceptable word)
    (hp : p.NamedBy word) : ∃ x, p.storedBy? word = some x := by
  obtain ⟨t, ht⟩ := hword
  rw [apply_eq_map_accepted] at ht
  obtain ⟨⟨q, y⟩, hy, _⟩ := Parameter.map_eq_ok ht
  cases (Accepted.namedBy_iff hy p).1 hp
  exact ⟨y, storedBy?_eq_some_iff.2 hy⟩

theorem get_of_apply {s t : Settings} {word : Wide} (h : s.apply word = .ok t) (p : Parameter) :
    t.get p = (p.storedBy? word).getD (s.get p) := by
  refine Eq.trans ?_ (get_perform s (.apply word) p)
  exact congrArg (get · p) (change_of_ok h).symm

theorem get_of_ofWords {words : List Wide} {s : Settings} (h : ofWords words = .ok s)
    (p : Parameter) :
    s.get p = (words.filterMap p.storedBy?).getLastD (default.get p) := by
  rw [← after_of_ofWords h, get_after, List.filterMap_map]
  rfl

/-- Words that do not name a parameter store nothing for it. -/
theorem filterMap_storedBy?_eq_nil {p : Parameter} {words : List Wide}
    (h : ∀ word ∈ words, ¬ p.NamedBy word) : words.filterMap p.storedBy? = [] := by
  rw [List.filterMap_eq_nil_iff]
  intro word hword
  rw [Option.eq_none_iff_forall_ne_some]
  intro x hx
  exact h word hword (namedBy_of_storedBy? hx)

theorem filterMap_storedBy?_filter (p : Parameter) (words : List Wide) :
    (words.filter fun word => p.NamedBy word).filterMap p.storedBy? =
      words.filterMap p.storedBy? := by
  rw [List.filterMap_filter]
  refine List.filterMap_congr fun word _ => ?_
  by_cases hp : p.NamedBy word
  · rw [if_pos (decide_eq_true hp)]
  · rw [if_neg (by simpa using hp)]
    cases hstored : p.storedBy? word with
    | none => rfl
    | some x => exact absurd (namedBy_of_storedBy? hstored) hp

/-! ## The last value -/

theorem value_of_not_named {words : List Wide} {s : Settings} (h : ofWords words = .ok s)
    {p : Parameter} (hp : ∀ word ∈ words, ¬ p.NamedBy word) : s.value p = default.value p := by
  rw [value, get_of_ofWords h, filterMap_storedBy?_eq_nil hp]
  rfl

/-- A parameter has what the last word naming it stores. -/
theorem value_of_lastNaming {words : List Wide} {s : Settings} (h : ofWords words = .ok s)
    {p : Parameter} {word : Wide} (hlast : p.LastNaming words word) :
    ∃ t, default.apply word = .ok t ∧ s.value p = t.value p := by
  obtain ⟨before, after, rfl, hp, hafter⟩ := hlast
  have hword : Acceptable word :=
    exists_ofWords_iff.1 ⟨s, h⟩ word (List.mem_append_right _ List.mem_cons_self)
  obtain ⟨x, hx⟩ := exists_storedBy? hword hp
  obtain ⟨t, ht⟩ := hword
  refine ⟨t, ht, ?_⟩
  rw [value, value, get_of_ofWords h, get_of_apply ht, List.filterMap_append,
    List.filterMap_cons_some hx, filterMap_storedBy?_eq_nil hafter, hx, List.getLastD_concat]
  rfl

/-- Words of different parameters can change places. -/
theorem ofWords_of_perm {words other : List Wide} (hperm : words.Perm other)
    (horder : ∀ p : Parameter, (words.filter fun word => p.NamedBy word) =
      other.filter fun word => p.NamedBy word) {s : Settings} (h : ofWords words = .ok s) :
    ofWords other = .ok s := by
  have hother : ∀ word ∈ other, Acceptable word := by
    intro word hword
    exact exists_ofWords_iff.1 ⟨s, h⟩ word (hperm.mem_iff.2 hword)
  obtain ⟨t, ht⟩ := exists_ofWords_iff.2 hother
  have hsame : t = s := by
    refine ext_get fun p => ?_
    rw [get_of_ofWords ht, get_of_ofWords h, ← filterMap_storedBy?_filter p words, horder p,
      filterMap_storedBy?_filter]
  rw [ht, hsame]

/-- What stood in a place is forgotten when a later word names the parameter. -/
theorem foldlM_apply_put {p : Parameter} {after : List Wide}
    (h : ∃ later ∈ after, p.NamedBy later) (s : Settings) (x : p.Carrier) :
    after.foldlM apply (s.put p x) = after.foldlM apply s := by
  -- Up to the later word other places are written, and the value can be put behind them; the later
  -- word then overwrites it.
  induction after generalizing s with
  | nil =>
    obtain ⟨later, hmem, _⟩ := h
    cases hmem
  | cons word rest ih =>
    rw [List.foldlM_cons, List.foldlM_cons, apply_eq_map_accepted, apply_eq_map_accepted]
    cases hw : Accepted.ofWord word with
    | error e => rfl
    | ok stored =>
      have hnamed := Accepted.namedBy_iff hw p
      obtain ⟨q, y⟩ := stored
      show rest.foldlM apply ((s.put p x).put q y) = rest.foldlM apply (s.put q y)
      by_cases hq : q = p
      · subst hq
        rw [put_put_self]
      · rw [put_comm s x y hq]
        refine ih ?_ (s.put q y)
        obtain ⟨later, hmem, hlater⟩ := h
        rcases List.mem_cons.1 hmem with rfl | hmem
        · exact absurd (hnamed.1 hlater).symm hq
        · exact ⟨later, hmem, hlater⟩

/-- An accepted word changes nothing if a later word names its parameter. -/
theorem ofWords_overwritten {p : Parameter} {before after : List Wide} {word : Wide}
    (hword : Acceptable word) (hp : p.NamedBy word) (hlater : ∃ later ∈ after, p.NamedBy later) :
    ofWords (before ++ after) = ofWords (before ++ word :: after) := by
  unfold ofWords
  rw [List.foldlM_append, List.foldlM_append]
  cases before.foldlM apply default with
  | error e => rfl
  | ok s =>
    show after.foldlM apply s = (word :: after).foldlM apply s
    rw [List.foldlM_cons, apply_eq_map_accepted]
    cases hw : Accepted.ofWord word with
    | error e =>
      obtain ⟨t, ht⟩ := hword
      rw [apply_eq_map_accepted, hw] at ht
      cases ht
    | ok stored =>
      have hnamed := Accepted.namedBy_iff hw p
      obtain ⟨q, y⟩ := stored
      cases hnamed.1 hp
      exact (foldlM_apply_put hlater s y).symm

/-- Words in turn succeed if each is accepted on its own, and else fail as the first refused one
does on its own. Each parameter then has what the last word naming it stores on its own. Words of
different parameters can change places, and an accepted word can go if a later one names its
parameter. -/
theorem ofWords_first_error_last_wins (words : List Wide) :
    ((∃ s, ofWords words = .ok s) ↔ ∀ word ∈ words, ∃ t, default.apply word = .ok t) ∧
    (∀ e, ofWords words = .error e ↔ ∃ before word after, words = before ++ word :: after ∧
      (∀ earlier ∈ before, ∃ t, default.apply earlier = .ok t) ∧
      default.apply word = .error e) ∧
    (∀ s, ofWords words = .ok s → ∀ p : Parameter,
      ((∀ word ∈ words, ¬ p.NamedBy word) → s.value p = default.value p) ∧
      ∀ word, p.LastNaming words word →
        ∃ t, default.apply word = .ok t ∧ s.value p = t.value p) ∧
    (∀ other : List Wide, words.Perm other →
      (∀ p : Parameter, (words.filter fun word => p.NamedBy word) =
        other.filter fun word => p.NamedBy word) →
      ∀ s, ofWords words = .ok s ↔ ofWords other = .ok s) ∧
    ∀ (before : List Wide) (word : Wide) (after : List Wide) (p : Parameter),
      words = before ++ word :: after → (∃ t, default.apply word = .ok t) → p.NamedBy word →
      (∃ later ∈ after, p.NamedBy later) → ofWords (before ++ after) = ofWords words := by
  refine ⟨exists_ofWords_iff, fun e => ?_, fun s h p => ?_, fun other hperm horder s => ?_, ?_⟩
  · rw [ofWords_eq_error_iff]
    constructor
    · rintro ⟨before, word, after, heq, hbefore, hword⟩
      exact ⟨before, word, after, heq, hbefore, hword default⟩
    · rintro ⟨before, word, after, heq, hbefore, hword⟩
      exact ⟨before, word, after, heq, hbefore, fun s => (apply_eq_error_congr s default).2 hword⟩
  · exact ⟨fun hp => value_of_not_named h hp, fun word hlast => value_of_lastNaming h hlast⟩
  · constructor
    · exact ofWords_of_perm hperm horder
    · exact ofWords_of_perm hperm.symm fun p => (horder p).symm
  · intro before word after p heq hword hp hlater
    rw [heq]
    exact ofWords_overwritten hword hp hlater

/-- Two colours with a period between: the second colour is kept, and the first can change places
with the period or go. -/
theorem ofWords_of_two_colors : ∃ s,
    ofWords ["--color=#fff", "--period=2", "--color=red"] = .ok s ∧
    (∀ word ∈ (["--color=#fff", "--period=2", "--color=red"] : List Wide),
      ¬ Parameter.shift.NamedBy word) ∧
    s.value .shift = default.value .shift ∧
    Parameter.color.LastNaming ["--color=#fff", "--period=2", "--color=red"] "--color=red" ∧
    (∃ t, default.apply "--color=red" = .ok t ∧ s.value .color = t.value .color) ∧
    (["--color=#fff", "--period=2", "--color=red"] : List Wide).Perm
      ["--period=2", "--color=#fff", "--color=red"] ∧
    ofWords ["--period=2", "--color=#fff", "--color=red"] = .ok s ∧
    ofWords ["--period=2", "--color=red"] = .ok s := by
  obtain ⟨haccepted, _, hvalue, hperm, hdelete⟩ :=
    ofWords_first_error_last_wins ["--color=#fff", "--period=2", "--color=red"]
  obtain ⟨s, hs⟩ := haccepted.2 (show ∀ word ∈ _, Acceptable word by decide +kernel)
  have hshift : ∀ word ∈ (["--color=#fff", "--period=2", "--color=red"] : List Wide),
      ¬ Parameter.shift.NamedBy word := by decide +kernel
  have hlast : Parameter.color.LastNaming ["--color=#fff", "--period=2", "--color=red"]
      "--color=red" :=
    ⟨["--color=#fff", "--period=2"], [], rfl, by decide +kernel, nofun⟩
  have hswap : (["--color=#fff", "--period=2", "--color=red"] : List Wide).Perm
      ["--period=2", "--color=#fff", "--color=red"] := .swap _ _ _
  have horder : ∀ p : Parameter,
      (["--color=#fff", "--period=2", "--color=red"] : List Wide).filter (p.NamedBy ·) =
        (["--period=2", "--color=#fff", "--color=red"] : List Wide).filter (p.NamedBy ·) := by
    intro p
    cases p <;> decide +kernel
  have hgone := hdelete [] "--color=#fff" ["--period=2", "--color=red"] .color rfl
    (show Acceptable "--color=#fff" by decide +kernel) (by decide +kernel)
    ⟨"--color=red", List.mem_cons_of_mem _ List.mem_cons_self, by decide +kernel⟩
  exact ⟨s, hs, hshift, (hvalue s hs .shift).1 hshift, hlast, (hvalue s hs .color).2 _ hlast,
    hswap, (hperm _ hswap horder s).1 hs, hgone.trans hs⟩

end Settings

end WavePlot
