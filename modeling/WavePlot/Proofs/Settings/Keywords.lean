import Mathlib.Data.List.Nodup
import WavePlot.Proofs.Settings.LastWins
import WavePlot.Proofs.Settings.RoundTrip

/-!
# Keywords as assignments

Keywords for distinct parameters are assignments that are made in the order of the parameters,
however they are given. An assignment is refused or not by itself and writes one place, so the order
matters for nothing but which of several refusals is reported. A keyword that no parameter has is
found before any of them.
-/

namespace WavePlot

theorem Parameter.nodup_all : all.Nodup := by decide

namespace Assignment

/-- The keyword that asks for the assignment. -/
def keyword (a : Assignment) : Wide × Value := (a.parameter.key, a.value)

/-- Why the assignment is refused, if it is. -/
def refusal? (a : Assignment) : Option SettingError :=
  match a.parameter.accept a.value with
  | .error e => some e
  | .ok _ => none

/-- The assignment that keywords ask for a parameter. -/
def given? (keywords : List (Wide × Value)) (p : Parameter) : Option Assignment :=
  (keywords.lookup ↑p.key).map (⟨p, ·⟩)

end Assignment

/-- The refusal of a keyword that no parameter has, by its name. -/
inductive SettingError.NamesKeyword (key : Wide) : SettingError → Prop where
  | unknown (h : key ≠ Settings.ownKeyword) : NamesKeyword key (.unknownKeyword key)
  | taken (h : key = Settings.ownKeyword) : NamesKeyword key (.takenKeyword key)

namespace Settings

open Assignment (keyword refusal? given?)

variable {s t : Settings} {as order : List Assignment} {e : SettingError}

/-- The settings after assignments in turn, the first refused one ending the run. -/
def assignAll (s : Settings) (as : List Assignment) : Except SettingError Settings :=
  as.foldlM (fun t a => t.assign a.parameter a.value) s

/-- The settings after an assignment that may be refused. -/
def write (s : Settings) (a : Assignment) : Settings :=
  (s.perform (.set a.parameter a.value)).2

/-! ## Assignments in turn -/

theorem assign_eq_error_iff (s : Settings) (a : Assignment) (e : SettingError) :
    s.assign a.parameter a.value = .error e ↔ a.refusal? = some e := by
  unfold assign refusal?
  cases a.parameter.accept a.value <;> simp [Except.map]

theorem exists_assign_iff {a : Assignment} :
    (∃ t, s.assign a.parameter a.value = .ok t) ↔ a.refusal? = none := by
  unfold assign refusal?
  cases a.parameter.accept a.value <;> simp [Except.map]

theorem assign_of_refusal?_eq_none {a : Assignment} (h : a.refusal? = none) :
    s.assign a.parameter a.value = .ok (s.write a) := by
  obtain ⟨t, ht⟩ := exists_assign_iff.2 h
  rw [ht]
  exact congrArg Except.ok (change_of_ok ht).symm

theorem assignAll_eq_error_iff :
    s.assignAll as = .error e ↔ as.findSome? refusal? = some e :=
  foldlM_eq_error_iff assign_eq_error_iff

theorem exists_assignAll_iff :
    (∃ t, s.assignAll as = .ok t) ↔ ∀ a ∈ as, a.refusal? = none :=
  exists_foldlM_eq_ok_iff assign_eq_error_iff

/-- Assignments of which none is refused are all written. -/
theorem assignAll_eq_foldl (h : ∀ a ∈ as, a.refusal? = none) :
    s.assignAll as = .ok (as.foldl write s) :=
  foldlM_eq_foldl (fun _ a ha => assign_of_refusal?_eq_none (h a ha)) s

theorem write_eq (s : Settings) (a : Assignment) :
    s.write a =
      match a.parameter.accept a.value with
      | .ok x => s.put a.parameter x
      | .error _ => s := by
  show (s.change ((a.parameter.accept a.value).map (s.put a.parameter))).2 = _
  cases a.parameter.accept a.value <;> rfl

/-- Assignments to two parameters do not meet. -/
theorem write_comm (s : Settings) {a b : Assignment} (h : b.parameter ≠ a.parameter) :
    (s.write a).write b = (s.write b).write a := by
  simp only [write_eq]
  cases a.parameter.accept a.value with
  | error e => rfl
  | ok x =>
    cases b.parameter.accept b.value with
    | error e => rfl
    | ok y => exact put_comm s x y h

/-- Assignments to distinct parameters that are all accepted lead to the same settings in any
order. -/
theorem assignAll_of_perm (hdistinct : (as.map Assignment.parameter).Nodup)
    (hperm : as.Perm order) (h : s.assignAll as = .ok t) : s.assignAll order = .ok t := by
  have haccepted : ∀ a ∈ as, a.refusal? = none := exists_assignAll_iff.1 ⟨t, h⟩
  have hcommute : ∀ a ∈ as, ∀ b ∈ as, ∀ u : Settings,
      (u.write a).write b = (u.write b).write a := by
    intro a ha b hb u
    by_cases hsame : b.parameter = a.parameter
    · rw [List.inj_on_of_nodup_map hdistinct hb ha hsame]
    · exact write_comm u hsame
  rw [assignAll_eq_foldl haccepted] at h
  rw [assignAll_eq_foldl fun a ha => haccepted a (hperm.mem_iff.2 ha), ← h,
    hperm.foldl_eq' hcommute]

/-! ## The order of the parameters -/

/-- The assignments that keywords ask for, in the order of the parameters. -/
def inOrder (keywords : List (Wide × Value)) : List Assignment :=
  Parameter.all.filterMap (given? keywords)

theorem lookup_keyword_eq_some_iff (hdistinct : (as.map Assignment.parameter).Nodup)
    {p : Parameter} {v : Value} :
    (as.map keyword).lookup ↑p.key = some v ↔ ⟨p, v⟩ ∈ as := by
  induction as with
  | nil => exact iff_of_false nofun nofun
  | cons a rest ih =>
    obtain ⟨q, w⟩ := a
    rw [List.map_cons, List.nodup_cons] at hdistinct
    obtain ⟨hnew, hrest⟩ := hdistinct
    rw [List.map_cons, keyword, List.lookup_cons, List.mem_cons]
    by_cases hp : p = q
    · subst hp
      have hgone : ⟨p, v⟩ ∉ rest := fun hmem => hnew (List.mem_map.2 ⟨_, hmem, rfl⟩)
      rw [beq_self_eq_true]
      simp [hgone, eq_comm]
    · have hkey : ((p.key : Wide) == q.key) = false :=
        beq_false_of_ne fun h => hp (Parameter.key_injective h)
      rw [hkey, ih hrest]
      simp [hp]

theorem given?_eq_some_iff (hdistinct : (as.map Assignment.parameter).Nodup) {p : Parameter}
    {a : Assignment} : given? (as.map keyword) p = some a ↔ a.parameter = p ∧ a ∈ as := by
  rw [given?, Option.map_eq_some_iff]
  constructor
  · rintro ⟨v, hv, rfl⟩
    exact ⟨rfl, (lookup_keyword_eq_some_iff hdistinct).1 hv⟩
  · rintro ⟨rfl, hmem⟩
    exact ⟨a.value, (lookup_keyword_eq_some_iff hdistinct).2 hmem, rfl⟩

theorem inOrder_perm (hdistinct : (as.map Assignment.parameter).Nodup) :
    (inOrder (as.map keyword)).Perm as := by
  have horder : (inOrder (as.map keyword)).Nodup := by
    refine Parameter.nodup_all.filterMap ?_
    intro p q a hp hq
    rw [← ((given?_eq_some_iff hdistinct).1 hp).1, ((given?_eq_some_iff hdistinct).1 hq).1]
  refine (List.perm_ext_iff_of_nodup horder hdistinct.of_map).2 fun a => ?_
  rw [inOrder, List.mem_filterMap]
  constructor
  · rintro ⟨p, _, hp⟩
    exact ((given?_eq_some_iff hdistinct).1 hp).2
  · intro hmem
    exact ⟨a.parameter, a.parameter.mem_all, (given?_eq_some_iff hdistinct).2 ⟨rfl, hmem⟩⟩

theorem findSome?_keywordError?_map (as : List Assignment) :
    ((as.map keyword).findSome? fun given => keywordError? given.1) = none := by
  rw [List.findSome?_eq_none_iff]
  intro given hmem
  obtain ⟨a, _, rfl⟩ := List.mem_map.1 hmem
  exact a.parameter.keywordError?_key

/-- Keywords for parameters are assignments in the order of the parameters. -/
theorem ofKeywords_map_keyword (as : List Assignment) :
    ofKeywords (as.map keyword) = default.assignAll (inOrder (as.map keyword)) := by
  rw [ofKeywords, findSome?_keywordError?_map, assignAll, inOrder, List.foldlM_filterMap]
  refine congrArg (Parameter.all.foldlM · default) (funext fun s => funext fun p => ?_)
  unfold given?
  cases (as.map keyword).lookup ↑p.key <;> rfl

/-- The value that keywords offer a parameter, its default value if they offer none. -/
def offered (keywords : List (Wide × Value)) (p : Parameter) : Value :=
  (keywords.lookup ↑p.key).getD (default.value p)

/-- Offering the default value where nothing is given comes to the same as leaving it in place. -/
theorem foldlM_assign_offered (keywords : List (Wide × Value)) {ps : List Parameter}
    (hps : ps.Nodup) (hsame : ∀ p, p ∉ ps → s.get p = t.get p)
    (hdefault : ∀ p ∈ ps, t.get p = default.get p) :
    ps.foldlM (fun u p => u.assign p (offered keywords p)) s =
      ps.foldlM (fun u p =>
        match keywords.lookup ↑p.key with
        | some v => u.assign p v
        | none => .ok u) t := by
  -- On the parameters that are still to come the right side has its defaults; on all others the two
  -- sides agree.
  induction ps generalizing s t with
  | nil => exact congrArg Except.ok (ext_get fun p => hsame p List.not_mem_nil)
  | cons p rest ih =>
    obtain ⟨hp, hrest⟩ := List.nodup_cons.1 hps
    have hlater : ∀ q ∈ rest, q ≠ p := fun q hq heq => hp (heq ▸ hq)
    have hother : ∀ {q}, q ∉ rest → q ≠ p → s.get q = t.get q := fun hq hne =>
      hsame _ fun hmem => (List.mem_cons.1 hmem).elim hne hq
    rw [List.foldlM_cons, List.foldlM_cons, offered]
    cases keywords.lookup ↑p.key with
    | none =>
      rw [Option.getD_none, assign_value normal_default s p]
      refine ih hrest (fun q hq => ?_) fun q hq => hdefault q (List.mem_cons_of_mem p hq)
      by_cases hne : q = p
      · subst hne
        rw [get_put_self, hdefault q List.mem_cons_self]
      · rw [get_put_of_ne s _ hne, hother hq hne]
    | some v =>
      rw [Option.getD_some]
      dsimp only
      rw [assign, assign]
      cases p.accept v with
      | error e => rfl
      | ok x =>
        refine ih hrest (fun q hq => ?_) fun q hq => ?_
        · by_cases hne : q = p
          · subst hne
            rw [get_put_self, get_put_self]
          · rw [get_put_of_ne s x hne, get_put_of_ne t x hne, hother hq hne]
        · rw [get_put_of_ne t x (hlater q hq), hdefault q (List.mem_cons_of_mem p hq)]

/-- With keywords for parameters only, all parameters are assigned in their order, whatever was in
their places, the ones that are not named to their default values. -/
theorem ofKeywords_eq_assign_all (as : List Assignment) (s : Settings) :
    ofKeywords (as.map keyword) =
      Parameter.all.foldlM (fun t p => t.assign p (offered (as.map keyword) p)) s := by
  rw [ofKeywords, findSome?_keywordError?_map]
  exact (foldlM_assign_offered _ Parameter.nodup_all (fun p hp => absurd p.mem_all hp)
    fun _ _ => rfl).symm

/-! ## The outcome -/

theorem findSome?_inOrder (keywords : List (Wide × Value)) :
    (inOrder keywords).findSome? refusal? =
      Parameter.all.findSome? fun p => (given? keywords p).bind refusal? := by
  rw [← List.head?_filterMap, ← List.head?_filterMap, inOrder, List.filterMap_filterMap]

/-- The refusal of keywords is that of the first refused assignment in the order of the
parameters. -/
theorem ofKeywords_eq_error_iff (hdistinct : (as.map Assignment.parameter).Nodup) :
    ofKeywords (as.map keyword) = .error e ↔ ∃ before a after,
      Parameter.all = before ++ a.parameter :: after ∧ a ∈ as ∧ a.refusal? = some e ∧
      ∀ b ∈ as, b.parameter ∈ before → b.refusal? = none := by
  rw [ofKeywords_map_keyword, assignAll_eq_error_iff, findSome?_inOrder,
    List.findSome?_eq_some_iff]
  constructor
  · rintro ⟨before, p, after, hall, hrefused, hbefore⟩
    obtain ⟨a, ha, hrefusal⟩ := Option.bind_eq_some_iff.1 hrefused
    obtain ⟨rfl, hmem⟩ := (given?_eq_some_iff hdistinct).1 ha
    refine ⟨before, a, after, hall, hmem, hrefusal, fun b hb hp => ?_⟩
    have hnone := hbefore b.parameter hp
    rwa [(given?_eq_some_iff hdistinct).2 ⟨rfl, hb⟩, Option.bind_some] at hnone
  · rintro ⟨before, a, after, hall, hmem, hrefusal, hbefore⟩
    refine ⟨before, a.parameter, after, hall, ?_, fun p hp => ?_⟩
    · rw [(given?_eq_some_iff hdistinct).2 ⟨rfl, hmem⟩, Option.bind_some, hrefusal]
    · cases hgiven : given? (as.map keyword) p with
      | none => rfl
      | some b =>
        obtain ⟨rfl, hb⟩ := (given?_eq_some_iff hdistinct).1 hgiven
        exact hbefore b hb hp

/-- The first keyword that no parameter has is refused by its name, whatever stands with it. -/
theorem ofKeywords_of_no_key (as : List Assignment) {key : Wide}
    (hkey : ∀ p : Parameter, p.key ≠ key) (v : Value) (rest : List (Wide × Value)) :
    ∃ e, ofKeywords (as.map keyword ++ (key, v) :: rest) = .error e ∧ e.NamesKeyword key := by
  have hnone : Parameter.ofKey? key = none := by
    rw [Parameter.ofKey?, List.find?_eq_none]
    intro p _ hp
    exact hkey p (of_decide_eq_true hp)
  rw [ofKeywords, List.findSome?_append, findSome?_keywordError?_map, Option.none_or,
    List.findSome?_cons]
  dsimp only
  unfold keywordError?
  by_cases hown : key = ownKeyword
  · rw [if_pos hown]
    exact ⟨_, rfl, .taken hown⟩
  · rw [if_neg hown, hnone]
    exact ⟨_, rfl, .unknown hown⟩

/-- Keywords for distinct parameters succeed if each assignment is accepted by the default settings,
and then lead to the settings after these assignments in any order. Otherwise they fail as the first
refused one in the order of the parameters does. The order in which they are given is of no account,
and leaving a parameter out is assigning its default value. A keyword that no parameter has is
refused before any value. -/
theorem ofKeywords_first_error_any_order {as : List Assignment}
    (hdistinct : (as.map Assignment.parameter).Nodup) :
    ((∃ s, ofKeywords (as.map keyword) = .ok s) ↔
      ∀ a ∈ as, ∃ t, default.assign a.parameter a.value = .ok t) ∧
    (∀ s, ofKeywords (as.map keyword) = .ok s →
      ∀ order : List Assignment, as.Perm order → default.assignAll order = .ok s) ∧
    (∀ e, ofKeywords (as.map keyword) = .error e ↔ ∃ before a after,
      Parameter.all = before ++ a.parameter :: after ∧ a ∈ as ∧
      default.assign a.parameter a.value = .error e ∧
      ∀ b ∈ as, b.parameter ∈ before → ∃ t, default.assign b.parameter b.value = .ok t) ∧
    (∀ order : List Assignment, as.Perm order →
      ofKeywords (order.map keyword) = ofKeywords (as.map keyword)) ∧
    (∀ s, ofKeywords (as.map keyword) =
      Parameter.all.foldlM (fun t p => t.assign p (offered (as.map keyword) p)) s) ∧
    ∀ (key : Wide) (v : Value) (rest : List (Wide × Value)),
      (∀ p : Parameter, p.key ≠ key) →
      ∃ e, ofKeywords (as.map keyword ++ (key, v) :: rest) = .error e ∧ e.NamesKeyword key := by
  have hperm := inOrder_perm hdistinct
  have hinOrder := (hperm.map Assignment.parameter).nodup_iff.2 hdistinct
  simp only [exists_assign_iff, assign_eq_error_iff]
  refine ⟨?accepted, ?state, fun e => ofKeywords_eq_error_iff hdistinct, ?given,
    ofKeywords_eq_assign_all as, fun key v rest hkey => ofKeywords_of_no_key as hkey v rest⟩
  case accepted =>
    rw [ofKeywords_map_keyword, exists_assignAll_iff]
    exact ⟨fun h a ha => h a (hperm.mem_iff.2 ha), fun h a ha => h a (hperm.mem_iff.1 ha)⟩
  case state =>
    intro s h order horder
    rw [ofKeywords_map_keyword] at h
    exact assignAll_of_perm hinOrder (hperm.trans horder) h
  case given =>
    intro order horder
    have hother := (horder.map Assignment.parameter).nodup_iff.1 hdistinct
    have hgiven : ∀ p, given? (order.map keyword) p = given? (as.map keyword) p := by
      intro p
      refine Option.ext fun a => ?_
      rw [given?_eq_some_iff hother, given?_eq_some_iff hdistinct, horder.mem_iff]
    rw [ofKeywords_map_keyword, ofKeywords_map_keyword, inOrder, inOrder, funext hgiven]

/-- A colour and a period in either order; a line width that is refused and given before a period
that is refused too; a keyword without a parameter behind a refused value. -/
theorem ofKeywords_of_two_refusals :
    (∃ s, ofKeywords ([⟨.color, .text "#1bc"⟩, ⟨.period, .integer 2⟩].map keyword) = .ok s ∧
      default.assignAll [⟨.period, .integer 2⟩, ⟨.color, .text "#1bc"⟩] = .ok s) ∧
    ofKeywords ([⟨.lineWidth, .integer 0⟩, ⟨.period, .absent⟩].map keyword) =
      .error (.notNumber "period" .absent) ∧
    ∃ e, ofKeywords ([("period", .absent), ("self", .absent), ("colour", .text "red")]) =
      .error e ∧ e.NamesKeyword "self" := by
  refine ⟨?_, ?_, ?_⟩
  · obtain ⟨haccepted, hstate, _⟩ := @ofKeywords_first_error_any_order
      [⟨.color, .text "#1bc"⟩, ⟨.period, .integer 2⟩] (by decide)
    obtain ⟨s, hs⟩ := haccepted.2 (by
      simp only [exists_assign_iff]
      decide +kernel)
    exact ⟨s, hs, hstate s hs _ (.swap _ _ [])⟩
  · have hrefused := (@ofKeywords_first_error_any_order
      [⟨.lineWidth, .integer 0⟩, ⟨.period, .absent⟩] (by decide)).2.2.1
    refine (hrefused _).2 ⟨[], ⟨.period, .absent⟩, _, rfl, by simp, rfl, nofun⟩
  · have hunknown := (@ofKeywords_first_error_any_order [⟨.period, .absent⟩] (by decide)).2.2.2.2.2
    exact hunknown "self" .absent [("colour", .text "red")] (by intro p; cases p <;> decide)

end Settings

end WavePlot
