import WavePlot.Proofs.Text.Decoding

/-!
# Octets that are no text

Octets that are not well formed are reported at the end of their longest well-formed start. The
failure covers the longest start of a character that stands there, or a single octet where no
character begins.
-/

namespace WavePlot.Text.Utf8

/-- More octets can make the part well formed. -/
def ProperStart (part : List UInt8) : Prop := ∃ more, more ≠ [] ∧ WellFormed (part ++ more)

/-- The part is the beginning of a character and not all of it. -/
def Begins (part : List UInt8) : Prop := ∃ more, more ≠ [] ∧ IsCharacter (part ++ more)

/-- Where no character stands, what more octets can make well formed is part of a character. -/
theorem NoCharacter.properStart_iff {octets part : List UInt8} (h : NoCharacter octets)
    (hpart : part <+: octets) (hne : part ≠ []) : ProperStart part ↔ Begins part := by
  constructor
  · rintro ⟨more, hmore, hwell⟩
    generalize hall : part ++ more = all at hwell
    cases hwell with
    | nil => exact absurd (List.append_eq_nil_iff.1 hall).1 hne
    | @character seq rest hseq _ =>
      -- The first character ends behind the part, as none stands at its start.
      rcases List.append_eq_append_iff.1 hall with ⟨behind, rfl, hrest⟩ | ⟨behind, rfl, hrest⟩
      · refine ⟨behind, ?_, hseq⟩
        rintro rfl
        rw [List.append_nil] at hseq
        exact h part hseq hpart
      · exact absurd ((List.prefix_append seq behind).trans hpart) (h seq hseq)
  · rintro ⟨more, hmore, hseq⟩
    have hwell := WellFormed.character hseq .nil
    rw [List.append_nil] at hwell
    exact ⟨more, hmore, hwell⟩

/-! ## Octets that leave the way of a character -/

/-- Some octet is in the range of the next one. -/
def Lead.Open (lead : Lead) : Prop := lead.low ≤ lead.high ∧ lead.high ≤ 0xFF

theorem Lead.open_next (lead : Lead) (octet : UInt8) : (lead.next octet).Open :=
  ⟨by show 0x80 ≤ 0xBF; decide, by show 0xBF ≤ 0xFF; decide⟩

theorem lead?_open {a : Nat} {lead : Lead} (h : lead? a = some lead) : lead.Open := by
  rcases lead?_cases h with ⟨_, _, rfl⟩ | ⟨_, _, rfl⟩ | ⟨_, _, rfl⟩
  · exact ⟨by show 0x80 ≤ 0xBF; decide, by show 0xBF ≤ 0xFF; decide⟩
  · constructor <;> dsimp only <;> split_ifs <;> omega
  · constructor <;> dsimp only <;> split_ifs <;> omega

theorem Lead.Open.exists_octet {lead : Lead} (h : lead.Open) :
    ∃ octet, Between lead.low lead.high octet := by
  obtain ⟨hlow, hhigh⟩ := h
  refine ⟨UInt8.ofNat lead.low, ?_⟩
  rw [Between, toNat_ofNat_of_le (Nat.le_trans hlow hhigh)]
  exact ⟨Nat.le_refl _, hlow⟩

/-- There is what a lead awaits. -/
theorem exists_completes {lead : Lead} (h : lead.Open) :
    ∃ octet tail code, Completes lead (octet :: tail) code := by
  -- The induction is on how many continuations are to come behind the next octet.
  induction hmore : lead.more generalizing lead with
  | zero =>
    obtain ⟨octet, hoctet⟩ := h.exists_octet
    exact ⟨octet, [], _, .last hmore hoctet⟩
  | succ more ih =>
    obtain ⟨octet, hoctet⟩ := h.exists_octet
    have hnext : (lead.next octet).more = more := by
      rw [Lead.next_more, hmore, Nat.add_sub_cancel]
    obtain ⟨first, tail, code, htail⟩ := ih (lead.open_next octet) hnext
    exact ⟨octet, first :: tail, code, .next (by omega) hoctet htail⟩

/-- More octets bring those that are on the way of a character to its end. -/
theorem Stops.exists_completes {lead : Lead} {part rest : List UInt8} (h : Stops lead part rest)
    (hopen : lead.Open) : ∃ more code, more ≠ [] ∧ Completes lead (part ++ more) code := by
  induction h with
  | ended =>
    obtain ⟨octet, tail, code, h⟩ := Utf8.exists_completes hopen
    exact ⟨octet :: tail, code, List.cons_ne_nil _ _, h⟩
  | refused =>
    obtain ⟨octet, tail, code, h⟩ := Utf8.exists_completes hopen
    exact ⟨octet :: tail, code, List.cons_ne_nil _ _, h⟩
  | @next lead octet _ _ hmore hoctet _ ih =>
    obtain ⟨more, code, hne, h⟩ := ih (lead.open_next octet)
    exact ⟨more, code, hne, .next hmore hoctet h⟩

/-- No longer start of the octets is on the way of a character, or at its end. -/
theorem Stops.length_le {lead : Lead} {part rest : List UInt8} (h : Stops lead part rest)
    {other more : List UInt8} {code : Nat} (hother : other <+: part ++ rest)
    (hcompletes : Completes lead (other ++ more) code) : other.length ≤ part.length := by
  induction h generalizing other with
  | ended => exact hother.length_le
  | @refused lead octet rest hoctet =>
    cases other with
    | nil => exact Nat.le_refl 0
    | cons first other =>
      obtain rfl : first = octet := (List.cons_prefix_cons.1 hother).1
      exact absurd hcompletes.head hoctet
  | @next lead octet part rest hmore hoctet _ ih =>
    cases other with
    | nil => exact Nat.zero_le _
    | cons first other =>
      obtain ⟨rfl, hpre⟩ := List.cons_prefix_cons.1 hother
      obtain ⟨_, _, heq, _, htail⟩ := hcompletes.next_inv hmore
      obtain ⟨rfl, rfl⟩ := List.cons.inj heq
      exact Nat.succ_le_succ (ih hpre htail)

/-! ## What a failure says -/

/-- The failure is about octets at a position where no character stands. It covers their longest
part that more octets can make well formed, and one octet where there is no such part. -/
structure Failure.At (f : Failure) (position : Nat) (octets : List UInt8) : Prop where
  start : f.start = position
  octet : octets.head? = some f.octet
  width_pos : 1 ≤ f.width
  width_le : f.width ≤ octets.length
  covered : ProperStart (octets.take f.width) ∨
    f.width = 1 ∧ ∀ part, part ≠ [] → part <+: octets → ¬ ProperStart part
  widest : ∀ part, part <+: octets → ProperStart part → part.length ≤ f.width
  invalidStart : f.reason = .invalidStart ↔ Between 0x80 0xC1 f.octet ∨ Between 0xF5 0xFF f.octet
  unexpectedEnd : f.reason = .unexpectedEnd ↔ ProperStart octets

/-- The failure is about what stands behind the longest well-formed start of the octets. -/
def Failure.Pinpoints (f : Failure) (octets : List UInt8) : Prop :=
  ∃ valid rest, octets = valid ++ rest ∧ WellFormed valid ∧
    (∀ other, WellFormed other → other <+: octets → other.length ≤ valid.length) ∧
    f.At valid.length rest

/-- An octet that begins no character. -/
theorem at_of_lead?_eq_none {first : UInt8} {rest : List UInt8} (h : NoCharacter (first :: rest))
    (hascii : 0x7F < first.toNat) (hlead : lead? first.toNat = none) (position : Nat) :
    Failure.At ⟨position, 1, first, .invalidStart⟩ position (first :: rest) := by
  have hnone : ∀ part, part ≠ [] → part <+: first :: rest → ¬ ProperStart part := by
    intro part hne hpart hstart
    obtain ⟨a, part, rfl⟩ := List.exists_cons_of_ne_nil hne
    obtain ⟨more, _, hseq⟩ := (h.properStart_iff hpart hne).1 hstart
    obtain rfl : a = first := (List.cons_prefix_cons.1 hpart).1
    rcases IsCharacter.cons_cases hseq with ⟨ha, _⟩ | ⟨lead, ha, _⟩
    · omega
    · rw [hlead] at ha
      cases ha
  rw [lead?_eq_none_iff] at hlead
  have hlt := first.toNat_lt
  refine ⟨rfl, rfl, Nat.le_refl 1, Nat.succ_le_succ (Nat.zero_le _), .inr ⟨rfl, hnone⟩, ?_, ?_, ?_⟩
  · intro part hpart hstart
    by_cases hne : part = []
    · rw [hne]
      exact Nat.zero_le 1
    · exact absurd hstart (hnone part hne hpart)
  · exact iff_of_true rfl (by unfold Between; dsimp only; omega)
  · exact iff_of_false nofun (hnone _ (List.cons_ne_nil _ _) (List.prefix_refl _))

/-- Octets on the way of a character that is not reached. -/
theorem at_of_stops {first : UInt8} {lead : Lead} {part rest : List UInt8}
    (h : NoCharacter (first :: (part ++ rest))) (hlead : lead? first.toNat = some lead)
    (hstops : Stops lead part rest) (position : Nat) :
    Failure.At ⟨position, 1 + part.length, first,
      if rest = [] then .unexpectedEnd else .invalidContinuation⟩ position
      (first :: (part ++ rest)) := by
  have hbegun : ProperStart (first :: part) := by
    obtain ⟨more, code, hne, hmore⟩ := hstops.exists_completes (lead?_open hlead)
    exact (h.properStart_iff (List.prefix_append (first :: part) rest) (List.cons_ne_nil _ _)).2
      ⟨more, hne, hmore.isCharacter hlead⟩
  have hwidest : ∀ other, other <+: first :: (part ++ rest) → ProperStart other →
      other.length ≤ 1 + part.length := by
    intro other hpre hstart
    cases other with
    | nil => exact Nat.zero_le _
    | cons a other =>
      obtain ⟨more, _, hseq⟩ := (h.properStart_iff hpre (List.cons_ne_nil _ _)).1 hstart
      obtain ⟨rfl, hbehind⟩ := List.cons_prefix_cons.1 hpre
      have hle := hstops.length_le hbehind (IsCharacter.completes hseq hlead)
      rw [List.length_cons]
      omega
  have hcases := lead?_cases hlead
  refine ⟨rfl, rfl, Nat.le_add_right 1 _, ?_, .inl ?_, hwidest, ?_, ?_⟩
  · rw [List.length_cons, List.length_append]
    show 1 + part.length ≤ _
    omega
  · show ProperStart ((first :: (part ++ rest)).take (1 + part.length))
    rw [Nat.add_comm, List.take_succ_cons, List.take_left]
    exact hbegun
  · refine iff_of_false ?_ (by unfold Between; dsimp only; omega)
    show ¬ (if rest = [] then Reason.unexpectedEnd else _) = _
    split_ifs <;> decide
  · show (if rest = [] then Reason.unexpectedEnd else _) = _ ↔ _
    by_cases hrest : rest = []
    · subst hrest
      rw [List.append_nil]
      exact iff_of_true (if_pos rfl) hbegun
    · -- An octet was refused, so the longest part ends before it.
      rw [if_neg hrest]
      refine iff_of_false (by decide) (fun hstart => ?_)
      have hle := hwidest _ (List.prefix_refl _) hstart
      have hpos := List.length_pos_iff.2 hrest
      rw [List.length_cons, List.length_append] at hle
      omega

/-- Decoding fails where no character stands. -/
theorem decodeFrom_noCharacter {octets : List UInt8} (h : NoCharacter octets) (hne : octets ≠ [])
    (position : Nat) :
    ∃ f : Failure, decodeFrom position none octets = .error f ∧ f.At position octets := by
  obtain ⟨first, octets, rfl⟩ := List.exists_cons_of_ne_nil hne
  have hascii : 0x7F < first.toNat := by
    by_contra hle
    exact h [first] (.one (by omega)) (List.prefix_append [first] octets)
  cases hlead : lead? first.toNat with
  | none =>
    refine ⟨_, ?_, at_of_lead?_eq_none h hascii hlead position⟩
    rw [decodeFrom, if_neg (by omega), hlead]
  | some lead =>
    rcases completes_or_stops lead octets with
      ⟨tail, rest, _, rfl, htail⟩ | ⟨part, rest, rfl, hpart⟩
    · exact absurd (List.prefix_append (first :: tail) rest) (h _ (htail.isCharacter hlead))
    · refine ⟨_, ?_, at_of_stops h hlead hpart position⟩
      rw [decodeFrom_lead hlead, decodeFrom_of_stops _ _ _ _ hpart]

/-- Well-formed octets are decoded, and others fail where their longest well-formed start ends. -/
theorem decode_cases (octets : List UInt8) :
    (∃ text, encode text = octets ∧ decode octets = .ok text) ∨
      ∃ f : Failure, decode octets = .error f ∧ f.Pinpoints octets := by
  obtain ⟨valid, rest, rfl, hvalid, hrest⟩ := exists_wellFormed_append octets
  obtain ⟨text, htext⟩ := wellFormed_iff.1 hvalid
  by_cases hne : rest = []
  · subst hne
    rw [List.append_nil, ← htext]
    exact .inl ⟨text, rfl, decode_encode text⟩
  · obtain ⟨f, hf, hat⟩ := decodeFrom_noCharacter hrest hne (0 + valid.length)
    refine .inr ⟨f, ?_, valid, rest, rfl, hvalid,
      fun other hother h => hvalid.length_le_of_prefix hrest hother h, ?_⟩
    · rw [decode, ← htext, decodeFrom_encode, htext, hf]
      rfl
    · rwa [Nat.zero_add] at hat

theorem Failure.At.width_le_width {f g : Failure} {position : Nat} {octets : List UInt8}
    (hf : f.At position octets) (hg : g.At position octets) : f.width ≤ g.width := by
  rcases hf.covered with hstart | ⟨hone, -⟩
  · have hle := hg.widest _ (List.take_prefix _ _) hstart
    rwa [List.length_take, Nat.min_eq_left hf.width_le] at hle
  · rw [hone]
    exact hg.width_pos

theorem Failure.At.eq {f g : Failure} {position : Nat} {octets : List UInt8}
    (hf : f.At position octets) (hg : g.At position octets) : f = g := by
  have hstart : f.start = g.start := hf.start.trans hg.start.symm
  have hwidth : f.width = g.width :=
    Nat.le_antisymm (hf.width_le_width hg) (hg.width_le_width hf)
  have hoctet : f.octet = g.octet := Option.some.inj (hf.octet.symm.trans hg.octet)
  have hreason : f.reason = g.reason := by
    have hinvalid := hf.invalidStart
    rw [hoctet, ← hg.invalidStart] at hinvalid
    have hended := hf.unexpectedEnd.trans hg.unexpectedEnd.symm
    cases hreason : g.reason with
    | invalidStart => exact hinvalid.2 hreason
    | unexpectedEnd => exact hended.2 hreason
    | invalidContinuation =>
      rw [hreason] at hinvalid hended
      cases hreason' : f.reason with
      | invalidStart => exact (hinvalid.1 hreason').symm
      | unexpectedEnd => exact (hended.1 hreason').symm
      | invalidContinuation => rfl
  cases f
  cases g
  simp only [mk.injEq]
  exact ⟨hstart, hwidth, hoctet, hreason⟩

theorem Failure.Pinpoints.not_wellFormed {f : Failure} {octets : List UInt8}
    (h : f.Pinpoints octets) : ¬ WellFormed octets := by
  obtain ⟨valid, rest, rfl, -, hlongest, hat⟩ := h
  intro hwell
  have hle := hlongest _ hwell (List.prefix_refl _)
  rw [List.length_append] at hle
  have hpos := hat.width_pos
  have hrest := hat.width_le
  omega

/-- Only one failure pinpoints what is wrong with the octets. -/
theorem Failure.Pinpoints.eq {f g : Failure} {octets : List UInt8}
    (hf : f.Pinpoints octets) (hg : g.Pinpoints octets) : f = g := by
  obtain ⟨valid, rest, hoctets, hvalid, hlongest, hat⟩ := hf
  obtain ⟨valid', rest', hoctets', hvalid', hlongest', hat'⟩ := hg
  have hle := hlongest valid' hvalid' ⟨rest', hoctets'.symm⟩
  have hge := hlongest' valid hvalid ⟨rest, hoctets.symm⟩
  obtain ⟨rfl, rfl⟩ := List.append_inj (hoctets.symm.trans hoctets') (Nat.le_antisymm hge hle)
  exact hat.eq hat'

/-- The octets that decode to a text are its encoding. -/
theorem decode_eq_ok_iff {octets : List UInt8} {text : List Char} :
    decode octets = .ok text ↔ encode text = octets := by
  constructor
  · intro h
    rcases decode_cases octets with ⟨text', htext, hdecode⟩ | ⟨f, hdecode, -⟩
    · rw [h] at hdecode
      rwa [Except.ok.inj hdecode]
    · rw [h] at hdecode
      cases hdecode
  · rintro rfl
    exact decode_encode text

/-- A failure to decode says where and what is wrong with the octets, and is determined by it. -/
theorem decode_eq_error_iff {octets : List UInt8} {f : Failure} :
    decode octets = .error f ↔ f.Pinpoints octets := by
  rcases decode_cases octets with ⟨text, htext, hdecode⟩ | ⟨g, hdecode, hg⟩
  · rw [hdecode]
    exact iff_of_false nofun (fun h => h.not_wellFormed (wellFormed_iff.2 ⟨text, htext⟩))
  · rw [hdecode, Except.error.injEq]
    constructor
    · rintro rfl
      exact hg
    · exact hg.eq

end WavePlot.Text.Utf8
