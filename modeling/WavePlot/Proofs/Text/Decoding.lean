import Mathlib.Tactic.ByContra
import Mathlib.Tactic.SplitIfs
import WavePlot.Proofs.Text.WellFormed
import WavePlot.Text.Utf8

/-!
# Decoding well-formed octets

A leading octet awaits a tail that is fixed octet by octet. The octets behind it either begin with
such a tail, and the decoder goes on behind it with one more character, or they leave the way to
one after a while, and the decoder fails with what had been read until then.
-/

namespace WavePlot.Text.Utf8

/-! ## Leading octets -/

theorem lead?_two {a : Nat} (hlow : 0xC2 ≤ a) (hhigh : a ≤ 0xDF) :
    lead? a = some ⟨a - 0xC0, 0x80, 0xBF, 0⟩ := by
  rw [lead?, if_neg (by omega), if_pos (by omega)]

theorem lead?_three {a : Nat} (hlow : 0xE0 ≤ a) (hhigh : a ≤ 0xEF) :
    lead? a = some
      ⟨a - 0xE0, if a = 0xE0 then 0xA0 else 0x80, if a = 0xED then 0x9F else 0xBF, 1⟩ := by
  rw [lead?, if_neg (by omega), if_neg (by omega)]
  by_cases h0 : a = 0xE0
  · subst h0
    rfl
  by_cases hd : a = 0xED
  · subst hd
    rfl
  rw [if_neg h0, if_neg hd, if_pos (by omega), if_neg h0, if_neg hd]

theorem lead?_four {a : Nat} (hlow : 0xF0 ≤ a) (hhigh : a ≤ 0xF4) :
    lead? a = some
      ⟨a - 0xF0, if a = 0xF0 then 0x90 else 0x80, if a = 0xF4 then 0x8F else 0xBF, 2⟩ := by
  rw [lead?, if_neg (by omega), if_neg (by omega), if_neg (by omega), if_neg (by omega),
    if_neg (by omega)]
  by_cases h0 : a = 0xF0
  · subst h0
    rfl
  by_cases h4 : a = 0xF4
  · subst h4
    rfl
  rw [if_neg h0, if_pos (by omega), if_neg h0, if_neg h4]

theorem lead?_eq_none_iff {a : Nat} : lead? a = none ↔ a < 0xC2 ∨ 0xF4 < a := by
  constructor
  · intro h
    by_contra hn
    rcases Nat.lt_or_ge a 0xE0 with h2 | h2
    · rw [lead?_two (by omega) (by omega)] at h
      cases h
    rcases Nat.lt_or_ge a 0xF0 with h3 | h3
    · rw [lead?_three h2 (by omega)] at h
      cases h
    · rw [lead?_four h3 (by omega)] at h
      cases h
  · rintro (h | h)
    · rw [lead?, if_pos h]
    · rw [lead?, if_neg (by omega), if_neg (by omega), if_neg (by omega), if_neg (by omega),
        if_neg (by omega), if_neg (by omega), if_neg (by omega), if_neg (by omega)]

/-- A leading octet begins a character of two, three or four octets. -/
theorem lead?_cases {a : Nat} {lead : Lead} (h : lead? a = some lead) :
    (0xC2 ≤ a ∧ a ≤ 0xDF ∧ lead = ⟨a - 0xC0, 0x80, 0xBF, 0⟩) ∨
      (0xE0 ≤ a ∧ a ≤ 0xEF ∧ lead =
        ⟨a - 0xE0, if a = 0xE0 then 0xA0 else 0x80, if a = 0xED then 0x9F else 0xBF, 1⟩) ∨
      (0xF0 ≤ a ∧ a ≤ 0xF4 ∧ lead =
        ⟨a - 0xF0, if a = 0xF0 then 0x90 else 0x80, if a = 0xF4 then 0x8F else 0xBF, 2⟩) := by
  have hn : lead? a ≠ none := by
    rw [h]
    exact Option.some_ne_none lead
  rw [Ne, lead?_eq_none_iff] at hn
  rcases Nat.lt_or_ge a 0xE0 with h2 | h2
  · rw [lead?_two (by omega) (by omega)] at h
    exact .inl ⟨by omega, by omega, (Option.some.inj h).symm⟩
  rcases Nat.lt_or_ge a 0xF0 with h3 | h3
  · rw [lead?_three h2 (by omega)] at h
    exact .inr (.inl ⟨h2, by omega, (Option.some.inj h).symm⟩)
  · rw [lead?_four h3 (by omega)] at h
    exact .inr (.inr ⟨h3, by omega, (Option.some.inj h).symm⟩)

/-! ## The way of a character -/

/-- What is awaited behind one more octet. -/
def Lead.next (lead : Lead) (octet : UInt8) : Lead :=
  ⟨lead.bits * 64 + (octet.toNat - 0x80), 0x80, 0xBF, lead.more - 1⟩

theorem Lead.next_more (lead : Lead) (octet : UInt8) : (lead.next octet).more = lead.more - 1 := rfl

/-- The octets are what a lead awaits, and the character they complete has the code point. -/
inductive Completes : Lead → List UInt8 → Nat → Prop where
  | last {lead : Lead} {octet : UInt8} (hmore : lead.more = 0)
      (hoctet : Between lead.low lead.high octet) :
      Completes lead [octet] (lead.bits * 64 + (octet.toNat - 0x80))
  | next {lead : Lead} {octet : UInt8} {tail : List UInt8} {code : Nat} (hmore : lead.more ≠ 0)
      (hoctet : Between lead.low lead.high octet) (htail : Completes (lead.next octet) tail code) :
      Completes lead (octet :: tail) code

theorem Completes.head {lead : Lead} {octet : UInt8} {tail : List UInt8} {code : Nat}
    (h : Completes lead (octet :: tail) code) : Between lead.low lead.high octet := by
  cases h with
  | last _ hoctet => exact hoctet
  | next _ hoctet => exact hoctet

theorem Completes.last_inv {lead : Lead} {tail : List UInt8} {code : Nat}
    (h : Completes lead tail code) (hmore : lead.more = 0) :
    ∃ octet, tail = [octet] ∧ Between lead.low lead.high octet := by
  cases h with
  | last _ hoctet => exact ⟨_, rfl, hoctet⟩
  | next hne => exact absurd hmore hne

theorem Completes.next_inv {lead : Lead} {tail : List UInt8} {code : Nat}
    (h : Completes lead tail code) (hmore : lead.more ≠ 0) :
    ∃ octet rest, tail = octet :: rest ∧ Between lead.low lead.high octet ∧
      Completes (lead.next octet) rest code := by
  cases h with
  | last heq => exact absurd heq hmore
  | next _ hoctet htail => exact ⟨_, _, rfl, hoctet, htail⟩

/-- The octets `part` are on the way to what a lead awaits, and those behind them leave it. -/
inductive Stops : Lead → List UInt8 → List UInt8 → Prop where
  | ended {lead : Lead} : Stops lead [] []
  | refused {lead : Lead} {octet : UInt8} {rest : List UInt8}
      (hoctet : ¬ Between lead.low lead.high octet) : Stops lead [] (octet :: rest)
  | next {lead : Lead} {octet : UInt8} {part rest : List UInt8} (hmore : lead.more ≠ 0)
      (hoctet : Between lead.low lead.high octet) (hpart : Stops (lead.next octet) part rest) :
      Stops lead (octet :: part) rest

/-- Octets begin with what is awaited, or they leave the way to it. -/
theorem completes_or_stops (lead : Lead) (octets : List UInt8) :
    (∃ tail rest code, octets = tail ++ rest ∧ Completes lead tail code) ∨
      ∃ part rest, octets = part ++ rest ∧ Stops lead part rest := by
  induction octets generalizing lead with
  | nil => exact .inr ⟨[], [], rfl, .ended⟩
  | cons octet octets ih =>
    by_cases hoctet : Between lead.low lead.high octet
    · by_cases hmore : lead.more = 0
      · exact .inl ⟨[octet], octets, _, rfl, .last hmore hoctet⟩
      · rcases ih (lead.next octet) with ⟨tail, rest, code, rfl, h⟩ | ⟨part, rest, rfl, h⟩
        · exact .inl ⟨octet :: tail, rest, code, rfl, .next hmore hoctet h⟩
        · exact .inr ⟨octet :: part, rest, rfl, .next hmore hoctet h⟩
    · exact .inr ⟨[], octet :: octets, rfl, .refused hoctet⟩

/-- A character is its leading octet and what that one awaits. -/
theorem IsCharacter.completes {a : UInt8} {tail : List UInt8} {lead : Lead}
    (h : IsCharacter (a :: tail)) (hlead : lead? a.toNat = some lead) :
    Completes lead tail (codePoint (a :: tail)) := by
  have hcases := lead?_cases hlead
  cases h with
  | one ha => omega
  | two ha hb =>
    rw [lead?_two ha.1 ha.2] at hlead
    obtain rfl := Option.some.inj hlead
    exact .last rfl hb
  | three ha hb hc shortest noSurrogate =>
    obtain ⟨hbl, hbh⟩ := hb
    rw [lead?_three ha.1 ha.2] at hlead
    obtain rfl := Option.some.inj hlead
    -- Each of the two narrowed ends of the second octet's range is one condition on a character.
    refine .next Nat.one_ne_zero ⟨?_, ?_⟩ (.last rfl hc)
    · show ite _ _ _ ≤ _
      split_ifs with h0
      · exact shortest h0
      · exact hbl
    · show _ ≤ ite _ _ _
      split_ifs with hd
      · exact noSurrogate hd
      · exact hbh
  | four ha hb hc hd shortest notPastLast =>
    obtain ⟨hbl, hbh⟩ := hb
    rw [lead?_four ha.1 ha.2] at hlead
    obtain rfl := Option.some.inj hlead
    refine .next (Nat.succ_ne_zero 1) ⟨?_, ?_⟩ (.next Nat.one_ne_zero hc (.last rfl hd))
    · show ite _ _ _ ≤ _
      split_ifs with h0
      · exact shortest h0
      · exact hbl
    · show _ ≤ ite _ _ _
      split_ifs with h4
      · exact notPastLast h4
      · exact hbh

/-- A character is one ASCII octet, or a leading octet and what that one awaits. -/
theorem IsCharacter.cons_cases {a : UInt8} {tail : List UInt8} (h : IsCharacter (a :: tail)) :
    a.toNat ≤ 0x7F ∧ tail = [] ∨
      ∃ lead, lead? a.toNat = some lead ∧ Completes lead tail (codePoint (a :: tail)) := by
  cases hlead : lead? a.toNat with
  | some lead => exact .inr ⟨lead, rfl, h.completes hlead⟩
  | none =>
    rw [lead?_eq_none_iff] at hlead
    cases h with
    | one ha => exact .inl ⟨ha, rfl⟩
    | two ha => exact absurd ha (by unfold Between; omega)
    | three ha => exact absurd ha (by unfold Between; omega)
    | four ha => exact absurd ha (by unfold Between; omega)

/-- A leading octet with what it awaits is a character. -/
theorem Completes.isCharacter {a : UInt8} {tail : List UInt8} {lead : Lead} {code : Nat}
    (h : Completes lead tail code) (hlead : lead? a.toNat = some lead) :
    IsCharacter (a :: tail) := by
  rcases lead?_cases hlead with ⟨hl, hh, rfl⟩ | ⟨hl, hh, rfl⟩ | ⟨hl, hh, rfl⟩
  · obtain ⟨b, rfl, hb⟩ := h.last_inv rfl
    exact .two ⟨hl, hh⟩ hb
  · obtain ⟨b, _, rfl, ⟨hbl, hbh⟩, h⟩ := h.next_inv Nat.one_ne_zero
    obtain ⟨c, rfl, hc⟩ := h.last_inv rfl
    dsimp only at hbl hbh
    refine .three ⟨hl, hh⟩ ⟨?_, ?_⟩ hc (fun h0 => ?_) (fun hd => ?_)
    · split_ifs at hbl <;> omega
    · split_ifs at hbh <;> omega
    · rwa [if_pos h0] at hbl
    · rwa [if_pos hd] at hbh
  · obtain ⟨b, _, rfl, ⟨hbl, hbh⟩, h⟩ := h.next_inv (Nat.succ_ne_zero 1)
    obtain ⟨c, _, rfl, hc, h⟩ := h.next_inv Nat.one_ne_zero
    obtain ⟨d, rfl, hd⟩ := h.last_inv rfl
    dsimp only at hbl hbh
    refine .four ⟨hl, hh⟩ ⟨?_, ?_⟩ hc hd (fun h0 => ?_) (fun h4 => ?_)
    · split_ifs at hbl <;> omega
    · split_ifs at hbh <;> omega
    · rwa [if_pos h0] at hbl
    · rwa [if_pos h4] at hbh

/-! ## Decoding -/

theorem decodeFrom_ascii {a : UInt8} (ha : a.toNat < 0x80) (position : Nat) (rest : List UInt8) :
    decodeFrom position none (a :: rest) =
      (decodeFrom (position + 1) none rest).map (Char.ofNat a.toNat :: ·) := by
  rw [decodeFrom, if_pos ha]

theorem decodeFrom_lead {a : UInt8} {lead : Lead} (hlead : lead? a.toNat = some lead)
    (position : Nat) (rest : List UInt8) :
    decodeFrom position none (a :: rest) =
      decodeFrom (position + 1) (some ⟨position, 1, a, lead⟩) rest := by
  have ha := lead?_cases hlead
  rw [decodeFrom, if_neg (by omega), hlead]

section Pending

variable (position start width : Nat) (first : UInt8)

theorem decodeFrom_refused {lead : Lead} {octet : UInt8}
    (hoctet : ¬ Between lead.low lead.high octet) (rest : List UInt8) :
    decodeFrom position (some ⟨start, width, first, lead⟩) (octet :: rest) =
      .error ⟨start, width, first, .invalidContinuation⟩ := by
  have hout : ¬ (lead.low ≤ octet.toNat && octet.toNat ≤ lead.high) = true := by
    simpa [Between] using hoctet
  rw [decodeFrom, if_neg hout]
  rfl

theorem decodeFrom_last {lead : Lead} {octet : UInt8} (hmore : lead.more = 0)
    (hoctet : Between lead.low lead.high octet) (rest : List UInt8) :
    decodeFrom position (some ⟨start, width, first, lead⟩) (octet :: rest) =
      (decodeFrom (position + 1) none rest).map
        (Char.ofNat (lead.bits * 64 + (octet.toNat - 0x80)) :: ·) := by
  have hin : (lead.low ≤ octet.toNat && octet.toNat ≤ lead.high) = true := by
    simpa [Between] using hoctet
  rw [decodeFrom, if_pos hin, hmore]

theorem decodeFrom_next {lead : Lead} {octet : UInt8} (hmore : lead.more ≠ 0)
    (hoctet : Between lead.low lead.high octet) (rest : List UInt8) :
    decodeFrom position (some ⟨start, width, first, lead⟩) (octet :: rest) =
      decodeFrom (position + 1) (some ⟨start, width + 1, first, lead.next octet⟩) rest := by
  have hin : (lead.low ≤ octet.toNat && octet.toNat ≤ lead.high) = true := by
    simpa [Between] using hoctet
  obtain ⟨bits, low, high, more⟩ := lead
  obtain ⟨more, rfl⟩ := Nat.exists_eq_succ_of_ne_zero hmore
  rw [decodeFrom, if_pos hin]
  rfl

/-- Behind what is awaited the decoder goes on with one more character. -/
theorem decodeFrom_of_completes {lead : Lead} {tail : List UInt8} {code : Nat}
    (h : Completes lead tail code) (rest : List UInt8) :
    decodeFrom position (some ⟨start, width, first, lead⟩) (tail ++ rest) =
      (decodeFrom (position + tail.length) none rest).map (Char.ofNat code :: ·) := by
  induction h generalizing position width with
  | last hmore hoctet => exact decodeFrom_last position start width first hmore hoctet rest
  | @next lead octet tail code hmore hoctet htail ih =>
    rw [List.cons_append, decodeFrom_next position start width first hmore hoctet, ih,
      List.length_cons, Nat.add_assoc, Nat.add_comm 1]

/-- Where octets leave the way of a character, the decoder names those that were on it. -/
theorem decodeFrom_of_stops {lead : Lead} {part rest : List UInt8} (h : Stops lead part rest) :
    decodeFrom position (some ⟨start, width, first, lead⟩) (part ++ rest) =
      .error ⟨start, width + part.length, first,
        if rest = [] then .unexpectedEnd else .invalidContinuation⟩ := by
  induction h generalizing position width with
  | ended => rfl
  | @refused lead octet rest hoctet =>
    rw [if_neg (List.cons_ne_nil octet rest)]
    exact decodeFrom_refused position start width first hoctet rest
  | @next lead octet part rest hmore hoctet hpart ih =>
    rw [List.cons_append, decodeFrom_next position start width first hmore hoctet, ih,
      List.length_cons, Nat.add_assoc, Nat.add_comm 1]

end Pending

/-- Behind the octets of a character the decoder goes on with the one they stand for. -/
theorem decodeFrom_character {seq : List UInt8} (h : IsCharacter seq) (position : Nat)
    (rest : List UInt8) :
    decodeFrom position none (seq ++ rest) =
      (decodeFrom (position + seq.length) none rest).map (Char.ofNat (codePoint seq) :: ·) := by
  obtain ⟨a, tail, rfl⟩ := List.exists_cons_of_ne_nil h.ne_nil
  rcases h.cons_cases with ⟨ha, rfl⟩ | ⟨lead, hlead, htail⟩
  · exact decodeFrom_ascii (Nat.lt_succ_of_le ha) position rest
  · rw [List.cons_append, decodeFrom_lead hlead, decodeFrom_of_completes _ _ _ _ htail,
      List.length_cons, Nat.add_assoc, Nat.add_comm 1]

/-- Decoding goes on behind the encoding of a text as from its end. -/
theorem decodeFrom_encode (text : List Char) (position : Nat) (rest : List UInt8) :
    decodeFrom position none (encode text ++ rest) =
      (decodeFrom (position + (encode text).length) none rest).map (text ++ ·) := by
  induction text generalizing position with
  | nil =>
    show decodeFrom position none rest = (decodeFrom position none rest).map ([] ++ ·)
    cases decodeFrom position none rest <;> rfl
  | cons c text ih =>
    rw [encode_cons, List.append_assoc, decodeFrom_character (encodeChar_spec c).1, ih,
      (encodeChar_spec c).2, Char.ofNat_toNat, List.length_append, Nat.add_assoc]
    cases decodeFrom (position + _) none rest <;> rfl

/-- A text is decoded from its encoding. -/
theorem decode_encode (text : List Char) : decode (encode text) = .ok text := by
  have h := decodeFrom_encode text 0 []
  rw [List.append_nil] at h
  rw [decode, h]
  show Except.ok (text ++ []) = .ok text
  rw [List.append_nil]

/-- Two texts of one encoding are the same. -/
theorem encode_injective {text other : List Char} (h : encode text = encode other) :
    text = other := by
  have hdecode := decode_encode text
  rw [h, decode_encode] at hdecode
  exact (Except.ok.inj hdecode).symm

/-- A text begins with a character if its encoding begins with the one of the character. -/
theorem head?_eq_some_iff_encodeChar_prefix {c : Char} {text : List Char} :
    text.head? = some c ↔ String.utf8EncodeChar c <+: encode text := by
  constructor
  · intro h
    obtain ⟨rest, rfl⟩ := List.head?_eq_some_iff.1 h
    rw [encode_cons]
    exact List.prefix_append _ _
  · intro h
    have hc := (encodeChar_spec c).1
    cases text with
    | nil => exact absurd (List.prefix_nil.1 h) hc.ne_nil
    | cons d rest =>
      rw [encode_cons] at h
      have hseq := hc.eq_of_prefix (encodeChar_spec d).1 h (List.prefix_append _ _)
      have hsame : encode [c] = encode [d] := by rw [encode_cons, encode_cons, hseq]
      rw [List.head?_cons, (List.cons.inj (encode_injective hsame)).1]

end WavePlot.Text.Utf8
