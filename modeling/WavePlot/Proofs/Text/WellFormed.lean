/-!
# Well-formed UTF-8

The octets of one character: a leading octet that says how many continuations follow, where the
shortest form is required and surrogates and code points past U+10FFFF are left out. A sequence of
octets is well formed if it divides into characters. These are exactly the encodings of texts, and
since no character begins another one, all octets have one longest well-formed start.
-/

namespace WavePlot.Text.Utf8

/-! ## Characters -/

def Between (low high : Nat) (octet : UInt8) : Prop := low ≤ octet.toNat ∧ octet.toNat ≤ high

/-- The octet may stand behind the first one of a character. -/
abbrev Continuation (octet : UInt8) : Prop := Between 0x80 0xBF octet

/-- The octets of one character. -/
inductive IsCharacter : List UInt8 → Prop where
  | one {a : UInt8} (ha : a.toNat ≤ 0x7F) : IsCharacter [a]
  | two {a b : UInt8} (ha : Between 0xC2 0xDF a) (hb : Continuation b) : IsCharacter [a, b]
  | three {a b c : UInt8} (ha : Between 0xE0 0xEF a) (hb : Continuation b) (hc : Continuation c)
      (shortest : a.toNat = 0xE0 → 0xA0 ≤ b.toNat)
      (noSurrogate : a.toNat = 0xED → b.toNat ≤ 0x9F) : IsCharacter [a, b, c]
  | four {a b c d : UInt8} (ha : Between 0xF0 0xF4 a) (hb : Continuation b) (hc : Continuation c)
      (hd : Continuation d) (shortest : a.toNat = 0xF0 → 0x90 ≤ b.toNat)
      (notPastLast : a.toNat = 0xF4 → b.toNat ≤ 0x8F) : IsCharacter [a, b, c, d]

/-- The octets divide into characters. -/
inductive WellFormed : List UInt8 → Prop where
  | nil : WellFormed []
  | character {seq rest : List UInt8} (hseq : IsCharacter seq) (hrest : WellFormed rest) :
      WellFormed (seq ++ rest)

/-- The octets that spell a text. -/
def encode (text : List Char) : List UInt8 := text.flatMap String.utf8EncodeChar

/-- The code point that the octets of a character stand for. -/
def codePoint : List UInt8 → Nat
  | [a] => a.toNat
  | [a, b] => (a.toNat - 0xC0) * 64 + (b.toNat - 0x80)
  | [a, b, c] => ((a.toNat - 0xE0) * 64 + (b.toNat - 0x80)) * 64 + (c.toNat - 0x80)
  | [a, b, c, d] =>
    (((a.toNat - 0xF0) * 64 + (b.toNat - 0x80)) * 64 + (c.toNat - 0x80)) * 64 + (d.toNat - 0x80)
  | _ => 0

theorem codePoint_one (a : UInt8) : codePoint [a] = a.toNat := rfl

theorem codePoint_two (a b : UInt8) :
    codePoint [a, b] = (a.toNat - 0xC0) * 64 + (b.toNat - 0x80) := rfl

theorem codePoint_three (a b c : UInt8) :
    codePoint [a, b, c] =
      ((a.toNat - 0xE0) * 64 + (b.toNat - 0x80)) * 64 + (c.toNat - 0x80) := rfl

theorem codePoint_four (a b c d : UInt8) :
    codePoint [a, b, c, d] =
      (((a.toNat - 0xF0) * 64 + (b.toNat - 0x80)) * 64 + (c.toNat - 0x80)) * 64 +
        (d.toNat - 0x80) := rfl

theorem IsCharacter.ne_nil {seq : List UInt8} (h : IsCharacter seq) : seq ≠ [] := by
  cases h <;> exact List.cons_ne_nil _ _

theorem IsCharacter.length_pos {seq : List UInt8} (h : IsCharacter seq) : 0 < seq.length :=
  List.length_pos_iff.2 h.ne_nil

/-! ## Prefixes -/

/-- How many octets the character that begins with an octet has. -/
def characterLength (first : Nat) : Nat :=
  if first ≤ 0x7F then 1 else if first ≤ 0xDF then 2 else if first ≤ 0xEF then 3 else 4

theorem IsCharacter.length_eq {a : UInt8} {tail : List UInt8} (h : IsCharacter (a :: tail)) :
    tail.length + 1 = characterLength a.toNat := by
  unfold characterLength
  cases h with
  | one ha => rw [if_pos ha]; rfl
  | two ha => obtain ⟨hl, hh⟩ := ha; rw [if_neg (by omega), if_pos hh]; rfl
  | three ha => obtain ⟨hl, hh⟩ := ha; rw [if_neg (by omega), if_neg (by omega), if_pos hh]; rfl
  | four ha =>
    obtain ⟨hl, hh⟩ := ha
    rw [if_neg (by omega), if_neg (by omega), if_neg (by omega)]
    rfl

/-- No character begins another one. -/
theorem IsCharacter.eq_of_prefix {seq other octets : List UInt8} (hseq : IsCharacter seq)
    (hother : IsCharacter other) (h : seq <+: octets) (h' : other <+: octets) : seq = other := by
  obtain ⟨a, tail, rfl⟩ := List.exists_cons_of_ne_nil hseq.ne_nil
  obtain ⟨b, tail', rfl⟩ := List.exists_cons_of_ne_nil hother.ne_nil
  obtain ⟨rest, rfl⟩ := h
  obtain rfl : b = a := (List.cons_prefix_cons.1 h').1
  have hlength : (b :: tail).length = (b :: tail').length :=
    hseq.length_eq.trans hother.length_eq.symm
  exact (List.prefix_of_prefix_length_le (List.prefix_append _ rest) h'
    (Nat.le_of_eq hlength)).eq_of_length hlength

/-- No character stands at the start of the octets. -/
def NoCharacter (octets : List UInt8) : Prop := ∀ seq, IsCharacter seq → ¬ seq <+: octets

/-- Octets divide into well-formed ones and those that begin with no character. -/
theorem exists_wellFormed_append (octets : List UInt8) :
    ∃ valid rest, octets = valid ++ rest ∧ WellFormed valid ∧ NoCharacter rest := by
  induction hn : octets.length using Nat.strongRecOn generalizing octets with
  | ind n ih =>
    by_cases h : ∃ seq, IsCharacter seq ∧ seq <+: octets
    · obtain ⟨seq, hseq, behind, rfl⟩ := h
      have hlt : behind.length < n := by
        have := hseq.length_pos
        rw [List.length_append] at hn
        omega
      obtain ⟨valid, rest, rfl, hvalid, hrest⟩ := ih _ hlt behind rfl
      exact ⟨seq ++ valid, rest, (List.append_assoc ..).symm, .character hseq hvalid, hrest⟩
    · exact ⟨[], octets, rfl, .nil, fun seq hseq hpre => h ⟨seq, hseq, hpre⟩⟩

/-- Well-formed octets before such that begin with no character are the longest ones. -/
theorem WellFormed.length_le_of_prefix {valid other rest : List UInt8} (hvalid : WellFormed valid)
    (hrest : NoCharacter rest) (hother : WellFormed other) (h : other <+: valid ++ rest) :
    other.length ≤ valid.length := by
  induction hvalid generalizing other with
  | nil =>
    cases hother with
    | nil => exact Nat.le_refl 0
    | @character seq tail hseq _ =>
      exact absurd ((List.prefix_append seq tail).trans h) (hrest seq hseq)
  | @character seq valid hseq _ ih =>
    cases hother with
    | nil => exact Nat.zero_le _
    | @character seq' other hseq' hother =>
      rw [List.append_assoc] at h
      obtain rfl := hseq'.eq_of_prefix hseq ((List.prefix_append seq' other).trans h)
        (List.prefix_append seq _)
      rw [List.length_append, List.length_append]
      exact Nat.add_le_add_left (ih hother ((List.prefix_append_right_inj seq').1 h)) _

/-! ## Encoding -/

theorem encode_cons (c : Char) (text : List Char) :
    encode (c :: text) = String.utf8EncodeChar c ++ encode text := List.flatMap_cons

theorem toNat_ofNat_of_le {n : Nat} (h : n ≤ 0xFF) : (UInt8.ofNat n).toNat = n :=
  UInt8.toNat_ofNat_of_lt' (Nat.lt_succ_of_le h)

theorem encodeChar_one {c : Char} (h : c.toNat ≤ 0x7F) :
    ∃ a, String.utf8EncodeChar c = [a] ∧ a.toNat = c.toNat :=
  ⟨_, if_pos h, toNat_ofNat_of_le (Nat.le_trans h (by decide))⟩

theorem encodeChar_two {c : Char} (hlow : 0x80 ≤ c.toNat) (hhigh : c.toNat ≤ 0x7FF) :
    ∃ a b, String.utf8EncodeChar c = [a, b] ∧ a.toNat = c.toNat / 64 % 32 + 0xC0 ∧
      b.toNat = c.toNat % 64 + 0x80 :=
  ⟨_, _, (if_neg (Nat.not_le.2 hlow)).trans (if_pos hhigh), toNat_ofNat_of_le (by omega),
    toNat_ofNat_of_le (by omega)⟩

theorem encodeChar_three {c : Char} (hlow : 0x800 ≤ c.toNat) (hhigh : c.toNat ≤ 0xFFFF) :
    ∃ a b d, String.utf8EncodeChar c = [a, b, d] ∧ a.toNat = c.toNat / 4096 % 16 + 0xE0 ∧
      b.toNat = c.toNat / 64 % 64 + 0x80 ∧ d.toNat = c.toNat % 64 + 0x80 :=
  ⟨_, _, _, (if_neg (Nat.not_le.2 (Nat.lt_of_lt_of_le (by decide) hlow))).trans
      ((if_neg (Nat.not_le.2 hlow)).trans (if_pos hhigh)),
    toNat_ofNat_of_le (by omega), toNat_ofNat_of_le (by omega), toNat_ofNat_of_le (by omega)⟩

theorem encodeChar_four {c : Char} (hlow : 0x10000 ≤ c.toNat) :
    ∃ a b d e, String.utf8EncodeChar c = [a, b, d, e] ∧ a.toNat = c.toNat / 262144 % 8 + 0xF0 ∧
      b.toNat = c.toNat / 4096 % 64 + 0x80 ∧ d.toNat = c.toNat / 64 % 64 + 0x80 ∧
      e.toNat = c.toNat % 64 + 0x80 :=
  ⟨_, _, _, _, (if_neg (Nat.not_le.2 (Nat.lt_of_lt_of_le (by decide) hlow))).trans
      ((if_neg (Nat.not_le.2 (Nat.lt_of_lt_of_le (by decide) hlow))).trans
        (if_neg (Nat.not_le.2 hlow))),
    toNat_ofNat_of_le (by omega), toNat_ofNat_of_le (by omega), toNat_ofNat_of_le (by omega),
    toNat_ofNat_of_le (by omega)⟩

theorem toNat_valid (c : Char) :
    c.toNat < 0xD800 ∨ 0xDFFF < c.toNat ∧ c.toNat < 0x110000 := by
  have h := c.valid
  simp only [UInt32.isValidChar, Nat.isValidChar] at h
  have hn : c.toNat = c.val.toNat := rfl
  omega

/-- A character is encoded as the octets of one character, and these stand for it. -/
theorem encodeChar_spec (c : Char) : IsCharacter (String.utf8EncodeChar c) ∧
    codePoint (String.utf8EncodeChar c) = c.toNat := by
  have hvalid := toNat_valid c
  rcases Nat.lt_or_ge c.toNat 0x80 with h1 | h1
  · obtain ⟨a, h, ha⟩ := encodeChar_one (c := c) (by omega)
    rw [h]
    exact ⟨.one (by omega), (codePoint_one a).trans ha⟩
  rcases Nat.lt_or_ge c.toNat 0x800 with h2 | h2
  · obtain ⟨a, b, h, ha, hb⟩ := encodeChar_two h1 (by omega)
    rw [h]
    refine ⟨.two ⟨by omega, by omega⟩ ⟨by omega, by omega⟩, ?_⟩
    rw [codePoint_two]
    omega
  rcases Nat.lt_or_ge c.toNat 0x10000 with h3 | h3
  · obtain ⟨a, b, d, h, ha, hb, hd⟩ := encodeChar_three h2 (by omega)
    rw [h]
    refine ⟨.three ⟨by omega, by omega⟩ ⟨by omega, by omega⟩ ⟨by omega, by omega⟩ (by omega)
      (by omega), ?_⟩
    rw [codePoint_three]
    omega
  · obtain ⟨a, b, d, e, h, ha, hb, hd, he⟩ := encodeChar_four h3
    rw [h]
    refine ⟨.four ⟨by omega, by omega⟩ ⟨by omega, by omega⟩ ⟨by omega, by omega⟩
      ⟨by omega, by omega⟩ (by omega) (by omega), ?_⟩
    rw [codePoint_four]
    omega

theorem toNat_charOfNat {n : Nat} (h : n < 0xD800 ∨ 0xDFFF < n ∧ n < 0x110000) :
    (Char.ofNat n).toNat = n := by
  have hvalid : n.isValidChar := by
    simp only [Nat.isValidChar]
    omega
  rw [Char.ofNat, dif_pos hvalid]
  rfl

/-- The octets of a character stand for no surrogate, and for nothing past the last code point. -/
theorem codePoint_valid {seq : List UInt8} (h : IsCharacter seq) :
    codePoint seq < 0xD800 ∨ 0xDFFF < codePoint seq ∧ codePoint seq < 0x110000 := by
  cases h with
  | one ha =>
    rw [codePoint_one]
    omega
  | two ha hb =>
    obtain ⟨hal, hah⟩ := ha
    obtain ⟨hbl, hbh⟩ := hb
    rw [codePoint_two]
    omega
  | three ha hb hc shortest noSurrogate =>
    obtain ⟨hal, hah⟩ := ha
    obtain ⟨hbl, hbh⟩ := hb
    obtain ⟨hcl, hch⟩ := hc
    rw [codePoint_three]
    omega
  | four ha hb hc hd shortest notPastLast =>
    obtain ⟨hal, hah⟩ := ha
    obtain ⟨hbl, hbh⟩ := hb
    obtain ⟨hcl, hch⟩ := hc
    obtain ⟨hdl, hdh⟩ := hd
    rw [codePoint_four]
    omega

/-- The octets of a character encode the one they stand for. -/
theorem encodeChar_codePoint {seq : List UInt8} (h : IsCharacter seq) :
    String.utf8EncodeChar (Char.ofNat (codePoint seq)) = seq := by
  have hc := toNat_charOfNat (codePoint_valid h)
  generalize Char.ofNat (codePoint seq) = char at hc ⊢
  cases h with
  | @one a ha =>
    rw [codePoint_one] at hc
    obtain ⟨a', h, ha'⟩ := encodeChar_one (c := char) (by omega)
    rw [h, UInt8.toNat_inj.1 (ha'.trans hc)]
  | @two a b ha hb =>
    obtain ⟨hal, hah⟩ := ha
    obtain ⟨hbl, hbh⟩ := hb
    rw [codePoint_two] at hc
    obtain ⟨a', b', h, ha', hb'⟩ := encodeChar_two (c := char) (by omega) (by omega)
    have ha : a'.toNat = a.toNat := by omega
    have hb : b'.toNat = b.toNat := by omega
    rw [h, UInt8.toNat_inj.1 ha, UInt8.toNat_inj.1 hb]
  | @three a b c ha hb hc' shortest noSurrogate =>
    obtain ⟨hal, hah⟩ := ha
    obtain ⟨hbl, hbh⟩ := hb
    obtain ⟨hcl, hch⟩ := hc'
    rw [codePoint_three] at hc
    obtain ⟨a', b', c', h, ha', hb', hc'⟩ := encodeChar_three (c := char) (by omega) (by omega)
    have ha : a'.toNat = a.toNat := by omega
    have hb : b'.toNat = b.toNat := by omega
    have hc : c'.toNat = c.toNat := by omega
    rw [h, UInt8.toNat_inj.1 ha, UInt8.toNat_inj.1 hb, UInt8.toNat_inj.1 hc]
  | @four a b c d ha hb hc' hd shortest notPastLast =>
    obtain ⟨hal, hah⟩ := ha
    obtain ⟨hbl, hbh⟩ := hb
    obtain ⟨hcl, hch⟩ := hc'
    obtain ⟨hdl, hdh⟩ := hd
    rw [codePoint_four] at hc
    obtain ⟨a', b', c', d', h, ha', hb', hc', hd'⟩ := encodeChar_four (c := char) (by omega)
    have ha : a'.toNat = a.toNat := by omega
    have hb : b'.toNat = b.toNat := by omega
    have hc : c'.toNat = c.toNat := by omega
    have hd : d'.toNat = d.toNat := by omega
    rw [h, UInt8.toNat_inj.1 ha, UInt8.toNat_inj.1 hb, UInt8.toNat_inj.1 hc,
      UInt8.toNat_inj.1 hd]

/-- Well-formed octets are those that spell a text. -/
theorem wellFormed_iff {octets : List UInt8} :
    WellFormed octets ↔ ∃ text, encode text = octets := by
  constructor
  · intro h
    induction h with
    | nil => exact ⟨[], rfl⟩
    | character hseq _ ih =>
      obtain ⟨text, rfl⟩ := ih
      exact ⟨Char.ofNat (codePoint _) :: text, by rw [encode_cons, encodeChar_codePoint hseq]⟩
  · rintro ⟨text, rfl⟩
    induction text with
    | nil => exact .nil
    | cons c rest ih =>
      rw [encode_cons]
      exact .character (encodeChar_spec c).1 ih

end WavePlot.Text.Utf8
