import Mathlib.Logic.ExistsUnique
import WavePlot.Folder
import WavePlot.Proofs.Text.Encodable
import WavePlot.Proofs.Text.Newline
import WavePlot.Proofs.Text.Undecodable
import WavePlot.Template.Load

/-!
# What is loaded from a file

The octets of a template's file are either the encoding of one text, and the template is that text
with unified line ends, or loading fails and tells where the octets stop being a text.
-/

namespace WavePlot.Template

open Text Text.Utf8

theorem ofOctets_eq_ok_iff {octets : List UInt8} {s : String} :
    ofOctets octets = .ok s ↔ ∃ text, encode text = octets ∧ Unified text s.toList := by
  simp only [← decode_eq_ok_iff, unified_iff]
  rw [ofOctets]
  constructor
  · intro h
    cases hdecode : decode octets with
    | error f =>
      rw [hdecode] at h
      cases h
    | ok text =>
      rw [hdecode] at h
      refine ⟨text, rfl, ?_⟩
      rw [← Except.ok.inj h, String.toList_ofList]
  · rintro ⟨text, hdecode, hunify⟩
    rw [hdecode]
    show Except.ok (String.ofList (unifyNewlines text)) = .ok s
    rw [hunify, String.ofList_toList]

theorem ofOctets_eq_error_iff {octets : List UInt8} {f : Failure} :
    ofOctets octets = .error f ↔ f.Pinpoints octets := by
  rw [← decode_eq_error_iff, ofOctets]
  cases decode octets with
  | error g =>
    show Except.error g = Except.error f ↔ _
    rw [Except.error.injEq, Except.error.injEq]
  | ok text => exact iff_of_false nofun nofun

/-- What a path to a file has to be: without NUL, and made of characters and of surrogates that
stand for octets. -/
structure IsPath (path : Wide) : Prop where
  surrogates : ∀ place, .surrogate place ∈ path →
    0xDC80 ≤ surrogateNumber place ∧ surrogateNumber place ≤ 0xDCFF
  noNul : .char '\x00' ∉ path

theorem isPath_iff {path : Wide} :
    IsPath path ↔ nameFailure? path = none ∧ ¬ path.contains (.char '\x00') = true := by
  have htakes : nameFailure? path = none ↔ ∀ place, .surrogate place ∈ path →
      0xDC80 ≤ surrogateNumber place ∧ surrogateNumber place ≤ 0xDCFF := by
    rw [nameFailure?_eq_none_iff]
    simp only [Takes, standsForOctet, Bool.and_eq_true, decide_eq_true_eq]
  rw [htakes, List.contains_iff_mem]
  exact ⟨fun h => ⟨h.surrogates, h.noNul⟩, fun h => ⟨h.1, h.2⟩⟩

theorem isPath_ofString {path : String} (h : '\x00' ∉ path.toList) : IsPath path :=
  ⟨fun place hplace => by simp [Wide.ofString] at hplace, by rwa [Wide.char_mem_ofString]⟩

section Read

variable {read : Reader} {path : Wide} {octets : List UInt8}

theorem load_of_read (hpath : IsPath path) (hread : read path = .ok octets) :
    load read (some path) = (ofOctets octets).mapError (LoadError.undecodable path) := by
  obtain ⟨hname, hnul⟩ := isPath_iff.1 hpath
  rw [load, loadFile, hname]
  dsimp only
  rw [if_neg hnul, hread]
  dsimp only
  cases ofOctets octets <;> rfl

theorem load_eq_ok_iff (hpath : IsPath path) (hread : read path = .ok octets)
    {s : String} :
    load read (some path) = .ok s ↔ ∃ text, encode text = octets ∧ Unified text s.toList := by
  rw [← ofOctets_eq_ok_iff, load_of_read hpath hread]
  cases ofOctets octets with
  | error f => exact iff_of_false nofun nofun
  | ok s' =>
    show Except.ok s' = Except.ok s ↔ _
    rw [Except.ok.injEq, Except.ok.injEq]

theorem load_of_pinpoints (hpath : IsPath path) (hread : read path = .ok octets)
    {f : Failure} (hf : f.Pinpoints octets) :
    load read (some path) = .error (.undecodable path f) := by
  rw [load_of_read hpath hread, ofOctets_eq_error_iff.2 hf]
  rfl

end Read

/-- Loading succeeds on well-formed octets alone. The template is then the only text that they
encode with its line ends unified, and a byte order mark stays. So a text without carriage returns
is loaded from its encoding as it is, whichever of its line feeds the file has behind a carriage
return. -/
theorem load_text {read : Reader} {path : Wide} {octets : List UInt8}
    (hpath : IsPath path) (hread : read path = .ok octets) :
    ((∃ s, load read (some path) = .ok s) ↔ WellFormed octets) ∧
      (WellFormed octets → ∃! text, encode text = octets) ∧
      (∀ s, load read (some path) = .ok s ↔
        ∃ text, encode text = octets ∧ Unified text s.toList) ∧
      (∀ s, load read (some path) = .ok s → '\r' ∉ s.toList ∧
        (s.toList.head? = some '\uFEFF' ↔ [0xEF, 0xBB, 0xBF] <+: octets)) ∧
      ∀ s : String, '\r' ∉ s.toList →
        (encode s.toList = octets → load read (some path) = .ok s) ∧
        ∀ spread, SpreadEnds s.toList spread → encode spread = octets →
          load read (some path) = .ok s := by
  have hload : ∀ s, load read (some path) = .ok s ↔
      ∃ text, encode text = octets ∧ Unified text s.toList :=
    fun s => load_eq_ok_iff hpath hread
  have hspread : ∀ s : String, '\r' ∉ s.toList → ∀ spread, SpreadEnds s.toList spread →
      encode spread = octets → load read (some path) = .ok s :=
    fun s hreturn spread hs hencode => (hload s).2 ⟨spread, hencode, hs.unified hreturn⟩
  refine ⟨?_, ?_, hload, ?_, fun s hreturn => ⟨?_, hspread s hreturn⟩⟩
  · rw [wellFormed_iff]
    constructor
    · rintro ⟨s, hs⟩
      obtain ⟨text, hencode, _⟩ := (hload s).1 hs
      exact ⟨text, hencode⟩
    · rintro ⟨text, hencode⟩
      refine ⟨String.ofList (unifyNewlines text), (hload _).2 ⟨text, hencode, ?_⟩⟩
      rw [String.toList_ofList]
      exact unified_unify text
  · intro hwell
    obtain ⟨text, hencode⟩ := wellFormed_iff.1 hwell
    exact ⟨text, hencode, fun other hother => encode_injective (hother.trans hencode.symm)⟩
  · intro s hs
    obtain ⟨text, rfl, hunified⟩ := (hload s).1 hs
    have hmark : String.utf8EncodeChar '\uFEFF' = [0xEF, 0xBB, 0xBF] := by decide
    rw [hunified.head?_eq_some_iff (by decide) (by decide),
      head?_eq_some_iff_encodeChar_prefix, hmark]
    exact ⟨hunified.not_mem_return, Iff.rfl⟩
  · exact hspread s hreturn s.toList (spreadEnds_refl s.toList)

/-- A folder in which a file of the name stands alone. -/
def folderOf (name : Wide) (octets : List UInt8) : Folder := ⟨[([name], .file octets)]⟩

theorem read_folderOf (octets : List UInt8) :
    (folderOf "wave.gp" octets).read "wave.gp" = .ok octets := by rfl

/-- A byte order mark is kept, and the two line ends behind it, each written in its own way, are
unified. -/
theorem load_text_of_folder :
    IsPath "wave.gp" ∧
      (folderOf "wave.gp" [0xEF, 0xBB, 0xBF, 0x0D, 0x0A, 0x0D]).read "wave.gp" =
        .ok [0xEF, 0xBB, 0xBF, 0x0D, 0x0A, 0x0D] ∧
      load (folderOf "wave.gp" [0xEF, 0xBB, 0xBF, 0x0D, 0x0A, 0x0D]).read (some "wave.gp") =
        .ok "\uFEFF\n\n" := by
  have hpath : IsPath "wave.gp" := isPath_ofString (by decide)
  have hread := read_folderOf [0xEF, 0xBB, 0xBF, 0x0D, 0x0A, 0x0D]
  refine ⟨hpath, hread, ((load_text hpath hread).2.2.1 _).2 ⟨['\uFEFF', '\r', '\n', '\r'], ?_, ?_⟩⟩
  · decide
  · exact .other (by decide) (.pair (.alone (by decide) .nil))

/-! ## Octets that are no text -/

theorem message_inj (r r' : Reason) : r.message = r'.message ↔ r = r' := by
  refine ⟨fun h => ?_, congrArg Reason.message⟩
  cases r <;> cases r' <;> first | rfl | exact absurd h (by decide)

theorem reason_eq_invalidContinuation_iff {r : Reason} :
    r = .invalidContinuation ↔ r ≠ .invalidStart ∧ r ≠ .unexpectedEnd := by
  cases r <;> decide

/-- The octets named are a single one, by its value, or several, by their positions. -/
theorem place_of_at {f : Failure} {position : Nat} {octets : List UInt8}
    (h : f.At position octets) :
    f.place =
      if f.width = 1 then
        "byte 0x" ++ String.ofList (fixedHex 2 f.octet.toNat) ++ " in position " ++
          toString position
      else
        "bytes in position " ++ toString position ++ "-" ++ toString (position + f.width - 1) := by
  rw [Failure.place, h.start]

/-- Octets that are not well formed are never loaded. The error names the longest part, behind
their longest well-formed start, that more octets can make well formed, and tells why there is no
text. -/
theorem load_undecodable {read : Reader} {path : Wide} {octets : List UInt8}
    (hpath : IsPath path) (hread : read path = .ok octets) (hbad : ¬ WellFormed octets) :
    ∃ (valid rest : List UInt8) (f : Failure), octets = valid ++ rest ∧ WellFormed valid ∧
      (∀ other, WellFormed other → other <+: octets → other.length ≤ valid.length) ∧
      f.At valid.length rest ∧
      load read (some path) = .error (.undecodable path f) ∧
      (LoadError.undecodable path f).isMissingResource = true ∧
      (LoadError.undecodable path f).message =
        "Could not read the gnuplot template " ++ path ++ ": " ++
          ("'utf-8' codec can't decode " ++ f.place ++ ": " ++ f.reason.message : String) ∧
      (f.place =
        if f.width = 1 then
          "byte 0x" ++ String.ofList (fixedHex 2 f.octet.toNat) ++ " in position " ++
            toString valid.length
        else
          "bytes in position " ++ toString valid.length ++ "-" ++
            toString (valid.length + f.width - 1)) ∧
      (f.reason.message = "invalid start byte" ↔
        Between 0x80 0xC1 f.octet ∨ Between 0xF5 0xFF f.octet) ∧
      (f.reason.message = "unexpected end of data" ↔ ProperStart rest) ∧
      (f.reason.message = "invalid continuation byte" ↔
        ¬ (Between 0x80 0xC1 f.octet ∨ Between 0xF5 0xFF f.octet) ∧ ¬ ProperStart rest) := by
  rcases decode_cases octets with ⟨text, hencode, -⟩ | ⟨f, -, hf⟩
  · exact absurd (wellFormed_iff.2 ⟨text, hencode⟩) hbad
  have hload := load_of_pinpoints hpath hread hf
  obtain ⟨valid, rest, hoctets, hvalid, hlongest, hat⟩ := hf
  refine ⟨valid, rest, f, hoctets, hvalid, hlongest, hat, hload, rfl, rfl, place_of_at hat,
    ?_, ?_, ?_⟩
  · exact (message_inj f.reason .invalidStart).trans hat.invalidStart
  · exact (message_inj f.reason .unexpectedEnd).trans hat.unexpectedEnd
  · rw [← hat.invalidStart, ← hat.unexpectedEnd]
    exact (message_inj f.reason .invalidContinuation).trans reason_eq_invalidContinuation_iff

/-- Two octets of a character of three, with a letter behind them. -/
theorem load_undecodable_of_folder :
    IsPath "wave.gp" ∧
      (folderOf "wave.gp" [0x61, 0xE2, 0x82, 0x62]).read "wave.gp" =
        .ok [0x61, 0xE2, 0x82, 0x62] ∧
      ¬ WellFormed [0x61, 0xE2, 0x82, 0x62] ∧
      ∃ f : Failure, load (folderOf "wave.gp" [0x61, 0xE2, 0x82, 0x62]).read (some "wave.gp") =
          .error (.undecodable "wave.gp" f) ∧
        f.place = "bytes in position 1-2" ∧ f.reason.message = "invalid continuation byte" ∧
        ¬ ProperStart [0xE2, 0x82, 0x62] := by
  have hpath : IsPath "wave.gp" := isPath_ofString (by decide)
  have hread := read_folderOf [0x61, 0xE2, 0x82, 0x62]
  have hdecode : decode [0x61, 0xE2, 0x82, 0x62] =
    .error ⟨1, 2, 0xE2, .invalidContinuation⟩ := by rfl
  have hpinpoints := decode_eq_error_iff.1 hdecode
  have hbad := hpinpoints.not_wellFormed
  obtain ⟨valid, rest, f, hoctets, -, -, hat, hload, -, -, hplace, -, -, hreason⟩ :=
    load_undecodable hpath hread hbad
  have hf : f = ⟨1, 2, 0xE2, .invalidContinuation⟩ := by
    rw [load_of_pinpoints hpath hread hpinpoints] at hload
    cases hload
    rfl
  subst hf
  obtain ⟨a, rfl⟩ : ∃ a, valid = [a] := List.length_eq_one_iff.1 hat.start.symm
  obtain ⟨rfl, hrest⟩ := List.cons.inj hoctets
  obtain rfl : rest = [0xE2, 0x82, 0x62] := hrest.symm
  exact ⟨hpath, hread, hbad, _, hload, hplace.trans (by decide), rfl, (hreason.1 rfl).2⟩

end WavePlot.Template
