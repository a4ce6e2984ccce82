import WavePlot.Text.Hex
import WavePlot.Text.Wide

/-!
# Texts that can be encoded

UTF-8 has octets for every character and none for a surrogate. Some encoders take certain surrogates
all the same. Encoding fails at the first surrogate that is not taken, and the failure names it
together with the surrogates right behind it.
-/

namespace WavePlot.Text

/-- Where and why a text cannot be encoded: `width` surrogates from `start` on, the first of them
`place`. -/
structure EncodeFailure where
  start : Nat
  width : Nat
  place : Fin 0x800
  deriving DecidableEq, Repr

/-- The surrogates a failure names: a single one by its number, several by their positions. -/
def EncodeFailure.subject (f : EncodeFailure) : String :=
  if f.width = 1 then
    "character '\\u" ++ String.ofList (fixedHex 4 (surrogateNumber f.place)) ++ "' in position "
      ++ toString f.start
  else
    "characters in position " ++ toString f.start ++ "-" ++ toString (f.start + f.width - 1)

def EncodeFailure.message (f : EncodeFailure) : String :=
  "'utf-8' codec can't encode " ++ f.subject ++ ": surrogates not allowed"

/-- The failure of encoding a text, of which some characters are behind, by an encoder that takes
the given surrogates. -/
def encodeFailureFrom (taken : Fin 0x800 → Bool) (position : Nat) : Wide → Option EncodeFailure
  | [] => none
  | .char _ :: rest => encodeFailureFrom taken (position + 1) rest
  | .surrogate place :: rest =>
    if taken place then encodeFailureFrom taken (position + 1) rest
    else some ⟨position, (rest.takeWhile CodePoint.isSurrogate).length + 1, place⟩

/-- The failure of encoding a text for a file, which takes no surrogate. -/
def encodeFailure? (text : Wide) : Option EncodeFailure :=
  encodeFailureFrom (fun _ => false) 0 text

/-- Whether a surrogate stands for an octet beyond ASCII: those from U+DC80 to U+DCFF do. -/
def standsForOctet (place : Fin 0x800) : Bool :=
  0xDC80 ≤ surrogateNumber place && surrogateNumber place ≤ 0xDCFF

/-- The failure of encoding a text as a name for the system, where the surrogates that stand for
octets become these octets. -/
def nameFailure? (text : Wide) : Option EncodeFailure := encodeFailureFrom standsForOctet 0 text

/-- The number of octets of a name for the system. -/
def octetCount : Wide → Nat
  | [] => 0
  | .char c :: rest => c.utf8Size + octetCount rest
  | .surrogate _ :: rest => 1 + octetCount rest

end WavePlot.Text
