import PathAssembly.Text.Decimal

/-!
# Faults

Why an operation refuses its input. One type covers the whole library, so that the first cause to
arise is the answer of every operation built from others. `Fault.kind` sorts the causes and
`Fault.message?` words them; a cause that has no wording of its own has no message.
-/

namespace PathAssembly

inductive FaultKind where
  | invalid
  | missingKey
  | outside
  | wrongShape
  | missingFeature
  | overflow
  | unencodable
  | malformed
  deriving DecidableEq, Repr

/-- The cause of a refusal, with what its wording needs. -/
inductive Fault where
  | unreadableInteger
  | unreadableNumber
  | unwritableInteger
  | impossibleTime
  | noCharacter
  | integerOfNaN
  | integerOfInfinity
  | integerTooLarge
  | emptyField (width : Int)
  | fieldOutsideWord (offset stop size : Int)
  | valueTooWide (value width : Int)
  | tooManyBits
  | isdOutOfRange (isd : Int)
  | asOutOfRange (number : Int)
  | notIsdAs (text : String)
  | decimalAsOutOfRange (text : String)
  | wrongGroupCount (text : String)
  | groupOutOfRange (text : String)
  | unsignedTooWide (name : String) (bits : Nat) (value : Int)
  | macLength (length : Nat)
  | emptySegment
  | unknownSegmentType (text : String)
  | unknownLinkType (text : String)
  | unknownSwitch (name text : String)
  | noBorderRouter (interface : Int) (isdAs : String)
  | tooManyLengths (count : Nat)
  | lengthTooLarge (slot : Nat) (length : Int)
  | infoFieldCount (expected got : Nat)
  | hopFieldCount (expected : Int) (got : Nat)
  | headerTooShort (length : Nat)
  | segmentGap (lengths : List Int)
  | headerTruncated (length announced : Nat)
  | noHopField (index : Int) (lengths : List Int)
  | unencodable
  | octetsMissing
  | outside
  | zeroStep
  | rangeUncountable
  | tooManySegments (count : Nat)
  | rangeTooLong (segment : Int) (hops : Nat)
  | wrongShape
  | missingFeature
  | macNotText (shown : String)
  | macNotHex (text : String)
  | macTextLength (text : String)
  | unknownKeys (kind : String) (keys : List String)
  | notMapping (key : String)
  | geoNotMapping
  | geoOrLinkNotMapping
  | entryIncomplete
  | entriesMissing
  | topologyIncomplete
  | documentNotMapping
  | segmentsNotList
  | segmentNotMapping
  | queryMissing
  | malformedDocument
  | invalidFormat
  deriving DecidableEq, Repr

namespace Fault

/-- Every cause not named here refuses a value of the right shape. -/
def kind : Fault → FaultKind
  | noBorderRouter .. => .missingKey
  | noHopField .. | outside => .outside
  | wrongShape => .wrongShape
  | missingFeature => .missingFeature
  | integerOfInfinity | integerTooLarge | tooManyBits | rangeUncountable => .overflow
  | unencodable | octetsMissing => .unencodable
  | malformedDocument => .malformed
  | _ => .invalid

private def tuple (lengths : List Int) : String :=
  "(" ++ ", ".intercalate (lengths.map toString) ++ ")"

/-- The wording of a cause, if it has one. An integer with too many digits to be written leaves a
cause without one. -/
def message? : Fault → Option String
  | unreadableInteger | unreadableNumber | unwritableInteger | impossibleTime | noCharacter
  | integerOfNaN | integerOfInfinity | integerTooLarge | tooManyBits | unencodable
  | octetsMissing | outside | zeroStep | rangeUncountable | wrongShape | missingFeature
  | malformedDocument | invalidFormat => none
  | emptyField width => some s!"Field width must be positive, got {width}"
  | fieldOutsideWord offset stop size =>
      (Text.decimal? stop).map fun stop => s!"Field [{offset}, {stop}) exceeds {size}-bit word"
  | valueTooWide value width => some s!"Value {value} does not fit into {width} bits"
  | isdOutOfRange isd => (Text.decimal? isd).map fun isd => s!"ISD out of range: {isd}"
  | asOutOfRange number => some s!"AS out of range: {number}"
  | notIsdAs text => some s!"Invalid ISD-AS: '{text}'"
  | decimalAsOutOfRange text => some s!"BGP AS out of range: {text}"
  | wrongGroupCount text => some s!"Wrong number of ':' separators in AS '{text}'"
  | groupOutOfRange text => some s!"AS group out of range in '{text}'"
  | unsignedTooWide name bits value =>
      (Text.decimal? value).map fun value =>
        s!"{name} must fit into {bits} unsigned bits, got {value}"
  | macLength length => some s!"MAC must be 6 bytes, got {length}"
  | emptySegment => some "Path segment must contain at least one AS entry"
  | unknownSegmentType text =>
      some s!"Invalid segment type '{text}'. Valid values are: UNSPECIFIED, UP, CORE, DOWN"
  | unknownLinkType text =>
      some (s!"Invalid link type '{text}'. "
        ++ "Valid values are: UNSPECIFIED, DIRECT, MULTI_HOP, OPEN_NET")
  | unknownSwitch name text => some s!"Invalid boolean value for {name}: '{text}'"
  | noBorderRouter interface isdAs =>
      some s!"No border router for interface {interface} in {isdAs}"
  | tooManyLengths count => some s!"A path holds at most 3 segments, got {count}"
  | lengthTooLarge slot length => some s!"Segment {slot} has {length} hops, at most 63 allowed"
  | infoFieldCount expected got => some s!"Expected {expected} info fields, got {got}"
  | hopFieldCount expected got => some s!"Expected {expected} hop fields, got {got}"
  | headerTooShort length => some s!"Raw path too short for meta header: {length} bytes"
  | segmentGap lengths => some ("Non-empty segment follows an empty one: " ++ tuple lengths)
  | headerTruncated length announced =>
      some s!"Raw path truncated: {length} bytes, header announces {announced}"
  | noHopField index lengths =>
      some (s!"Hop field {index} out of range for lengths " ++ tuple lengths)
  | tooManySegments count => some s!"Candidate has {count} segments, at most 3 allowed"
  | rangeTooLong segment hops => some s!"Segment {segment} uses {hops} hops, at most 63 allowed"
  | macNotText shown => some s!"MAC {shown} must be a quoted hex string"
  | macNotHex text => some s!"Invalid MAC '{text}'"
  | macTextLength text => some s!"MAC '{text}' must be 6 bytes"
  | unknownKeys kind keys =>
      some (s!"Unrecognized key(s) in {kind}: " ++ ", ".intercalate keys)
  | notMapping key => some s!"'{key}' must be a mapping"
  | geoNotMapping => some "Each 'geo' value must be a mapping"
  | geoOrLinkNotMapping => some "'geo' and 'link_type' must be mappings"
  | entryIncomplete => some "AS entry requires 'isd_as' and 'mac'"
  | entriesMissing => some "Segment requires a non-empty 'entries' list"
  | topologyIncomplete => some "Topology requires 'isd_as'"
  | documentNotMapping => some "The provided YAML must map to a dictionary at top-level."
  | segmentsNotList => some "'segments' must be a list"
  | segmentNotMapping => some "Each segment must be a mapping"
  | queryMissing => some "Each segment requires 'query: [src, dst]'"

end Fault

instance decidableEqExcept {ε α : Type} [DecidableEq ε] [DecidableEq α] : DecidableEq (Except ε α)
  | .ok a, .ok b => if h : a = b then .isTrue (by rw [h]) else .isFalse (by simpa using h)
  | .error a, .error b => if h : a = b then .isTrue (by rw [h]) else .isFalse (by simpa using h)
  | .ok _, .error _ => .isFalse (by simp)
  | .error _, .ok _ => .isFalse (by simp)

end PathAssembly
