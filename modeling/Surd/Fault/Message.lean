import Surd.Bounds
import Surd.Fault
import Surd.Value.Text

/-! The messages of faults. -/

namespace Surd.Fault

def malformedWording : String := "the text is not a TOML document"

def systemMessage (number : Nat) (reason path : String) : String :=
  s!"[Errno {number}] {reason}: {Text.quoted path}"

def undecodableMessage (byte first last : Nat) (reason : String) : String :=
  "'utf-8' codec can't decode " ++
    (if last = first + 1 then s!"byte 0x{Text.hexadecimal 2 byte} in position {first}"
     else s!"bytes in position {first}-{last - 1}") ++ s!": {reason}"

def message : Fault → String
  | .notInteger label kind => s!"{label} must be an int, got {kind}"
  | .outsideWord label n => s!"{label} {n} is outside the unsigned 32-bit range"
  | .partNotInteger kind => s!"rational parts must be int, got {kind}"
  | .outsidePart n => s!"{n} is outside the signed 32-bit range {partMin}..{partMax}"
  | .outsideReduced numer denom r =>
    s!"{numer}/{denom} reduces to {rationalText r}, outside the signed 32-bit range"
  | .notFraction kind => s!"expected an int or Fraction, got {kind}"
  | .outsideNarrow r => s!"{rationalText r} does not fit a 32-bit rational"
  | .factorsUndefined n => s!"factorization is undefined for {n}"
  | .negativeRoot r => s!"cannot take the square root of negative {rationalText r}"
  | .unreadableInteger label text => s!"Invalid input: {label} {Text.quoted text} is not an integer."
  | .readOutsideWord label n => s!"Invalid input: {label} must lie in 0..{wordMax}, got {n}."
  | .unreadableRational text =>
    s!"Invalid input: {Text.quoted text} is not a rational like 3 or 3/4."
  | .unreadableFraction text => s!"Invalid literal for Fraction: {Text.quoted text}"
  | .zeroDenominator => "Invalid input: denominator is zero."
  | .readOutsidePart n =>
    s!"Invalid input: {n} does not fit a signed 32-bit integer ({partMin}..{partMax})."
  | .boundAboveLimit bound limit =>
    s!"Invalid input: upper bound {bound} exceeds BEHAVIOUR.MAX_PRIMES_BOUND = {limit}. " ++
      "Raise the limit in settings.toml or pass a smaller value."
  | .rowNotPositive n => s!"Invalid input: --per-row must be positive, got {n}."
  | .malformedSettings file => s!"reading {file}: {malformedWording}."
  | .sectionNotTable file name => s!"{file}: [{name}] must be a table."
  | .settingNotPositive file key value =>
    s!"{file}: {key} must be a positive integer, got {value.written}."
  | .settingNotSwitch file key => s!"{file}: {key} must be true or false."
  | .missingSettings path => s!"Settings file not found: {path}"
  | .emptyTable => "prime table is empty"
  | .notAscending before after =>
    s!"prime table not strictly ascending at {before.shown}, {after.shown}"
  | .boundBelowTable bound last =>
    s!"bound {bound.shown} is below the largest stored prime {last.shown}"
  | .rowWithoutCells length => s!"per_row must be positive, got {length.shown}"
  | .unreadableNumeral text =>
    "invalid literal for int() with base 10: " ++ String.ofList ((Text.quoted text).toList.take 200)
  | .tooLongToWrite =>
    "Exceeds the limit (4300 digits) for integer string conversion; " ++
      "use sys.set_int_max_str_digits() to increase the limit"
  | .tooFewItems expected found =>
    s!"not enough values to unpack (expected {expected}, got {found})"
  | .tooManyItems expected => s!"too many values to unpack (expected {expected})"
  | .notPair place found =>
    s!"dictionary update sequence element #{place} has length {found}; 2 is required"
  | .tooManyDigits count =>
    "Exceeds the limit (4300 digits) for integer string conversion: " ++
      s!"value has {count} digits; use sys.set_int_max_str_digits() to increase the limit"
  | .emptyOutputPath => "Output path is empty"
  | .zeroSliceStep => "slice step cannot be zero"
  | .zeroInPath => "embedded null byte"
  | .noQuotient => "cannot convert NaN to integer ratio"
  | .infiniteQuotient => "cannot convert Infinity to integer ratio"
  | .overZero numer => s!"Fraction({numer}, 0)"
  | .zeroModulus => "integer modulo by zero"
  | .zeroFloatModulus => "float modulo"
  | .integerTooLarge => "int too large to convert to float"
  | .quotientTooLarge => "integer division result too large for a float"
  | .resultTooLarge => "(34, 'Numerical result out of range')"
  | .complexTooLarge => "complex exponentiation"
  | .countTooLarge | .indexTooLarge => "cannot fit 'int' into an index-sized integer"
  | .repetitionTooLong => "repeated string is too long"
  | .outOfMemory => ""
  | .nestedTooDeep => "maximum recursion depth exceeded"
  | .tooDeepToWrite => "maximum recursion depth exceeded while getting the repr of an object"
  | .missingName name => name
  | .zeroToNegative => "0.0 cannot be raised to a negative power"
  | .indexOutside => "tuple index out of range"
  | .unsupportedKind text => text
  | .missingAttribute text => text
  | .undecodable byte first last reason => undecodableMessage byte first last reason
  | .isDirectory path => systemMessage 21 "Is a directory" path
  | .fileExists path => systemMessage 17 "File exists" path
  | .notDirectory path => systemMessage 20 "Not a directory" path
  | .missingFile path => systemMessage 2 "No such file or directory" path
  | .nameTooLong path => systemMessage 36 "File name too long" path
  | .noHome => "Could not determine home directory."

end Surd.Fault
