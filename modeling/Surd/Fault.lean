import Surd.Bounds
import Surd.Value

/-! Everything that can go wrong, by cause. -/

namespace Surd

inductive Fault where
  /-- A word was asked for, and the value is of another kind. -/
  | notInteger (label kind : String)
  /-- An integer that is no word. -/
  | outsideWord (label : String) (n : Int)
  /-- A fraction's part of another kind than an integer. -/
  | partNotInteger (kind : String)
  /-- An integer that is no part. -/
  | outsidePart (n : Int)
  /-- Two parts whose fraction, reduced, is not narrow. -/
  | outsideReduced (numer denom : Int) (r : Rat)
  /-- A fraction was asked for, and the value is of another kind. -/
  | notFraction (kind : String)
  /-- A fraction that is not narrow. -/
  | outsideNarrow (r : Rat)
  /-- Numbers below two have no factorization. -/
  | factorsUndefined (n : Int)
  /-- A negative number has no root. -/
  | negativeRoot (r : Rat)
  /-- A text that is no integer. -/
  | unreadableInteger (label text : String)
  /-- A text for an integer that is no word. -/
  | readOutsideWord (label : String) (n : Int)
  /-- A text that is no rational. -/
  | unreadableRational (text : String)
  /-- A text that is no fraction. -/
  | unreadableFraction (text : String)
  /-- A rational written over zero. -/
  | zeroDenominator
  /-- A rational written with a part that does not fit. -/
  | readOutsidePart (n : Int)
  /-- A list of primes above what the settings allow. -/
  | boundAboveLimit (bound limit : Int)
  /-- A row length given on the command line that is not positive. -/
  | rowNotPositive (n : Int)
  /-- A settings file that is no document. -/
  | malformedSettings (file : String)
  /-- A known section that is no table. -/
  | sectionNotTable (file name : String)
  /-- A setting that has to be a positive integer. -/
  | settingNotPositive (file key : String) (value : Value)
  /-- A setting that has to be true or false. -/
  | settingNotSwitch (file key : String)
  /-- A settings file that was named and does not exist. -/
  | missingSettings (path : String)
  /-- A prime table of no entries. -/
  | emptyTable
  /-- Two neighbours of a prime table in the wrong order. -/
  | notAscending (before after : Value)
  /-- A prime table whose bound is below its last entry. -/
  | boundBelowTable (bound last : Value)
  /-- A layout with rows of no cells. -/
  | rowWithoutCells (length : Value)
  /-- A text that was taken for an integer and is none. -/
  | unreadableNumeral (text : String)
  /-- An integer of more digits than are written. -/
  | tooLongToWrite
  /-- A row of fewer items than it is taken apart into. -/
  | tooFewItems (expected found : Nat)
  /-- A row of more items than it is taken apart into. -/
  | tooManyItems (expected : Nat)
  /-- A row of names and values with an item that is no pair. -/
  | notPair (place found : Nat)
  /-- A decimal text longer than is read. -/
  | tooManyDigits (count : Nat)
  /-- An output path of no characters. -/
  | emptyOutputPath
  /-- A slice that does not move. -/
  | zeroSliceStep
  /-- A zero character in the name of a file. -/
  | zeroInPath
  /-- A number that is no quotient. -/
  | noQuotient
  /-- An infinite number. -/
  | infiniteQuotient
  /-- A fraction over zero. -/
  | overZero (numer : Int)
  /-- A remainder by zero. -/
  | zeroModulus
  /-- A remainder by a double that is zero. -/
  | zeroFloatModulus
  /-- Zero to a negative power. -/
  | zeroToNegative
  /-- An integer beyond all doubles. -/
  | integerTooLarge
  /-- A quotient beyond all doubles. -/
  | quotientTooLarge
  /-- A power beyond all doubles. -/
  | resultTooLarge
  /-- A power that is not real, and beyond all doubles. -/
  | complexTooLarge
  /-- A count that no repetition can have. -/
  | countTooLarge
  /-- A text repeated to more characters than a text can have. -/
  | repetitionTooLong
  /-- A result that cannot be held. -/
  | outOfMemory
  /-- A document nested deeper than is read. -/
  | nestedTooDeep
  /-- A value nested deeper than is written. -/
  | tooDeepToWrite
  /-- An index outside a table. -/
  | indexOutside
  /-- An index that no table can have. -/
  | indexTooLarge
  /-- A name that a table does not have. -/
  | missingName (name : String)
  /-- An operation that the kind of a value does not have. -/
  | unsupportedKind (text : String)
  /-- A text operation on a value that is no text. -/
  | missingAttribute (text : String)
  /-- Bytes that are not UTF-8, from the first to before the last position. -/
  | undecodable (byte first last : Nat) (reason : String)
  /-- A file was asked for where a directory is. -/
  | isDirectory (path : String)
  /-- A directory was asked for where a file is. -/
  | fileExists (path : String)
  /-- A path through a file. -/
  | notDirectory (path : String)
  /-- A path with nothing at its end. -/
  | missingFile (path : String)
  /-- A name longer than a directory can hold. -/
  | nameTooLong (path : String)
  /-- A home directory of an unknown user. -/
  | noHome
  deriving Inhabited

inductive FaultKind where
  | outOfRange
  | domain
  | userInput
  | badValue
  | zeroDivision
  | badIndex
  | badKey
  | badType
  | badAttribute
  | overflow
  | memory
  | recursion
  | undecodable
  | missingFile
  | fileExists
  | isDirectory
  | notDirectory
  | system
  | environment
  deriving DecidableEq, Repr, Inhabited

def FaultKind.name : FaultKind → String
  | .outOfRange => "OutOfRangeError"
  | .domain => "DomainError"
  | .userInput => "UserInputError"
  | .badValue => "ValueError"
  | .zeroDivision => "ZeroDivisionError"
  | .badIndex => "IndexError"
  | .badKey => "KeyError"
  | .badType => "TypeError"
  | .badAttribute => "AttributeError"
  | .overflow => "OverflowError"
  | .memory => "MemoryError"
  | .recursion => "RecursionError"
  | .undecodable => "UnicodeDecodeError"
  | .missingFile => "FileNotFoundError"
  | .fileExists => "FileExistsError"
  | .isDirectory => "IsADirectoryError"
  | .notDirectory => "NotADirectoryError"
  | .system => "OSError"
  | .environment => "RuntimeError"

def Fault.kind : Fault → FaultKind
  | .notInteger .. | .outsideWord .. | .partNotInteger _ | .outsidePart _ | .outsideReduced ..
  | .notFraction _ | .outsideNarrow _ => .outOfRange
  | .factorsUndefined _ | .negativeRoot _ => .domain
  | .unreadableInteger .. | .readOutsideWord .. | .unreadableRational _ | .zeroDenominator
  | .readOutsidePart _ | .boundAboveLimit .. | .rowNotPositive _ | .malformedSettings _
  | .sectionNotTable .. | .settingNotPositive .. | .settingNotSwitch .. => .userInput
  | .emptyTable | .notAscending .. | .boundBelowTable .. | .rowWithoutCells _ | .tooManyDigits _
  | .emptyOutputPath | .zeroSliceStep | .zeroInPath | .noQuotient | .unreadableFraction _
  | .unreadableNumeral _ | .tooLongToWrite | .tooFewItems .. | .tooManyItems _ | .notPair .. => .badValue
  | .infiniteQuotient | .integerTooLarge | .quotientTooLarge | .resultTooLarge | .complexTooLarge | .countTooLarge
  | .repetitionTooLong => .overflow
  | .outOfMemory => .memory
  | .nestedTooDeep | .tooDeepToWrite => .recursion
  | .overZero _ | .zeroModulus | .zeroFloatModulus | .zeroToNegative => .zeroDivision
  | .indexOutside | .indexTooLarge => .badIndex
  | .missingName _ => .badKey
  | .unsupportedKind _ => .badType
  | .missingAttribute _ => .badAttribute
  | .undecodable .. => .undecodable
  | .missingSettings _ | .missingFile _ => .missingFile
  | .isDirectory _ => .isDirectory
  | .fileExists _ => .fileExists
  | .notDirectory _ => .notDirectory
  | .nameTooLong _ => .system
  | .noHome => .environment

def FaultKind.isUserError : FaultKind → Bool
  | .userInput | .domain | .outOfRange => true
  | _ => false

/-- The faults whose message is for the user. A settings file that was named and is missing is one
of them. -/
def Fault.isUserError : Fault → Bool
  | .missingSettings _ => true
  | fault => fault.kind.isUserError

/-- A fault whose message shows those integers. If one of them is too long to be written, that is the
fault. -/
def Fault.showing (numbers : List Int) (fault : Fault) : Fault :=
  if numbers.all hasWritableLength then fault else .tooLongToWrite

theorem Fault.showing_of_writable {numbers : List Int} (writable : numbers.all hasWritableLength = true) (fault : Fault) :
    fault.showing numbers = fault := if_pos writable

theorem Fault.showing_cases (fault : Fault) (numbers : List Int) :
    fault.showing numbers = fault ∨ fault.showing numbers = .tooLongToWrite := by
  unfold showing
  split
  · exact .inl rfl
  · exact .inr rfl

end Surd
