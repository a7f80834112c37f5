import ShellAssist.Json.Fault
import ShellAssist.Text.Quoted
import ShellAssist.Number.Decimal

namespace ShellAssist

/-!
# Failures

The causes for which an operation gives no result, and the message of each.
-/

/-- Why an operation gave no result. -/
inductive Failure where
  /-- A name stands for none of the choices of its kind. -/
  | unknownName (kind : String) (name : Option String) (choices : List String)
  /-- A history entry needs a command that is not blank. -/
  | blankCommand
  /-- A stored record carries no command text. -/
  | recordWithoutCommand
  /-- A completion candidate needs a text. -/
  | emptyCandidate
  /-- History cannot be rendered in this format. -/
  | unsupportedFormat (format : String)
  /-- The text is not a whole number. -/
  | notWhole (text : String)
  /-- The text writes a whole number with too many digits. -/
  | tooManyDigits (digits : Nat)
  /-- A whole number has too many digits to be written. -/
  | wholeTooLong
  /-- The text is not a number. -/
  | notNumber (text : String)
  /-- Infinity has no whole part. -/
  | wholeOfInfinity
  /-- What is no number has no whole part. -/
  | wholeOfNaN
  /-- A quotient is beyond the largest double. -/
  | quotientTooLarge
  /-- The calendar ends before this year, or has not begun. -/
  | yearOutOfRange (year : Int)
  /-- The instant does not fit the system's clock. -/
  | instantOutOfRange
  /-- The instant's year does not fit the system's calendar. -/
  | calendarOverflow
  /-- A program may take more time than the system waits. -/
  | waitTooLong
  /-- A program may take more time than the system's clock counts. -/
  | waitOffClock
  /-- A path or argument holds a NUL character. -/
  | embeddedNul
  /-- The path has no last component to derive a name from. -/
  | unnamedPath (path : String)
  /-- A text is no JSON value. -/
  | malformedJson (fault : Json.Fault) (position : Json.Position)
  /-- The arrays and objects of a JSON text are nested too deep; the last opened is of this kind. -/
  | textTooDeep (nesting : Json.Nesting)
  /-- The arrays and objects of a value are nested too deep to be written as JSON. -/
  | valueTooDeep
  /-- A value of this type cannot be written as JSON. -/
  | valueNotWritable (type : String)
  /-- A key of this type cannot be written as the name of a JSON member. -/
  | keyNotWritable (type : String)
  /-- A JSON value of this type stands where a record belongs. -/
  | notRecord (type : String)
  /-- The system refused an operation. -/
  | system (reason : String)
  /-- The external filter was not found or does not answer. -/
  | filterMissing
  /-- The external filter failed on a request. -/
  | filterFailed
  /-- A command line without a program. -/
  | noProgram
  /-- The cursor of an edited line stands behind the end of its text. -/
  | cursorBehindEnd (cursor : Int) (length : Nat)
  deriving DecidableEq, Repr

/-- The most characters of a faulty numeral that a message shows. -/
def Failure.maxShown : Nat := 200

/-- The message of a failure. -/
def Failure.message : Failure → String
  | .unknownName kind name choices =>
    "Unknown " ++ kind ++ ": " ++ Text.quotedOption name ++
      if choices.isEmpty then ""
      else " (expected one of: " ++ String.intercalate ", " choices ++ ")"
  | .blankCommand => "HistoryEntry.command must not be empty"
  | .recordWithoutCommand => "record has no command"
  | .emptyCandidate => "CompletionCandidate.text must not be empty"
  | .unsupportedFormat format => "Unsupported export format: " ++ format
  | .notWhole text =>
    "invalid literal for int() with base 10: " ++ Text.take maxShown (Text.quoted text)
  | .tooManyDigits digits =>
    "Exceeds the limit (4300 digits) for integer string conversion: value has " ++ count digits ++
      " digits; use sys.set_int_max_str_digits() to increase the limit"
  | .wholeTooLong =>
    "Exceeds the limit (4300 digits) for integer string conversion; " ++
      "use sys.set_int_max_str_digits() to increase the limit"
  | .notNumber text => "could not convert string to float: " ++ Text.quoted text
  | .wholeOfInfinity => "cannot convert float infinity to integer"
  | .wholeOfNaN => "cannot convert float NaN to integer"
  | .quotientTooLarge => "integer division result too large for a float"
  | .yearOutOfRange year =>
    "year " ++ String.ofList (Number.Decimal.ofInt year) ++ " is out of range"
  | .instantOutOfRange => "timestamp out of range for platform time_t"
  | .calendarOverflow => "[Errno 75] Value too large for defined data type"
  | .waitTooLong => "timeout is too large"
  | .waitOffClock => "timestamp too large to convert to C _PyTime_t"
  | .embeddedNul => "embedded null byte"
  | .unnamedPath path => "Path(" ++ Text.quoted path ++ ") has an empty name"
  | .malformedJson fault position =>
    fault.message ++ ": line " ++ count position.line ++ " column " ++ count position.column ++
      " (char " ++ count position.offset ++ ")"
  | .textTooDeep nesting =>
    "maximum recursion depth exceeded while decoding a JSON " ++ nesting.name ++
      " from a unicode string"
  | .valueTooDeep => "maximum recursion depth exceeded while encoding a JSON object"
  | .valueNotWritable type => "Object of type " ++ type ++ " is not JSON serializable"
  | .keyNotWritable type => "keys must be str, int, float, bool or None, not " ++ type
  | .notRecord type => Text.quoted type ++ " object has no attribute 'get'"
  | .system reason => reason
  | .filterMissing => "fzf is not available"
  | .filterFailed => "fzf failed or timed out"
  | .noProgram => "list index out of range"
  | .cursorBehindEnd cursor length =>
    "cursor_position=" ++ String.ofList (Number.Decimal.ofInt cursor) ++ ", len_text=" ++
      count length
where
  count (n : Nat) : String := String.ofList (Number.Decimal.ofNat n)

/-- The kinds of failures. -/
inductive Failure.Kind where
  /-- A name that is not among the choices. -/
  | choice
  /-- A value that does not fit. -/
  | value
  /-- A number beyond a range. -/
  | overflow
  /-- The system refused. -/
  | system
  /-- The external filter is of no use. -/
  | filter
  /-- Something is missing at a position. -/
  | position
  /-- A caller has not kept a rule. -/
  | rule
  /-- Data are nested too deep. -/
  | depth
  /-- A value is of a type that does not fit. -/
  | type
  deriving DecidableEq, Repr

/-- The kind of a failure. -/
def Failure.kind : Failure → Failure.Kind
  | .unknownName .. => .choice
  | .blankCommand | .recordWithoutCommand | .emptyCandidate | .unsupportedFormat _ | .notWhole _
  | .tooManyDigits _ | .wholeTooLong | .notNumber _ | .wholeOfNaN | .yearOutOfRange _
  | .embeddedNul | .unnamedPath _ | .malformedJson .. => .value
  | .wholeOfInfinity | .quotientTooLarge | .instantOutOfRange | .waitTooLong | .waitOffClock =>
    .overflow
  | .calendarOverflow | .system _ => .system
  | .filterMissing | .filterFailed => .filter
  | .noProgram => .position
  | .cursorBehindEnd .. => .rule
  | .textTooDeep _ | .valueTooDeep => .depth
  | .valueNotWritable _ | .keyNotWritable _ | .notRecord _ => .type

end ShellAssist
