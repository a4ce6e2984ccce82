import WavePlot.Value

/-!
# Why a setting is refused

One constructor for each cause. A message that names a value shows it, so a value with an
integer past the digit limit is refused for that alone, whatever else is wrong with it.
-/

namespace WavePlot

/-- The cause for which a value, a word or a keyword is refused. -/
inductive SettingError where
  /-- An integer would have to be shown that is past the digit limit. -/
  | pastDigitLimit
  /-- An integer rounds to an infinity. -/
  | tooLarge
  /-- A text taken as a number does not spell one. -/
  | misspelt (text : Wide)
  /-- A value that can never be taken as a number. -/
  | notNumeric (value : Value)
  /-- A value is neither a number nor an integer. -/
  | notNumber (name : String) (value : Value)
  | isNaN (name : String)
  | notPositive (name : String) (value : Binary64)
  | isInfinite (name : String)
  | notInteger (value : Value)
  | tooThin (width : Int)
  /-- A word whose part before the equals sign names no parameter. -/
  | unknownName (word : Wide)
  | noValue (word : Wide)
  /-- A word whose part after the equals sign is not of the parameter's kind. -/
  | badValue (word raw : Wide)
  | unknownKeyword (key : Wide)
  /-- A keyword that already stands for the settings themselves. -/
  | takenKeyword (key : Wide)

namespace SettingError

def message : SettingError → Wide
  | .pastDigitLimit =>
    "Exceeds the limit (4300 digits) for integer string conversion; use "
      ++ "sys.set_int_max_str_digits() to increase the limit"
  | .tooLarge => "int too large to convert to float"
  | .misspelt text => "could not convert string to float: " ++ Text.quote text
  | .notNumeric value =>
    "float() argument must be a string or a real number, not " ++ Text.quote value.kindName
  | .notNumber name value => name ++ " must be a number, got " ++ value.quoted
  | .isNaN name => name ++ " is NaN"
  | .notPositive name value => name ++ " must be positive, got " ++ value.text
  | .isInfinite name => name ++ " is infinite"
  | .notInteger value => "lineWidth must be an integer, got " ++ value.quoted
  | .tooThin width =>
    "Line width is too small: " ++ toString width ++ ". Must be at least 1."
  | .unknownName word => "Unknown parameter '" ++ word ++ "'"
  | .noValue word => word ++ " expects a value: " ++ word ++ "=<value>"
  | .badValue word raw => "Bad value for " ++ word ++ ": " ++ Text.quote raw
  | .unknownKeyword key =>
    "PlotConfiguration.__init__() got an unexpected keyword argument '" ++ key ++ "'"
  | .takenKeyword key =>
    "PlotConfiguration.__init__() got multiple values for argument '" ++ key ++ "'"

/-- Whether the refusal is reported as a mistake in the plot parameters. The others are limits
of conversions and faults of the caller. -/
def isParameterMistake : SettingError → Bool
  | .pastDigitLimit | .tooLarge | .misspelt _ | .notNumeric _ | .unknownKeyword _
  | .takenKeyword _ => false
  | _ => true

end SettingError

end WavePlot
