import ConversationFlow.Json.Misread
import ConversationFlow.Json.Value
import ConversationFlow.Timestamp.Reader

/-!
# Findings

What a reader of documents reports: a complaint, the place in the document that it is about, and the
value found there. A complaint has a short name for programs and a sentence for people.
-/

namespace ConversationFlow.Schema

/-- One step from a value to a part of it. -/
inductive Step where
  | key (name : Text)
  | index (position : Nat)
deriving DecidableEq, Repr

def Step.text : Step → Text
  | .key name => name
  | .index position => toString position

/-- How a document came: as values, as a text, or as the body of a request. -/
inductive Source where
  | values
  | text
  | request
deriving DecidableEq, Repr

/-- What is wrong with a value. -/
inductive Complaint where
  | missing
  | extraKey
  | notText
  | notUnicode
  | notInteger
  | fractionalInteger
  | notFinite
  | integerText
  | integerSize
  | notBoolean
  | booleanText
  | notChoice (choices : List Text)
  | notMember (choices : List Text)
  | notRecord (title : Text) (source : Source)
  | notMapping (source : Source)
  | notSequence (source : Source)
  | timestamp (refusal : Timestamp.Refusal)
  | syntaxError (misread : Json.Misread)
  | rejected (reason : Text)
deriving DecidableEq, Repr

/-- Names in quotes, with commas between them and `or` before the last. -/
def alternatives : List Text → Text
  | [] => ""
  | [a] => "'" ++ a ++ "'"
  | [a, b] => "'" ++ a ++ "' or '" ++ b ++ "'"
  | a :: rest => "'" ++ a ++ "', " ++ alternatives rest

def timestampText : Timestamp.Fault → Text
  | .kind => ""
  | .yearZero => "year 0 is out of range"
  | .tooLate => "dates after 9999 are not supported as unix timestamps"
  | .tooEarly => "dates before 0000 are not supported as unix timestamps"
  | .undefined => "NaN values not permitted"

def dateText : Timestamp.DateFault → Text
  | .tooShort => "input is too short"
  | .yearCharacter => "invalid character in year"
  | .separator => "invalid date separator, expected `-`"
  | .monthCharacter => "invalid character in month"
  | .dayCharacter => "invalid character in day"
  | .monthRange => "month value is outside expected range of 1-12"
  | .dayRange => "day value is outside expected range"
  | .trailing => "unexpected extra characters at the end of the input"
  | .tooLate => timestampText .tooLate
  | .tooEarly => timestampText .tooEarly

/-- The short name of a complaint. -/
def Complaint.name : Complaint → Text
  | .missing => "missing"
  | .extraKey => "extra_forbidden"
  | .notText => "string_type"
  | .notUnicode => "string_unicode"
  | .notInteger => "int_type"
  | .fractionalInteger => "int_from_float"
  | .notFinite => "finite_number"
  | .integerText => "int_parsing"
  | .integerSize => "int_parsing_size"
  | .notBoolean => "bool_type"
  | .booleanText => "bool_parsing"
  | .notChoice _ => "literal_error"
  | .notMember _ => "enum"
  | .notRecord _ .request => "model_attributes_type"
  | .notRecord _ _ => "model_type"
  | .notMapping _ => "dict_type"
  | .notSequence _ => "list_type"
  | .timestamp (.value .kind) => "datetime_type"
  | .timestamp (.value _) => "datetime_parsing"
  | .timestamp (.text _) => "datetime_from_date_parsing"
  | .syntaxError _ => "json_invalid"
  | .rejected _ => "value_error"

/-- The sentence for a complaint. -/
def Complaint.message : Complaint → Text
  | .missing => "Field required"
  | .extraKey => "Extra inputs are not permitted"
  | .notText => "Input should be a valid string"
  | .notUnicode => "Input should be a valid string, unable to parse raw data as a unicode string"
  | .notInteger => "Input should be a valid integer"
  | .fractionalInteger =>
    "Input should be a valid integer, got a number with a fractional part"
  | .notFinite => "Input should be a finite number"
  | .integerText =>
    "Input should be a valid integer, unable to parse string as an integer"
  | .integerSize => "Unable to parse input string as an integer, exceeded maximum size"
  | .notBoolean => "Input should be a valid boolean"
  | .booleanText => "Input should be a valid boolean, unable to interpret input"
  | .notChoice choices => "Input should be " ++ alternatives choices
  | .notMember choices => "Input should be " ++ alternatives choices
  | .notRecord title .values => "Input should be a valid dictionary or instance of " ++ title
  | .notRecord _ .text => "Input should be an object"
  | .notRecord _ .request =>
    "Input should be a valid dictionary or object to extract fields from"
  | .notMapping .text => "Input should be an object"
  | .notMapping _ => "Input should be a valid dictionary"
  | .notSequence .text => "Input should be a valid array"
  | .notSequence _ => "Input should be a valid list"
  | .timestamp (.value .kind) => "Input should be a valid datetime"
  | .timestamp (.value fault) => "Input should be a valid datetime, " ++ timestampText fault
  | .timestamp (.text fault) => "Input should be a valid datetime or date, " ++ dateText fault
  | .syntaxError misread => misread.message
  | .rejected reason => "Value error, " ++ reason

/-- A complaint about the value at a place of a document. -/
structure Finding where
  complaint : Complaint
  path : List Step
  value : Json
deriving DecidableEq

/-- The finding seen from outside: one step further from the whole. -/
def Finding.under (step : Step) (f : Finding) : Finding :=
  { f with path := step :: f.path }

/-- A finding as one line: the place, if it is not the whole, and the sentence. -/
def Finding.line (f : Finding) : Text :=
  let place := Text.intercalate "." (f.path.map Step.text)
  if place = "" then f.complaint.message else place ++ ": " ++ f.complaint.message

end ConversationFlow.Schema
