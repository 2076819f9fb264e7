import ConversationFlow.Editor.Graph
import ConversationFlow.Failure
import ConversationFlow.Json.Mistake
import ConversationFlow.Json.Reader

/-!
# Bodies of requests

What a client sends along: a graph and perhaps metadata, as a document. A body of another kind than
JSON counts as a text.
-/

namespace ConversationFlow.Service

open Schema

/-- The kind of content that a header names, without its parameters and in small letters. -/
def contentKind (header : String) : List Char :=
  (Text.trim Text.isBlank (header.toList.takeWhile (· ≠ ';'))).map Char.toLower

/-- Whether a header names JSON: `application/json`, or an application format that is built on it. -/
def isJsonContent (header : String) : Bool :=
  let kind := contentKind header
  let group := "application/".toList
  let format := kind.drop group.length
  kind.isEmpty ||
    (group.isPrefixOf kind && !format.contains '/' &&
      (format == "json".toList || "+json".toList.isSuffixOf format))

/-- Why a body is no document: a mistake at a position, or more digits than an integer may have. -/
inductive BodyFault where
  | mistake (expected : Json.Expected) (position : Nat)
  | unreadable
deriving DecidableEq, Repr

/-- The greatest number of digits of an integer in a body. -/
def bodyDigitLimit : Nat := 4300

/-- A text without the mark of the byte order at its start. -/
def withoutMark (s : List Char) : List Char :=
  match s with
  | c :: rest => if c.toNat = 0xFEFF then rest else s
  | [] => []

def readBody (body : String) : Except BodyFault Json :=
  let s := withoutMark body.toList
  match Json.firstMistake? bodyDigitLimit s with
  | some (.shorterInteger, _) => .error .unreadable
  | some (expected, position) => .error (.mistake expected position)
  | none => (Json.read (.none s.length) (Text.symbols (String.ofList s))).mapError fun _ => .unreadable

structure Submission where
  graph : Editor.Graph
  metadata : Option (Table Json)

instance : Record Submission where
  title := "CompileFlowRequest"
  keys := [.same "flow", Keys.metadata]
  extraKeys := .ignored
  readFields source f := Submission.mk
    <$> f.required (.same "flow") (Record.read source)
    <*> f.optional Keys.metadata (mapping source anything)
  write nulls s := Json.record nulls
    [(Key.same "flow").holds (Record.write nulls s.graph),
      Keys.metadata.mayHold (s.metadata.map fun t => .obj t.entries)]

def Submission.metadataJson (s : Submission) : Json :=
  s.metadata.elim .null fun t => .obj t.entries

end ConversationFlow.Service
