/-!
# Routes

What a service can be asked for, and the paths to ask at.
-/

namespace ConversationFlow.Service

inductive Route where
  | health
  | compile
  | validate
  | takeIn
  | samples
  | sample (name : String)
  | compileSample (name : String)
deriving DecidableEq, Repr

namespace Route

/-- The route of the parts of a path after its first slash. -/
def ofParts? : List (List Char) → Option Route
  | [a] => if a = "health".toList then some health else none
  | [a, b] =>
    if a = "flows".toList then
      if b = "compile".toList then some compile
      else if b = "validate".toList then some validate
      else if b = "import".toList then some takeIn
      else if b = "samples".toList then some samples
      else none
    else none
  | [a, b, c] =>
    if a = "flows".toList ∧ b = "samples".toList ∧ c ≠ [] then some (sample (String.ofList c))
    else none
  | [a, b, c, d] =>
    if a = "flows".toList ∧ b = "samples".toList ∧ c ≠ [] ∧ d = "compile".toList then
      some (compileSample (String.ofList c))
    else none
  | _ => none

/-- A text cut at its slashes. -/
def parts : List Char → List (List Char)
  | [] => [[]]
  | '/' :: rest => [] :: parts rest
  | c :: rest =>
    match parts rest with
    | part :: more => (c :: part) :: more
    | [] => [[c]]

def ofPath? (path : String) : Option Route :=
  match path.toList with
  | '/' :: rest => ofParts? (parts rest)
  | _ => none

def method : Route → String
  | health | samples | sample _ => "GET"
  | compile | validate | takeIn | compileSample _ => "POST"

/-- Whether a path has a slash too many at its end, without which it is the one of a route. -/
def isRedirected (path : String) : Bool :=
  let s := path.toList
  let stripped := (s.reverse.dropWhile (· = '/')).reverse
  stripped.length < s.length && (ofPath? (String.ofList stripped)).isSome

end Route

end ConversationFlow.Service
