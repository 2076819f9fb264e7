/-!
# Title case

ASCII letters in title case: a capital begins every run of letters, and small letters follow it.
-/

namespace ConversationFlow.Text

/-- The title case of a text, of which the characters before end with a letter or not. -/
def titleFrom : (inWord : Bool) → List Char → List Char
  | _, [] => []
  | inWord, c :: rest => (if inWord then c.toLower else c.toUpper) :: titleFrom c.isAlpha rest

def title (s : String) : String :=
  String.ofList (titleFrom false s.toList)

end ConversationFlow.Text
