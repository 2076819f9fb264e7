import ConversationFlow.Text.Basic

/-!
# Blank characters

Two notions of blank that the library's readers use: the Unicode property White_Space, and the same
set with the four information separators.
-/

namespace ConversationFlow.Text

def isWhiteSpace (c : Char) : Bool :=
  let n := c.toNat
  (9 ≤ n && n ≤ 13) || n == 0x20 || n == 0x85 || n == 0xA0 || n == 0x1680 ||
    (0x2000 ≤ n && n ≤ 0x200A) || n == 0x2028 || n == 0x2029 || n == 0x202F || n == 0x205F ||
    n == 0x3000

/-- White space, or one of the information separators U+001C to U+001F. -/
def isBlank (c : Char) : Bool :=
  isWhiteSpace c || (0x1C ≤ c.toNat && c.toNat ≤ 0x1F)

/-- The characters between the first and the last one that `blank` does not hold of. -/
def trim (blank : Char → Bool) (cs : List Char) : List Char :=
  ((cs.dropWhile blank).reverse.dropWhile blank).reverse

/-- ASCII letters lose their case, everything else stays. -/
def foldCase (s : Text) : Text :=
  s.mapRuns fun run => String.ofList (run.toList.map Char.toLower)

end ConversationFlow.Text
