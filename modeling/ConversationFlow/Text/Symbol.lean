/-!
# Symbols of a byte text

A byte text is read as UTF-8. A byte that starts no character stands alone, so every byte text has a
symbol text, and a position in bytes is the sum of the sizes of the symbols before it.
-/

namespace ConversationFlow.Text

/-- A character, or a byte that no character starts with. -/
inductive Symbol where
  | char (c : Char)
  | stray (byte : UInt8)
deriving DecidableEq, Repr

def Symbol.size : Symbol → Nat
  | .char c => c.utf8Size
  | .stray _ => 1

def symbols (s : String) : List Symbol :=
  s.toList.map .char

def byteCount : List Symbol → Nat
  | [] => 0
  | s :: rest => s.size + byteCount rest

/-- The six low bits of a byte that goes on with a character. -/
def tail? (b : UInt8) : Option Nat :=
  if 0x80 ≤ b.toNat && b.toNat ≤ 0xBF then some (b.toNat - 0x80) else none

/-- The character of a code point, unless fewer bytes would have held it. -/
def codePoint? (least n : Nat) : Option Char :=
  if n.isValidChar ∧ least ≤ n then some (Char.ofNat n) else none

/-- The symbol that a byte text starts with, and how many bytes follow the first one in it. -/
def nextSymbol (b : UInt8) (rest : List UInt8) : Symbol × Nat :=
  let stray := (Symbol.stray b, 0)
  let n := b.toNat
  if n ≤ 0x7F then
    match codePoint? 0 n with
    | some c => (.char c, 0)
    | none => stray
  else if 0xC2 ≤ n && n ≤ 0xDF then
    match rest with
    | b₁ :: _ =>
      match (tail? b₁).bind fun t₁ => codePoint? 0x80 ((n - 0xC0) * 64 + t₁) with
      | some c => (.char c, 1)
      | none => stray
    | _ => stray
  else if 0xE0 ≤ n && n ≤ 0xEF then
    match rest with
    | b₁ :: b₂ :: _ =>
      match (tail? b₁).bind fun t₁ => (tail? b₂).bind fun t₂ =>
        codePoint? 0x800 (((n - 0xE0) * 64 + t₁) * 64 + t₂) with
      | some c => (.char c, 2)
      | none => stray
    | _ => stray
  else if 0xF0 ≤ n && n ≤ 0xF4 then
    match rest with
    | b₁ :: b₂ :: b₃ :: _ =>
      match (tail? b₁).bind fun t₁ => (tail? b₂).bind fun t₂ => (tail? b₃).bind fun t₃ =>
        codePoint? 0x10000 ((((n - 0xF0) * 64 + t₁) * 64 + t₂) * 64 + t₃) with
      | some c => (.char c, 3)
      | none => stray
    | _ => stray
  else stray

/-- The symbols of a byte text, of which the first `skip` bytes belong to a symbol before. -/
def symbolsAfter : Nat → List UInt8 → List Symbol
  | _, [] => []
  | skip + 1, _ :: rest => symbolsAfter skip rest
  | 0, b :: rest => (nextSymbol b rest).1 :: symbolsAfter (nextSymbol b rest).2 rest

def symbolsOfBytes (bytes : List UInt8) : List Symbol :=
  symbolsAfter 0 bytes

end ConversationFlow.Text
