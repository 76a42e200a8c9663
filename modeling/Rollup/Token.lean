import Rollup.Unicode.Properties

namespace Rollup

inductive TokenKind
  | name
  | integer
  | leftBracket
  | rightBracket
  | comma
  | dollar
  deriving DecidableEq, Repr

def isLetter (c : Char) : Bool := Unicode.isAlphabetic c || c == '_'

def isLayout (c : Char) : Bool := c == ' ' || c == '\t' || c == '\n' || c == '\r'

namespace TokenKind

def describe : TokenKind → String
  | name => "name"
  | integer => "integer"
  | leftBracket => "'('"
  | rightBracket => "')'"
  | comma => "','"
  | dollar => "'$'"

def ofChar? (c : Char) : Option TokenKind :=
  match c with
  | '(' => some leftBracket
  | ')' => some rightBracket
  | ',' => some comma
  | '$' => some dollar
  | c => if isLetter c then some name else if c.isDigit then some integer else none

def extendedBy : TokenKind → Char → Bool
  | name, c => isLetter c
  | integer, c => c.isDigit
  | _, _ => false

end TokenKind

/-- A token apart from its place: two tokens with one lexeme mean the same. -/
structure Lexeme where
  kind : TokenKind
  text : String
  deriving DecidableEq, Repr

def Lexeme.describe (l : Lexeme) : String := s!"{l.kind.describe} '{l.text}'"

structure Token extends Lexeme where
  position : Nat
  deriving DecidableEq, Repr

def Token.same (s t : Token) : Bool := s.toLexeme == t.toLexeme

inductive LexError
  | unexpectedCharacter (found : Char) (position : Nat)
  | unexpectedToken (expected : TokenKind) (found : Token)
  | unexpectedEnd (expected : TokenKind) (position : Nat)
  deriving DecidableEq, Repr

namespace LexError

def position : LexError → Nat
  | unexpectedCharacter _ p => p
  | unexpectedToken _ t => t.position
  | unexpectedEnd _ p => p

def message : LexError → String
  | unexpectedCharacter c p => s!"unexpected character '{c}' at position {p}"
  | unexpectedToken k t =>
    s!"unexpected token {t.describe} at position {t.position}, expected {k.describe}"
  | unexpectedEnd k p => s!"unexpected end of input at position {p}, expected {k.describe}"

end LexError

end Rollup
