/-! # Kinds of tokens -/

namespace LoxReader

/-- The kind of a token. A reserved word is a kind of its own. -/
inductive TokenKind where
  | leftParen | rightParen | leftBrace | rightBrace | comma | dot | minus | plus
  | semicolon | slash | star
  | bang | bangEqual | equal | equalEqual | greater | greaterEqual | less | lessEqual
  | identifier | string | number
  | kwAnd | kwClass | kwElse | kwFalse | kwFun | kwFor | kwIf | kwNil | kwOr | kwPrint
  | kwReturn | kwSuper | kwThis | kwTrue | kwVar | kwWhile
  | endOfInput
deriving DecidableEq, Repr

namespace TokenKind

/-- Every kind, in the order of declaration. -/
def all : List TokenKind :=
  [.leftParen, .rightParen, .leftBrace, .rightBrace, .comma, .dot, .minus, .plus,
    .semicolon, .slash, .star, .bang, .bangEqual, .equal, .equalEqual, .greater,
    .greaterEqual, .less, .lessEqual, .identifier, .string, .number, .kwAnd, .kwClass,
    .kwElse, .kwFalse, .kwFun, .kwFor, .kwIf, .kwNil, .kwOr, .kwPrint, .kwReturn, .kwSuper,
    .kwThis, .kwTrue, .kwVar, .kwWhile, .endOfInput]

/-- The canonical text of a kind. For punctuation, operators and reserved words it is how the
token is written. -/
def text : TokenKind → String
  | .leftParen => "("
  | .rightParen => ")"
  | .leftBrace => "\x7b"
  | .rightBrace => "\x7d"
  | .comma => ","
  | .dot => "."
  | .minus => "-"
  | .plus => "+"
  | .semicolon => ";"
  | .slash => "/"
  | .star => "*"
  | .bang => "!"
  | .bangEqual => "!="
  | .equal => "="
  | .equalEqual => "=="
  | .greater => ">"
  | .greaterEqual => ">="
  | .less => "<"
  | .lessEqual => "<="
  | .identifier => "identifier"
  | .string => "string"
  | .number => "number"
  | .kwAnd => "and"
  | .kwClass => "class"
  | .kwElse => "else"
  | .kwFalse => "false"
  | .kwFun => "fun"
  | .kwFor => "for"
  | .kwIf => "if"
  | .kwNil => "nil"
  | .kwOr => "or"
  | .kwPrint => "print"
  | .kwReturn => "return"
  | .kwSuper => "super"
  | .kwThis => "this"
  | .kwTrue => "true"
  | .kwVar => "var"
  | .kwWhile => "while"
  | .endOfInput => "EOF"

/-- The name of a kind in the debug form of a token. -/
def name : TokenKind → String
  | .leftParen => "LEFT_PAREN"
  | .rightParen => "RIGHT_PAREN"
  | .leftBrace => "LEFT_BRACE"
  | .rightBrace => "RIGHT_BRACE"
  | .comma => "COMMA"
  | .dot => "DOT"
  | .minus => "MINUS"
  | .plus => "PLUS"
  | .semicolon => "SEMICOLON"
  | .slash => "SLASH"
  | .star => "STAR"
  | .bang => "BANG"
  | .bangEqual => "BANG_EQUAL"
  | .equal => "EQUAL"
  | .equalEqual => "EQUAL_EQUAL"
  | .greater => "GREATER"
  | .greaterEqual => "GREATER_EQUAL"
  | .less => "LESS"
  | .lessEqual => "LESS_EQUAL"
  | .identifier => "IDENTIFIER"
  | .string => "STRING"
  | .number => "NUMBER"
  | .kwAnd => "AND"
  | .kwClass => "CLASS"
  | .kwElse => "ELSE"
  | .kwFalse => "FALSE"
  | .kwFun => "FUN"
  | .kwFor => "FOR"
  | .kwIf => "IF"
  | .kwNil => "NIL"
  | .kwOr => "OR"
  | .kwPrint => "PRINT"
  | .kwReturn => "RETURN"
  | .kwSuper => "SUPER"
  | .kwThis => "THIS"
  | .kwTrue => "TRUE"
  | .kwVar => "VAR"
  | .kwWhile => "WHILE"
  | .endOfInput => "EOF"

/-- The reserved words, in alphabetical order. -/
def keywords : List TokenKind :=
  [.kwAnd, .kwClass, .kwElse, .kwFalse, .kwFor, .kwFun, .kwIf, .kwNil, .kwOr, .kwPrint,
    .kwReturn, .kwSuper, .kwThis, .kwTrue, .kwVar, .kwWhile]

def keyword? (word : String) : Option TokenKind :=
  keywords.find? (·.text == word)

/-- Whether the kind is written like a reserved word. -/
def isKeyword (k : TokenKind) : Bool :=
  keywords.any (·.text == k.text)

def isLiteral (k : TokenKind) : Bool :=
  k = .number || k = .string || k = .kwTrue || k = .kwFalse || k = .kwNil

/-- The tokens of a single character that no character extends. -/
def singles : List (Char × TokenKind) :=
  [('(', .leftParen), (')', .rightParen), ('\x7b', .leftBrace), ('\x7d', .rightBrace),
    (',', .comma), ('.', .dot), ('-', .minus), ('+', .plus), (';', .semicolon),
    ('/', .slash), ('*', .star)]

/-- The characters that are a token alone and another one before an equals sign. -/
def compounds : List (Char × TokenKind × TokenKind) :=
  [('!', .bang, .bangEqual), ('=', .equal, .equalEqual), ('<', .less, .lessEqual),
    ('>', .greater, .greaterEqual)]

/-- Whether a statement or a declaration starts with a token of this kind. -/
def startsStatement : TokenKind → Bool
  | .kwClass | .kwFun | .kwVar | .kwFor | .kwIf | .kwWhile | .kwPrint | .kwReturn => true
  | _ => false

/-- Whether recovery stops at a token of this kind. -/
def isStop (k : TokenKind) : Bool :=
  k = .endOfInput || k.startsStatement

end TokenKind

/-- The levels of binary operators, from the loosest to the tightest. -/
inductive Level where
  | equality | comparison | term | factor
deriving DecidableEq, Repr

/-- The position of a level: a tighter one has a larger rank. -/
def Level.rank : Level → Nat
  | .equality => 0
  | .comparison => 1
  | .term => 2
  | .factor => 3

namespace TokenKind

/-- The level of a binary operator, `none` for any other kind. -/
def level? : TokenKind → Option Level
  | .bangEqual | .equalEqual => some .equality
  | .greater | .greaterEqual | .less | .lessEqual => some .comparison
  | .minus | .plus => some .term
  | .slash | .star => some .factor
  | _ => none

/-- Whether the kind is an operator before its operand. -/
def isUnaryOperator : TokenKind → Bool
  | .bang | .minus => true
  | _ => false

end TokenKind

end LoxReader
