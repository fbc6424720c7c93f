import LoxReader.Expr.Basic
import LoxReader.SyntaxError

/-! # Reading an expression

One pass over the tokens with a stack of unfinished nodes. Where an operand has to start,
prefix operators and opening parentheses are pushed until a literal comes. Behind an operand,
a binary operator first completes the nodes that bind at least as tightly as it does, so a
chain on one level leans to the left; a closing parenthesis completes everything down to its
partner; anything else ends the expression. -/

namespace LoxReader

/-- A node that waits for the operand on its right. -/
inductive Frame where
  | group (openLine : Int)
  | unary (operator : Token)
  | binary (left : Expr) (operator : Token) (level : Level)
deriving DecidableEq

/-- A place in a token list: the number of tokens before it, and the line of the last token
that went into an expression. -/
structure Place where
  position : Nat := 0
  lastLine : Option Int := none
deriving DecidableEq

/-- What reading comes to: a tree or an error, the place where it ended, and the tokens from
there on. -/
structure Reading where
  result : Except SyntaxError Expr
  place : Place
  rest : List Token

/-- The place behind a token that goes into an expression. -/
def Place.advance (p : Place) (t : Token) : Place :=
  ⟨p.position + 1, some t.line⟩

/-- The line for what is missing at the end of the tokens: that of the last token used, or
else that of the token for the end, or else the first line. -/
def Place.endLine (p : Place) (ending : Option Token) : Int :=
  p.lastLine.getD ((ending.map (·.line)).getD 1)

/-- Completes the topmost nodes that bind at least as tightly as a level. -/
def completeTo (level : Level) (operand : Expr) : List Frame → Expr × List Frame
  | .unary operator :: frames => completeTo level (.unary operator operand) frames
  | .binary left operator level' :: frames =>
    if level.rank ≤ level'.rank then completeTo level (.binary left operator operand) frames
    else (operand, .binary left operator level' :: frames)
  | frames => (operand, frames)

/-- Completes all nodes above the innermost open group, or all there are. -/
def complete (operand : Expr) : List Frame → Expr × List Frame
  | .unary operator :: frames => complete (.unary operator operand) frames
  | .binary left operator _ :: frames => complete (.binary left operator operand) frames
  | frames => (operand, frames)

/-- The error of a token that does not start an operand where one has to start. Behind an
opening parenthesis, the closing one makes the group empty. -/
def refusal (frames : List Frame) (t : Token) : SyntaxError :=
  match frames, t.kind with
  | .group _ :: _, .rightParen => .emptyGroup t.line
  | _, _ => .notAnOperand t

mutual

/-- Reads on where an operand has to start. -/
def readOperand (frames : List Frame) (place : Place) : List Token → Reading
  | [] => ⟨.error (.missingOperand (place.endLine none)), place, []⟩
  | t :: rest =>
    if t.kind = .endOfInput then
      ⟨.error (.missingOperand (place.endLine (some t))), place, t :: rest⟩
    else if t.kind = .leftParen then
      readOperand (.group t.line :: frames) (place.advance t) rest
    else if t.kind.isUnaryOperator then
      readOperand (.unary t :: frames) (place.advance t) rest
    else
      match t.literal? with
      | some value => readOperator (.literal value) frames (place.advance t) rest
      | none => ⟨.error (refusal frames t), place, t :: rest⟩

/-- Reads on behind an operand. -/
def readOperator (operand : Expr) (frames : List Frame) (place : Place) : List Token → Reading
  | [] =>
    match complete operand frames with
    | (_, .group openLine :: _) =>
      ⟨.error (.unclosedGroup (place.endLine none) openLine), place, []⟩
    | (tree, _) => ⟨.ok tree, place, []⟩
  | t :: rest =>
    match t.kind.level? with
    | some level =>
      let (left, frames) := completeTo level operand frames
      readOperand (.binary left t level :: frames) (place.advance t) rest
    | none =>
      match complete operand frames with
      | (inner, .group openLine :: frames) =>
        if t.kind = .rightParen then
          readOperator (.group inner) frames (place.advance t) rest
        else ⟨.error (.unclosedGroup t.line openLine), place, t :: rest⟩
      | (tree, _) => ⟨.ok tree, place, t :: rest⟩

end

/-- Reads one expression from a place on. What follows it is left unread. -/
def readExpr (place : Place) (tokens : List Token) : Reading :=
  readOperand [] place tokens

end LoxReader
