import ExprLang.Token.Basic
import ExprLang.Value.Basic

namespace ExprLang

inductive LexCause
  | unexpectedCharacter (c : Char)
  | unterminatedComment
  | integerTooLarge (digits : List Char)
deriving DecidableEq

structure LexError where
  cause : LexCause
  line : Nat
deriving DecidableEq

inductive Expectation
  | expression
  | closingParen
  | closingBracket
  | closingBracketAfterIndex
  | functionName
  | openingParenAfterName
  | equalsAfterParameters
  | parameterName
deriving DecidableEq

inductive ParseCause
  | unexpectedToken (found : Lexeme) (expected : Expectation)
  | unexpectedEnd (expected : Expectation)
  | invalidParameter (found : Lexeme)
deriving DecidableEq

structure ParseError where
  cause : ParseCause
  line : Nat
deriving DecidableEq

inductive EvalCause
  | unknownIdentifier (name : String)
  | indexNotInteger (found : Shape)
  | indexOutOfBounds (index : Int64) (length : Nat)
  | notIndexable (found : Shape)
  | invalidOperand (operand : Shape)
  | invalidOperands (op : BinaryOp) (left right : Shape)
  | notCallable (found : Shape)
  | argumentCount (expected found : Nat)
  | divisionByZero
  | overflow
  | callDepth (limit : Nat)
deriving DecidableEq

structure EvalError where
  cause : EvalCause
  line : Nat
deriving DecidableEq

inductive Error
  | lex (e : LexError)
  | parse (e : ParseError)
  | eval (e : EvalError)
deriving DecidableEq

def LexCause.text : LexCause → String
  | unexpectedCharacter c => "Unexpected character '" ++ c.toString ++ "'."
  | unterminatedComment => "Comment is never closed; expected a closing '."
  | integerTooLarge ds => "Integer literal " ++ String.ofList ds ++ " is too large."

def Expectation.text : Expectation → String
  | expression => "an expression"
  | closingParen => "')'"
  | closingBracket => "']'"
  | closingBracketAfterIndex => "']' after index"
  | functionName => "a function name"
  | openingParenAfterName => "'(' after function name"
  | equalsAfterParameters => "'=' after parameter list"
  | parameterName => "a parameter name"

def ParseCause.text : ParseCause → String
  | unexpectedToken found expected =>
      "Unexpected token " ++ found.text ++ ", expected " ++ expected.text ++ "."
  | unexpectedEnd expected => "Unexpected end of input, expected " ++ expected.text ++ "."
  | invalidParameter found =>
      "Invalid parameter " ++ found.text ++
        "; parameters must be identifiers. Example: f(x, y) = x + y"

def EvalCause.text : EvalCause → String
  | unknownIdentifier x => "Unknown identifier '" ++ x ++ "'."
  | indexNotInteger found => "Index must be an integer, found " ++ found.text ++ "."
  | indexOutOfBounds i n =>
      "Index out of bounds. Length is " ++ Text.decimal n ++ ", but found " ++
        Text.decimal i.toInt ++ " instead."
  | notIndexable found => "Expected a vector to index into, found " ++ found.text ++ "."
  | invalidOperand a => "Cannot apply '-' to " ++ a.text ++ "."
  | invalidOperands op a b =>
      "Cannot apply '" ++ op.symbol ++ "' to " ++ a.text ++ " and " ++ b.text ++ "."
  | notCallable found => "Expected a function to call, found " ++ found.text ++ "."
  | argumentCount expected found =>
      "Argument count mismatch. Expected " ++ Text.decimal expected ++ ", but found " ++
        Text.decimal found ++ "."
  | divisionByZero => "Division by zero."
  | overflow => "Integer overflow while trying to compute result."
  | callDepth limit => "Maximum call depth of " ++ Text.decimal limit ++ " exceeded."

def Error.message : Error → String
  | lex e => "Lex error on line " ++ Text.decimal e.line ++ ": " ++ e.cause.text
  | parse e => "Parse error on line " ++ Text.decimal e.line ++ ": " ++ e.cause.text
  | eval e => "Evaluation error on line " ++ Text.decimal e.line ++ ": " ++ e.cause.text

end ExprLang
