import ExprLang.Expr.Operator
import ExprLang.Text.Decimal

namespace ExprLang

inductive Lexeme
  | identifier (name : String)
  | integer (n : Int64)
  | boolean (b : Bool)
  | leftParen | rightParen | leftBracket | rightBracket
  | comma | equals
  | plus | minus | star | slash | caret | greater | less | ampersand | pipe
  | comment | openComment | blank
  | endOfInput
deriving DecidableEq

structure Token where
  lexeme : Lexeme
  line : Nat
deriving DecidableEq

namespace Lexeme

def text : Lexeme → String
  | identifier x => "identifier '" ++ x ++ "'"
  | integer n => "integer " ++ Text.decimal n.toInt
  | boolean true => "'!'"
  | boolean false => "'?'"
  | leftParen => "'('"
  | rightParen => "')'"
  | leftBracket => "'['"
  | rightBracket => "']'"
  | comma => "','"
  | equals => "'='"
  | plus => "'+'"
  | minus => "'-'"
  | star => "'*'"
  | slash => "'/'"
  | caret => "'^'"
  | greater => "'>'"
  | less => "'<'"
  | ampersand => "'&'"
  | pipe => "'|'"
  | comment | openComment => "comment"
  | blank => "whitespace"
  | endOfInput => "end of input"

def operator? : Lexeme → Option BinaryOp
  | plus => some .add
  | minus => some .sub
  | star => some .mul
  | slash => some .div
  | caret => some .equal
  | greater => some .greater
  | less => some .less
  | ampersand => some .and
  | pipe => some .or
  | _ => none

def ofSymbol? : Char → Option Lexeme
  | '!' => some (boolean true)
  | '?' => some (boolean false)
  | '(' => some leftParen
  | ')' => some rightParen
  | '[' => some leftBracket
  | ']' => some rightBracket
  | ',' => some comma
  | '=' => some equals
  | '+' => some plus
  | '-' => some minus
  | '*' => some star
  | '/' => some slash
  | '^' => some caret
  | '>' => some greater
  | '<' => some less
  | '&' => some ampersand
  | '|' => some pipe
  | _ => none

def isTrivia : Lexeme → Bool
  | blank | comment => true
  | _ => false

end Lexeme

end ExprLang
