import ExprLang.Expr.Basic
import ExprLang.Text.Decimal
import ExprLang.Text.Quoted

namespace ExprLang

def Literal.listing : Literal → String
  | integer n => "Integer(" ++ Text.decimal n.toInt ++ ")"
  | boolean true => "Bool(true)"
  | boolean false => "Bool(false)"

def BinaryOp.listing : BinaryOp → String
  | add => "Add"
  | sub => "Sub"
  | mul => "Mul"
  | div => "Div"
  | equal => "Equal"
  | greater => "Greater"
  | less => "Less"
  | and => "And"
  | or => "Or"

namespace Expr

def listLine (text : String) (line : Nat) : String :=
  text ++ ", line: " ++ Text.decimal line ++ " \x7d"

mutual

def list (text : String) : Expr → String
  | literal v line => listLine (text ++ "Literal \x7b value: " ++ v.listing) line
  | identifier x line => listLine (text ++ "Identifier \x7b name: " ++ Text.quoted x) line
  | negate a line => listLine (a.list (text ++ "UnaryOp \x7b op: Negate, expr: ")) line
  | binary op a b line =>
    listLine (b.list (a.list (text ++ "BinaryOp \x7b left: ") ++ ", op: " ++ op.listing ++ ", right: "))
      line
  | call f as line =>
    listLine (listAll (f.list (text ++ "Call \x7b callee: ") ++ ", arguments: [") as ++ "]") line
  | vector ⟨es⟩ line => listLine (listAll (text ++ "VectorLiteral \x7b elements: [") es ++ "]") line
  | index a i line =>
    listLine (i.list (a.list (text ++ "Index \x7b target: ") ++ ", index: ")) line

def listAll (text : String) : List Expr → String
  | [] => text
  | e :: es => listMore (e.list text) es

def listMore (text : String) : List Expr → String
  | [] => text
  | e :: es => listMore (e.list (text ++ ", ")) es

end

end Expr

end ExprLang
