namespace ExprLang

inductive BinaryOp
  | add | sub | mul | div | equal | greater | less | and | or
deriving DecidableEq

namespace BinaryOp

def symbol : BinaryOp → String
  | add => "+"
  | sub => "-"
  | mul => "*"
  | div => "/"
  | equal => "^"
  | greater => ">"
  | less => "<"
  | and => "&"
  | or => "|"

def level : BinaryOp → Nat
  | mul | div => 0
  | add | sub => 1
  | greater | less => 2
  | equal => 3
  | and => 4
  | or => 5

def levels : Nat := 6

theorem level_lt (op : BinaryOp) : op.level < levels := by cases op <;> decide

end BinaryOp

end ExprLang
