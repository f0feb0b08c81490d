import ExprLang.Parser.Basic

/-! Each construct is read by means of a reader that is given fewer tokens. -/

namespace ExprLang.Parser

variable {all : List Token}

def items (last : Nat) (inner : InnerReader all Expr) (close : Lexeme) (x : Expectation) :
    InnerReader all (List Expr) := fun ts h =>
  follow (fun _ => inner ts h) (le_self ts) fun e rest hr =>
    match rest with
    | ⟨.comma, _⟩ :: rest =>
      follow (fun _ => items last inner close x rest (by simp at hr; omega)) (by simp at hr; omega)
        fun es rest hs => .done (.ok (e :: es) rest (by simp at hr; omega))
    | rest =>
      match expect last close x rest with
      | .ok _ rest hs => .done (.ok [e] rest (by omega))
      | .fail err rest hs => .done (.fail err rest (by omega))
termination_by ts => ts.length
decreasing_by simp at hr; omega

def list (last : Nat) (inner : InnerReader all Expr) (close : Lexeme) (x : Expectation) :
    InnerReader all (List Expr) := fun ts h =>
  match expect last close x ts with
  | .ok _ rest hs => .done (.ok [] rest hs)
  | .fail _ _ _ => items last inner close x ts h

def primary (last : Nat) (inner : InnerReader all Expr) : Reader all Expr
  | ⟨.integer k, line⟩ :: rest, _ =>
    .done (.ok (.literal (.integer k) line) rest (lt_cons rest))
  | ⟨.boolean b, line⟩ :: rest, _ =>
    .done (.ok (.literal (.boolean b) line) rest (lt_cons rest))
  | ⟨.identifier x, line⟩ :: rest, _ =>
    .done (.ok (.identifier x line) rest (lt_cons rest))
  | ⟨.leftParen, _⟩ :: rest, h =>
    follow (fun _ => inner rest h) (Nat.le_succ _) fun e rest hr =>
      match expect last .rightParen .closingParen rest with
      | .ok _ rest hs => .done (.ok e rest (by simp; omega))
      | .fail err rest hs => .done (.fail err rest (by simp; omega))
  | ⟨.leftBracket, line⟩ :: rest, h =>
    follow (fun _ => list last inner .rightBracket .closingBracket rest h)
      (Nat.le_succ _) fun es rest hr => .done (.ok (.vector es.toArray line) rest (by simp; omega))
  | ts, _ => .done (.fail (unexpected last .expression ts) ts (le_self ts))

/-- The tokens `us` begin with the expression whose calls and indices are read. -/
def trailers (last : Nat) (inner : InnerReader all Expr) {us : List Token} (hu : us.length ≤ all.length)
    (e : Expr) : (ts : List Token) → ts.length < us.length → Deferred (Parsed us Expr)
  | ⟨.leftParen, line⟩ :: rest, h =>
    follow (fun _ => list last inner .rightParen .closingParen rest (by simp at h; omega))
      (by simp at h; omega) fun es rest hr =>
        trailers last inner hu (.call e es line) rest (by simp at h; omega)
  | ⟨.leftBracket, line⟩ :: rest, h =>
    follow (fun _ => inner rest (by simp at h; omega)) (by simp at h; omega) fun i rest hr =>
      match expect last .rightBracket .closingBracketAfterIndex rest with
      | .ok _ rest hs => trailers last inner hu (.index e i line) rest (by simp at h; omega)
      | .fail err rest hs => .done (.fail err rest (by simp at h; omega))
  | ts, h => .done (.ok e ts h)
termination_by ts => ts.length
decreasing_by all_goals simp; omega

def unary (last : Nat) (inner : InnerReader all Expr) : Reader all Expr
  | ⟨.minus, line⟩ :: rest, h =>
    follow (fun _ => unary last inner rest (Nat.le_of_lt h)) (Nat.le_succ _) fun e rest hr =>
      .done (.ok (.negate e line) rest (by simp; omega))
  | ts, h =>
    follow (fun _ => primary last inner ts h) (le_self ts) fun e rest hr =>
      trailers last inner h e rest hr
termination_by ts => ts.length

def operatorAt? (level : Nat) (l : Lexeme) : Option BinaryOp :=
  l.operator?.filter fun op => op.level == level

def chain (operand : Reader all Expr) (level : Nat) {us : List Token} (hu : us.length ≤ all.length)
    (left : Expr) : (ts : List Token) → ts.length < us.length → Deferred (Parsed us Expr)
  | [], h => .done (.ok left [] h)
  | t :: rest, h =>
    match operatorAt? level t.lexeme with
    | some op =>
      follow (fun _ => operand rest (by simp at h; omega)) (by simp at h; omega) fun right rest hr =>
        chain operand level hu (.binary op left right t.line) rest (by simp at h; omega)
    | none => .done (.ok left (t :: rest) h)
termination_by ts => ts.length
decreasing_by simp; omega

def below (operand : Reader all Expr) : Nat → Reader all Expr
  | 0 => operand
  | level + 1 => fun ts h =>
    follow (fun _ => below operand level ts h) (le_self ts) fun left rest hr =>
      chain (below operand level) level h left rest hr

def expression (last : Nat) (ts : List Token) : Deferred (Parsed ts Expr) :=
  below (unary last fun ts' (_ : ts'.length < ts.length) => expression last ts') BinaryOp.levels ts
    (le_self ts)
termination_by ts.length

end ExprLang.Parser
