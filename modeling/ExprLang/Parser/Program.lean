import ExprLang.Parser.Expression

/-! Definitions and expressions, told apart by a look at the tokens ahead. -/

namespace ExprLang.Parser

def closesBeforeEquals : Nat → List Token → Bool
  | _, [] => false
  | 0, t :: _ => t.lexeme == .equals
  | opened + 1, t :: ts =>
    match t.lexeme with
    | .leftParen => closesBeforeEquals (opened + 2) ts
    | .rightParen => closesBeforeEquals opened ts
    | _ => closesBeforeEquals (opened + 1) ts

def startsDefinition : List Token → Bool
  | ⟨.identifier _, _⟩ :: ⟨.leftParen, _⟩ :: ts => closesBeforeEquals 1 ts
  | _ => false

def moreParameters (last : Nat) {us : List Token} (names : List String) :
    (ts : List Token) → ts.length ≤ us.length → Parsed us (List String)
  | [], h => .fail (unexpected last .parameterName []) [] h
  | t :: rest, h =>
    match t.lexeme with
    | .identifier x =>
      match rest with
      | ⟨.comma, _⟩ :: rest => moreParameters last (x :: names) rest (by simp at h; omega)
      | rest =>
        match expect last .rightParen .closingParen rest with
        | .ok _ rest hs => .ok (x :: names).reverse rest (by simp at h; omega)
        | .fail e rest hs => .fail e rest (by simp at h; omega)
    | l => .fail ⟨.invalidParameter l, t.line⟩ (t :: rest) h

def parameters (last : Nat) (ts : List Token) : Parsed ts (List String) :=
  match expect last .rightParen .closingParen ts with
  | .ok _ rest hs => .ok [] rest hs
  | .fail _ _ _ => moreParameters last [] ts (le_self ts)

structure Header where
  name : String
  params : List String
  line : Nat

def header (last : Nat) : (ts : List Token) → Parsed ts Header
  | ⟨.identifier f, line⟩ :: rest =>
    match expect last .leftParen .openingParenAfterName rest with
    | .fail e rest h => .fail e rest (by simp; omega)
    | .ok _ rest h =>
      match parameters last rest with
      | .fail e rest h => .fail e rest (by simp; omega)
      | .ok params rest h =>
        match expect last .equals .equalsAfterParameters rest with
        | .fail e rest h => .fail e rest (by simp; omega)
        | .ok _ rest h => .ok ⟨f, params, line⟩ rest (by simp; omega)
  | ts => .fail (unexpected last .functionName ts) ts (le_self ts)

def firstLine (last : Nat) : List Token → Nat
  | [] => last
  | t :: _ => t.line

def statement (last : Nat) (ts : List Token) : Deferred (Parsed ts Statement) :=
  if startsDefinition ts then
    match header last ts with
    | .fail e rest h => .done (.fail e rest h)
    | .ok hd rest h =>
      follow (fun _ => expression last rest) (Nat.le_of_lt h) fun body rest hr =>
        .done (.ok (.definition ⟨hd.name, hd.params, body, hd.line⟩) rest (Nat.lt_trans hr h))
  else
    follow (fun _ => expression last ts) (le_self ts) fun e rest hr =>
      .done (.ok (.expression e (firstLine last ts)) rest hr)

def statements (last : Nat) (found : List Statement) :
    List Token → Except (ParseError × List Token) Program
  | [] => .ok found.reverse
  | t :: ts =>
    match (statement last (t :: ts)).result with
    | .ok s rest _h => statements last (s :: found) rest
    | .fail e rest _ => .error (e, rest)
termination_by ts => ts.length
decreasing_by exact _h

def body (ts : List Token) : List Token := ts.takeWhile (·.lexeme != .endOfInput)

def lastLine (ts : List Token) : Nat :=
  match ts.dropWhile (·.lexeme != .endOfInput) with
  | t :: _ => t.line
  | [] => (ts.getLast?.map (·.line)).getD 1

end ExprLang.Parser

namespace ExprLang

def parse (ts : List Token) : Except ParseError Program :=
  (Parser.statements (Parser.lastLine ts) [] (Parser.body ts)).mapError (·.1)

def parseExpression (ts : List Token) : Except ParseError (Expr × Nat) :=
  match (Parser.expression (Parser.lastLine ts) (Parser.body ts)).result with
  | .ok e rest _ => .ok (e, (Parser.body ts).length - rest.length)
  | .fail e _ _ => .error e

end ExprLang
