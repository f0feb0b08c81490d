import ExprLang.Proofs.Grammar.Cursor
import Mathlib.Order.Filter.AtTopBot.Basic

/-! Reading with a cursor along the whole list. Nothing bounds the loops. -/

namespace ExprLang

structure Cursor where
  place : Nat
  furthest : Nat

/-- Moves a cursor to a value or an error, unless its rounds are over before. -/
abbrev Walk (α : Type) : Type := ExceptT ParseError (StateT Cursor Option) α

inductive Reading : Type → Type
  | expression : Reading Expr
  | below (level : Nat) : Reading Expr
  | chain (level : Nat) (left : Expr) : Reading Expr
  | unary : Reading Expr
  | primary : Reading Expr
  | trailers (e : Expr) : Reading Expr
  | list (close : Lexeme) (x : Expectation) : Reading (List Expr)
  | items (close : Lexeme) (x : Expectation) : Reading (List Expr)
  | closing (opened : Nat) : Reading Bool
  | names (found : List String) : Reading (List String)
  | statement : Reading Statement
  | statements (found : List Statement) : Reading Program

namespace Walk

open ExprLang.Parser

variable (ts : List Token)

def current : Walk Token := do
  let c ← get
  return peek ts c.place

def moveTo (k : Nat) : Walk Unit := modify fun c => ⟨k, max c.furthest k⟩

def advance : Walk Unit := do
  let t ← current ts
  if t.lexeme = .endOfInput then return ()
  else
    let c ← get
    moveTo (c.place + 1)

def eat (l : Lexeme) : Walk Bool := do
  let t ← current ts
  if t.lexeme = l then
    advance ts
    return true
  else return false

def refuse {α : Type} (x : Expectation) : Walk α := do
  let t ← current ts
  throw (refusal x t)

def expect (l : Lexeme) (x : Expectation) : Walk Unit := do
  let t ← current ts
  if t.lexeme = l then advance ts else refuse ts x

def leaf? : Token → Option Expr
  | ⟨.integer k, line⟩ => some (.literal (.integer k) line)
  | ⟨.boolean b, line⟩ => some (.literal (.boolean b) line)
  | ⟨.identifier x, line⟩ => some (.identifier x line)
  | _ => none

section Round

-- What is read inside a round, with one round less.
variable (inner : ⦃α : Type⦄ → Reading α → Walk α)

def chain (level : Nat) (left : Expr) : Walk Expr := do
  let t ← current ts
  match operatorAt? level t.lexeme with
  | some op =>
    advance ts
    let right ← inner (.below level)
    inner (.chain level (.binary op left right t.line))
  | none => return left

def unary : Walk Expr := do
  let t ← current ts
  if t.lexeme = .minus then
    advance ts
    let e ← inner .unary
    return .negate e t.line
  else
    let e ← inner .primary
    inner (.trailers e)

def primary : Walk Expr := do
  let t ← current ts
  match leaf? t with
  | some e =>
    advance ts
    return e
  | none =>
    if t.lexeme = .leftParen then
      advance ts
      let e ← inner .expression
      expect ts .rightParen .closingParen
      return e
    else if t.lexeme = .leftBracket then
      advance ts
      let es ← inner (.list .rightBracket .closingBracket)
      return .vector es.toArray t.line
    else refuse ts .expression

def trailers (e : Expr) : Walk Expr := do
  let t ← current ts
  if t.lexeme = .leftParen then
    advance ts
    let es ← inner (.list .rightParen .closingParen)
    inner (.trailers (.call e es t.line))
  else if t.lexeme = .leftBracket then
    advance ts
    let i ← inner .expression
    expect ts .rightBracket .closingBracketAfterIndex
    inner (.trailers (.index e i t.line))
  else return e

def list (close : Lexeme) (x : Expectation) : Walk (List Expr) := do
  let closed ← eat ts close
  if closed then return [] else inner (.items close x)

def items (close : Lexeme) (x : Expectation) : Walk (List Expr) := do
  let e ← inner .expression
  let more ← eat ts .comma
  if more then
    let es ← inner (.items close x)
    return e :: es
  else
    expect ts close x
    return [e]

def closing : Nat → Walk Bool
  | 0 => do
    let t ← current ts
    return t.lexeme == .equals
  | opened + 1 => do
    let t ← current ts
    advance ts
    match t.lexeme with
    | .leftParen => inner (.closing (opened + 2))
    | .rightParen => inner (.closing opened)
    | .endOfInput => return false
    | _ => inner (.closing (opened + 1))

def probe : Walk Bool := do
  let t ← current ts
  match t.lexeme with
  | .identifier _ =>
    advance ts
    let opened ← eat ts .leftParen
    if opened then inner (.closing 1) else return false
  | _ => return false

def startsDefinition : Walk Bool := do
  let c ← get
  let found ← probe ts inner
  moveTo c.place
  return found

def parameter : Walk String := do
  let t ← current ts
  match t.lexeme with
  | .identifier x =>
    advance ts
    return x
  | .endOfInput => refuse ts .parameterName
  | l => throw ⟨.invalidParameter l, t.line⟩

def names (found : List String) : Walk (List String) := do
  let x ← parameter ts
  let more ← eat ts .comma
  if more then inner (.names (x :: found))
  else
    expect ts .rightParen .closingParen
    return (x :: found).reverse

def parameters : Walk (List String) := do
  let closed ← eat ts .rightParen
  if closed then return [] else inner (.names [])

def header : Walk Header := do
  let t ← current ts
  match t.lexeme with
  | .identifier f =>
    advance ts
    expect ts .leftParen .openingParenAfterName
    let params ← parameters ts inner
    expect ts .equals .equalsAfterParameters
    return ⟨f, params, t.line⟩
  | _ => refuse ts .functionName

def statement : Walk Statement := do
  let definition ← startsDefinition ts inner
  if definition then
    let hd ← header ts inner
    let body ← inner .expression
    return .definition ⟨hd.name, hd.params, body, hd.line⟩
  else
    let t ← current ts
    let e ← inner .expression
    return .expression e t.line

def statements (found : List Statement) : Walk Program := do
  let t ← current ts
  if t.lexeme = .endOfInput then return found.reverse
  else
    let s ← inner .statement
    inner (.statements (s :: found))

def round : ⦃α : Type⦄ → Reading α → Walk α
  | _, .expression => inner (.below BinaryOp.levels)
  | _, .below 0 => inner .unary
  | _, .below (level + 1) => do
    let left ← inner (.below level)
    inner (.chain level left)
  | _, .chain level left => chain ts inner level left
  | _, .unary => unary ts inner
  | _, .primary => primary ts inner
  | _, .trailers e => trailers ts inner e
  | _, .list close x => list ts inner close x
  | _, .items close x => items ts inner close x
  | _, .closing opened => closing ts inner opened
  | _, .names found => names ts inner found
  | _, .statement => statement ts inner
  | _, .statements found => statements ts inner found

end Round

def read : Nat → ⦃α : Type⦄ → Reading α → Walk α
  | 0, _, _ => fun _ => none
  | n + 1, _, r => round ts (read n) r

/-- However many more rounds there are, the reading comes to the same. -/
def Ends {α : Type} (r : Reading α) (c : Cursor) (a : Except ParseError α) (c' : Cursor) : Prop :=
  ∃ n, ∀ m, n ≤ m → read ts m r c = some (a, c')

end Walk

end ExprLang
