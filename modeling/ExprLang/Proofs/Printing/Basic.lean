import ExprLang.Proofs.Lexing.Basic
import ExprLang.Proofs.Spelling.Reading

/-! One blank between tokens, one line for each statement, and no needless parentheses. -/

namespace ExprLang

namespace Lexeme

def spelling : Lexeme → String
  | identifier x => x
  | integer n => Text.decimal n.toInt
  | boolean true => "!"
  | boolean false => "?"
  | leftParen => "("
  | rightParen => ")"
  | leftBracket => "["
  | rightBracket => "]"
  | comma => ","
  | equals => "="
  | plus => "+"
  | minus => "-"
  | star => "*"
  | slash => "/"
  | caret => "^"
  | greater => ">"
  | less => "<"
  | ampersand => "&"
  | pipe => "|"
  | comment | openComment | blank | endOfInput => ""

def listed : List (List Lexeme) → List Lexeme
  | [] => []
  | [w] => w
  | w :: v :: ws => w ++ comma :: listed (v :: ws)

end Lexeme

def Literal.lexeme : Literal → Lexeme
  | integer n => .integer n
  | boolean b => .boolean b

def BinaryOp.lexeme : BinaryOp → Lexeme
  | add => .plus
  | sub => .minus
  | mul => .star
  | div => .slash
  | equal => .caret
  | greater => .greater
  | less => .less
  | and => .ampersand
  | or => .pipe

namespace Expr

def looseness : Expr → Nat
  | literal _ _ | identifier _ _ | call _ _ _ | vector _ _ | index _ _ _ => 0
  | negate _ _ => 1
  | binary op _ _ _ => op.level + 2

def enclosed (allowed : Nat) (e : Expr) (w : List Lexeme) : List Lexeme :=
  if e.looseness ≤ allowed then w else .leftParen :: (w ++ [.rightParen])

mutual

/-- A left operand may bind as loosely as its operator, a right one less loosely. -/
def lexemes : Expr → List Lexeme
  | literal v _ => [v.lexeme]
  | identifier x _ => [.identifier x]
  | negate a _ => .minus :: a.enclosed 1 a.lexemes
  | binary op a b _ =>
    a.enclosed (op.level + 2) a.lexemes ++ op.lexeme :: b.enclosed (op.level + 1) b.lexemes
  | call f as _ => f.enclosed 0 f.lexemes ++ .leftParen :: (Lexeme.listed (lexemesAll as) ++ [.rightParen])
  | vector ⟨es⟩ _ => .leftBracket :: (Lexeme.listed (lexemesAll es) ++ [.rightBracket])
  | index a i _ => a.enclosed 0 a.lexemes ++ .leftBracket :: (i.lexemes ++ [.rightBracket])

def lexemesAll : List Expr → List (List Lexeme)
  | [] => []
  | e :: es => e.lexemes :: lexemesAll es

end

mutual

def integers : Expr → List Int64
  | literal (.integer n) _ => [n]
  | literal (.boolean _) _ => []
  | identifier _ _ => []
  | negate a _ => a.integers
  | binary _ a b _ => a.integers ++ b.integers
  | call f as _ => f.integers ++ integersAll as
  | vector ⟨es⟩ _ => integersAll es
  | index a i _ => a.integers ++ i.integers

def integersAll : List Expr → List Int64
  | [] => []
  | e :: es => e.integers ++ integersAll es

end

end Expr

namespace Statement

def lexemes : Statement → List Lexeme
  | definition d => .identifier d.name :: .leftParen ::
      (Lexeme.listed (d.params.map fun x => [.identifier x]) ++ .rightParen :: .equals :: d.body.lexemes)
  | expression e _ => e.lexemes

def text (st : Statement) : String := " ".intercalate (st.lexemes.map Lexeme.spelling)

def names : Statement → List String
  | definition d => d.name :: (d.params ++ d.body.names)
  | expression e _ => e.names

def integers : Statement → List Int64
  | definition d => d.body.integers
  | expression e _ => e.integers

end Statement

def Program.text (p : Program) : String := "\n".intercalate (p.map Statement.text)

example : Statement.text (.expression (.index (.binary .sub (.literal (.integer 1) 1)
    (.binary .sub (.literal (.integer 2) 1) (.negate (.identifier "x" 1) 1) 1) 1)
      (.vector #[.identifier "y" 1, .literal (.boolean true) 1] 1) 1) 1) =
    "( 1 - ( 2 - - x ) ) [ [ y , ! ] ]" := by
  cbv

structure Writable (xs : List String) (ns : List Int64) : Prop where
  identifiers : ∀ x ∈ xs, Lexing.Word .identifier x.toList
  nonneg : ∀ n ∈ ns, 0 ≤ n.toInt

inductive Lexeme.Printable : Lexeme → Prop
  | identifier {x : String} : Lexing.Word .identifier x.toList → Printable (.identifier x)
  | integer {n : Int64} : 0 ≤ n.toInt → Printable (.integer n)
  | symbol {c : Char} {l : Lexeme} : (c, l) ∈ Lexing.symbols → Printable l

section Printable

variable {xs ys : List String} {ms ns : List Int64} {w : List Lexeme}

lemma writable_append :
    Writable (xs ++ ys) (ms ++ ns) ↔ Writable xs ms ∧ Writable ys ns := by
  constructor
  · rintro ⟨hx, hn⟩
    rw [List.forall_mem_append] at hx hn
    exact ⟨⟨hx.1, hn.1⟩, ⟨hx.2, hn.2⟩⟩
  · rintro ⟨h, h'⟩
    exact ⟨List.forall_mem_append.2 ⟨h.identifiers, h'.identifiers⟩,
      List.forall_mem_append.2 ⟨h.nonneg, h'.nonneg⟩⟩

lemma printable_symbol {l : Lexeme} (h : l ∈ Lexing.symbols.map Prod.snd) : l.Printable := by
  obtain ⟨⟨c, _⟩, hm, rfl⟩ := List.mem_map.1 h
  exact .symbol hm

lemma printable_operator (op : BinaryOp) : op.lexeme.Printable := by
  apply printable_symbol
  cases op <;> decide

lemma printable_bracketed {l r : Lexeme} (hl : l ∈ Lexing.symbols.map Prod.snd)
    (hr : r ∈ Lexing.symbols.map Prod.snd) (hw : ∀ l ∈ w, l.Printable) :
    ∀ k ∈ l :: (w ++ [r]), k.Printable := by
  rw [List.forall_mem_cons, List.forall_mem_append, List.forall_mem_singleton]
  exact ⟨printable_symbol hl, hw, printable_symbol hr⟩

lemma printable_enclosed (e : Expr) (n : Nat) (hw : ∀ l ∈ w, l.Printable) :
    ∀ l ∈ e.enclosed n w, l.Printable := by
  rw [Expr.enclosed]
  split
  · exact hw
  · exact printable_bracketed (by decide) (by decide) hw

lemma printable_listed {ws : List (List Lexeme)} (h : ∀ w ∈ ws, ∀ l ∈ w, l.Printable) :
    ∀ l ∈ Lexeme.listed ws, l.Printable := by
  fun_induction Lexeme.listed ws with
  | case1 => exact nofun
  | case2 w => exact h w List.mem_cons_self
  | case3 w v ws ih =>
    rw [List.forall_mem_append, List.forall_mem_cons]
    have hc : Lexeme.comma.Printable := printable_symbol (by decide)
    exact ⟨h w List.mem_cons_self, hc, ih fun u hu => h u (List.mem_cons_of_mem w hu)⟩

mutual

theorem Expr.printable : (e : Expr) → Writable e.names e.integers → ∀ l ∈ e.lexemes, l.Printable
  | .literal (.integer n) _, h => List.forall_mem_singleton.2 (.integer (h.nonneg n List.mem_cons_self))
  | .literal (.boolean b) _, _ => List.forall_mem_singleton.2 (printable_symbol (by cases b <;> decide))
  | .identifier x _, h => List.forall_mem_singleton.2 (.identifier (h.identifiers x List.mem_cons_self))
  | .negate a _, h =>
    List.forall_mem_cons.2 ⟨printable_symbol (by decide), printable_enclosed a 1 (a.printable h)⟩
  | .binary op a b _, h => by
    obtain ⟨ha, hb⟩ := writable_append.1 h
    rw [lexemes, List.forall_mem_append, List.forall_mem_cons]
    exact ⟨printable_enclosed a _ (a.printable ha), printable_operator op,
      printable_enclosed b _ (b.printable hb)⟩
  | .call f as _, h => by
    obtain ⟨hf, has⟩ := writable_append.1 h
    rw [lexemes, List.forall_mem_append]
    exact ⟨printable_enclosed f 0 (f.printable hf),
      printable_bracketed (by decide) (by decide) (printable_listed (printableAll as has))⟩
  | .vector ⟨es⟩ _, h =>
    printable_bracketed (by decide) (by decide) (printable_listed (printableAll es h))
  | .index a i _, h => by
    obtain ⟨ha, hi⟩ := writable_append.1 h
    rw [lexemes, List.forall_mem_append]
    exact ⟨printable_enclosed a 0 (a.printable ha),
      printable_bracketed (by decide) (by decide) (i.printable hi)⟩

theorem Expr.printableAll : (es : List Expr) → Writable (namesAll es) (integersAll es) →
    ∀ w ∈ lexemesAll es, ∀ l ∈ w, l.Printable
  | [], _ => nofun
  | e :: es, h => by
    obtain ⟨he, hes⟩ := writable_append.1 h
    rw [lexemesAll, List.forall_mem_cons]
    exact ⟨e.printable he, printableAll es hes⟩

end

theorem Statement.printable (st : Statement) (h : Writable st.names st.integers) :
    ∀ l ∈ st.lexemes, l.Printable := by
  cases st with
  | definition d =>
    have hp {l : Lexeme} (hl : l ∈ Lexing.symbols.map Prod.snd) : l.Printable := printable_symbol hl
    obtain ⟨hx, hn⟩ := h
    rw [names, List.forall_mem_cons, List.forall_mem_append] at hx
    simp only [lexemes, List.forall_mem_cons, List.forall_mem_append]
    refine ⟨.identifier hx.1, hp (by decide), printable_listed ?_, hp (by decide), hp (by decide),
      d.body.printable ⟨hx.2.2, hn⟩⟩
    intro w hw
    obtain ⟨x, hm, rfl⟩ := List.mem_map.1 hw
    exact List.forall_mem_singleton.2 (.identifier (hx.2.1 x hm))
  | expression e line => exact e.printable h

end Printable

end ExprLang
