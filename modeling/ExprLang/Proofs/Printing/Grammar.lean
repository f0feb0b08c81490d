import ExprLang.Proofs.Grammar.Completeness
import ExprLang.Proofs.Printing.Basic

namespace ExprLang

open Grammar

def tokensOn (line : Nat) (w : List Lexeme) : List Token := w.map fun l => ⟨l, line⟩

def Grammar.Bound : Nat → List Token → Expr → Prop
  | 0 => Trailed
  | n + 1 => Binary n

namespace Grammar

variable {m n line : Nat} {w : List Token} {e : Expr}

lemma Binary.mono (h : Binary m w e) (hn : m ≤ n) : Binary n w e := by
  induction hn with
  | refl => exact h
  | step _ ih => exact .operand ih

lemma Bound.mono (h : Bound m w e) (hn : m ≤ n) : Bound n w e := by
  cases m with
  | zero =>
    cases n with
    | zero => exact h
    | succ n => exact Binary.mono (.unary (.trailed h)) n.zero_le
  | succ m =>
    cases n with
    | zero => exact (Nat.not_succ_le_zero m hn).elim
    | succ n => exact Binary.mono h (Nat.le_of_succ_le_succ hn)

lemma Bound.unary (h : Bound 1 w e) : Unary w e := by
  cases h with
  | unary h => exact h

lemma operator_lexeme (op : BinaryOp) : Operator op.level op.lexeme op := by
  cases op <;> constructor

end Grammar

namespace Expr

lemma looseness_le (e : Expr) : e.looseness ≤ 7 := by
  cases e with
  | binary op a b line =>
    have hl := op.level_lt
    rw [BinaryOp.levels] at hl
    rw [looseness]
    omega
  | _ => simp [looseness]

lemma bound_enclosed {line : Nat} {e e' : Expr} {w : List Lexeme} (n : Nat)
    (h : Bound e.looseness (tokensOn line w) e') : Bound n (tokensOn line (e.enclosed n w)) e' := by
  rw [enclosed]
  split
  · exact h.mono ‹_›
  · have hw : tokensOn line (.leftParen :: (w ++ [.rightParen])) =
        ⟨.leftParen, line⟩ :: (tokensOn line w ++ [⟨.rightParen, line⟩]) := by simp [tokensOn]
    have he : Binary 6 (tokensOn line w) e' := h.mono e.looseness_le
    have ht : Bound 0 (⟨.leftParen, line⟩ :: (tokensOn line w ++ [⟨.rightParen, line⟩])) e' :=
      .primary (.group he)
    rw [hw]
    exact ht.mono n.zero_le

variable (line : Nat)

mutual

theorem bound : (e : Expr) → Bound e.looseness (tokensOn line e.lexemes) (e.respell id fun _ => line)
  | .literal (.integer _) _ => .primary .integer
  | .literal (.boolean _) _ => .primary .boolean
  | .identifier _ _ => .primary .identifier
  | .negate a _ => Binary.unary (.negate (bound_enclosed 1 (bound a)).unary)
  | .binary op a b _ => by
    have ha := bound_enclosed (op.level + 2) (bound a)
    have hb := bound_enclosed (op.level + 1) (bound b)
    rw [lexemes, tokensOn, List.map_append, List.map_cons]
    exact .apply ha (operator_lexeme op) hb
  | .call f as _ => by
    have hf := bound_enclosed 0 (bound f)
    rw [lexemes, tokensOn, List.map_append, List.map_cons, List.map_append, List.map_singleton]
    exact .call hf (arguments as)
  | .vector ⟨es⟩ _ => by
    rw [lexemes, tokensOn, List.map_cons, List.map_append, List.map_singleton]
    exact .primary (.vector (arguments es))
  | .index a i _ => by
    have ha := bound_enclosed 0 (bound a)
    have hi : Binary 6 _ _ := (bound i).mono i.looseness_le
    rw [lexemes, tokensOn, List.map_append, List.map_cons, List.map_append, List.map_singleton]
    exact .index ha hi

theorem arguments : (es : List Expr) →
    Arguments (tokensOn line (Lexeme.listed (lexemesAll es))) (respellAll id (fun _ => line) es)
  | [] => .empty
  | e :: es => .listed (sequence (e :: es) (List.cons_ne_nil e es))

theorem sequence : (es : List Expr) → es ≠ [] →
    Sequence (tokensOn line (Lexeme.listed (lexemesAll es))) (respellAll id (fun _ => line) es)
  | [], h => (h rfl).elim
  | [e], _ => .one ((bound e).mono e.looseness_le)
  | e :: f :: es, _ => by
    have he : Binary 6 _ _ := (bound e).mono e.looseness_le
    rw [lexemesAll, lexemesAll, Lexeme.listed, tokensOn, List.map_append, List.map_cons]
    exact .more he (sequence (f :: es) (List.cons_ne_nil f es))

end

end Expr

section Statements

variable (line : Nat)

lemma names_listed (xs : List String) (h : xs ≠ []) :
    Names (tokensOn line (Lexeme.listed (xs.map fun x => [.identifier x]))) xs := by
  induction xs with
  | nil => exact (h rfl).elim
  | cons x xs ih =>
    cases xs with
    | nil => exact .one
    | cons y ys => exact .more (ih (List.cons_ne_nil y ys))

lemma parameters_listed (xs : List String) :
    Parameters (tokensOn line (Lexeme.listed (xs.map fun x => [.identifier x]))) xs := by
  cases xs with
  | nil => exact .empty
  | cons x xs => exact .listed (names_listed line (x :: xs) (List.cons_ne_nil x xs))

theorem Statement.sentence (st : Statement) :
    Sentence (tokensOn line st.lexemes) (st.renumber fun _ => line) := by
  cases st with
  | definition d =>
    have he : Binary 6 _ _ := (d.body.bound line).mono d.body.looseness_le
    simp only [lexemes, tokensOn, List.map_cons, List.map_append]
    exact .definition (parameters_listed line d.params) he
  | expression e l =>
    have he : Binary 6 (tokensOn line e.lexemes) (e.respell id fun _ => line) :=
      (e.bound line).mono e.looseness_le
    rw [lexemes]
    cases hw : e.lexemes with
    | nil =>
      obtain ⟨_, hf, -⟩ := he.front
      rw [hw] at hf
      cases hf
    | cons l w =>
      rw [hw] at he
      exact .expression he

def tokensFromLine : Nat → Program → List Token
  | _, [] => []
  | line, st :: p => tokensOn line st.lexemes ++ tokensFromLine (line + 1) p

def numberedFrom : Nat → Program → Program
  | _, [] => []
  | line, st :: p => st.renumber (fun _ => line) :: numberedFrom (line + 1) p

theorem following_tokens (p : Program) (h : ∀ st ∈ p, ∀ l, st.lexemes.head? = some l → l.resumes) :
    Following (tokensFromLine line p) (numberedFrom line p) := by
  induction p generalizing line with
  | nil => exact .nil
  | cons st p ih =>
    obtain ⟨hst, hp⟩ := List.forall_mem_cons.1 h
    have hs := st.sentence line
    rw [tokensFromLine, numberedFrom]
    cases hw : st.lexemes with
    | nil =>
      rw [hw] at hs
      obtain ⟨_, _, hn⟩ := hs.exists_cons
      cases hn
    | cons l w =>
      rw [hw] at hs
      have hl : l.resumes := hst l (by rw [hw, List.head?_cons])
      exact .cons hl hs (ih (line + 1) hp)

theorem derives_tokens (p : Program)
    (h : ∀ st ∈ p.tail, ∀ l, st.lexemes.head? = some l → l.resumes) :
    Derives (tokensFromLine line p) (numberedFrom line p) := by
  cases p with
  | nil => exact .nil
  | cons st p => exact .cons (st.sentence line) (following_tokens (line + 1) p h)

end Statements

end ExprLang
