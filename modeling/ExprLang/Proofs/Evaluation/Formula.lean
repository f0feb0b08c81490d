import ExprLang.Proofs.Evaluation.BigStep
import ExprLang.Proofs.Evaluation.Related
import Mathlib.Data.Int.Bitwise

/-! Literals and operators alone, over integers of any size. -/

namespace ExprLang

/-- Some bit is set, in two's complement without end. -/
def SomeBit (n : Int) : Prop := ∃ i, n.testBit i

lemma someBit_iff (n : Int) : SomeBit n ↔ n ≠ 0 := by
  constructor
  · rintro ⟨i, hi⟩ rfl
    have h0 : Nat.testBit 0 i = true := hi
    rw [Nat.zero_testBit] at h0
    cases h0
  · intro hn
    cases n with
    | ofNat m =>
      have hm : m ≠ 0 := by
        rintro rfl
        exact hn rfl
      exact Nat.exists_testBit_of_ne_zero hm
    | negSucc m =>
      refine ⟨m, ?_⟩
      rw [Int.testBit, Nat.testBit_lt_two_pow Nat.lt_two_pow_self]
      rfl

instance : DecidablePred SomeBit := fun n => decidable_of_iff (n ≠ 0) (someBit_iff n).symm

lemma testBit_toInt {w : Nat} (x : BitVec w) (i : Nat) :
    x.toInt.testBit i = if i < w then x.getLsbD i else x.msb := by
  rw [BitVec.toInt_eq_msb_cond]
  split
  · rename_i hm
    have hx := x.isLt
    -- As an integer it is the complement of a natural number, with every bit turned over.
    have hn : (x.toNat : Int) - (2 ^ w : Nat) = Int.negSucc (2 ^ w - (x.toNat + 1)) := by omega
    rw [hn, Int.testBit, Nat.testBit_two_pow_sub_succ hx, BitVec.testBit_toNat, hm]
    split <;> simp [*]
  · rename_i hm
    change x.toNat.testBit i = _
    rw [BitVec.testBit_toNat]
    split
    · rfl
    · rename_i hi
      rw [BitVec.getLsbD_of_ge x i (Nat.not_lt.1 hi)]
      exact (Bool.not_eq_true _ ▸ hm).symm

lemma someBit_iff_ne_zero {n : Int} {k : Int64} (h : ∀ i, n.testBit i = k.toInt.testBit i) :
    SomeBit n ↔ k ≠ 0 := by
  have hs : SomeBit n ↔ SomeBit k.toInt := exists_congr fun i => by rw [h]
  rw [hs, someBit_iff, ← Int64.toInt_zero, Ne, Ne, Int64.toInt_inj]

lemma someBit_land (a b : Int64) : SomeBit (a.toInt.land b.toInt) ↔ a &&& b ≠ 0 := by
  refine someBit_iff_ne_zero fun i => ?_
  rw [Int.testBit_land, Int64.toInt, Int64.toInt, Int64.toInt, testBit_toInt, testBit_toInt,
    testBit_toInt, Int64.toBitVec_and, BitVec.getLsbD_and, BitVec.msb_and]
  split <;> rfl

lemma someBit_lor (a b : Int64) : SomeBit (a.toInt.lor b.toInt) ↔ a ||| b ≠ 0 := by
  refine someBit_iff_ne_zero fun i => ?_
  rw [Int.testBit_lor, Int64.toInt, Int64.toInt, Int64.toInt, testBit_toInt, testBit_toInt,
    testBit_toInt, Int64.toBitVec_or, BitVec.getLsbD_or, BitVec.msb_or]
  split <;> rfl

def BinaryOp.exact : BinaryOp → Int → Int → Int
  | add, a, b => a + b
  | sub, a, b => a - b
  | mul, a, b => a * b
  | div, a, b => a.tdiv b
  | equal, a, b => if a = b then 1 else 0
  | greater, a, b => if a > b then 1 else 0
  | less, a, b => if a < b then 1 else 0
  | and, a, b => if SomeBit (a.land b) then 1 else 0
  | or, a, b => if SomeBit (a.lor b) then 1 else 0

def Literal.exact : Literal → Int
  | integer n => n.toInt
  | boolean b => if b then 1 else 0

inductive Operation
  | negate (a : Int) (line : Nat)
  | binary (op : BinaryOp) (a b : Int) (line : Nat)

namespace Operation

def line : Operation → Nat
  | negate _ line | binary _ _ _ line => line

def result : Operation → Int
  | negate a _ => -a
  | binary op a b _ => op.exact a b

def DividesByZero : Operation → Prop
  | negate _ _ => False
  | binary op _ b _ => op = .div ∧ b = 0

def Overflows (o : Operation) : Prop :=
  ¬ (Int64.minValue.toInt ≤ o.result ∧ o.result ≤ Int64.maxValue.toInt)

instance : DecidablePred DividesByZero
  | negate _ _ => inferInstanceAs (Decidable False)
  | binary op _ b _ => inferInstanceAs (Decidable (op = .div ∧ b = 0))

instance (o : Operation) : Decidable o.Overflows :=
  inferInstanceAs (Decidable (¬ (_ ∧ _)))

def error? (o : Operation) : Option EvalError :=
  if o.DividesByZero then some ⟨.divisionByZero, o.line⟩
  else if o.Overflows then some ⟨.overflow, o.line⟩
  else none

def evaluate (o : Operation) : Outcome Int :=
  match o.error? with
  | none => .ok o.result
  | some err => .error err

end Operation

inductive Formula
  | literal (v : Literal) (line : Nat)
  | negate (a : Formula) (line : Nat)
  | binary (op : BinaryOp) (a b : Formula) (line : Nat)

namespace Formula

def expr : Formula → Expr
  | literal v line => .literal v line
  | negate a line => .negate a.expr line
  | binary op a b line => .binary op a.expr b.expr line

def exact : Formula → Int
  | literal v _ => v.exact
  | negate a _ => -a.exact
  | binary op a b _ => op.exact a.exact b.exact

def operations : Formula → List Operation
  | literal _ _ => []
  | negate a line => a.operations ++ [.negate a.exact line]
  | binary op a b line => a.operations ++ b.operations ++ [.binary op a.exact b.exact line]

def evaluate (f : Formula) : Outcome Int :=
  match f.operations.findSome? Operation.error? with
  | none => .ok f.exact
  | some err => .error err

lemma evaluate_negate (a : Formula) (line : Nat) :
    (negate a line).evaluate = (do
      let m ← a.evaluate
      (Operation.negate m line).evaluate) := by
  rw [evaluate, evaluate, operations, List.findSome?_append, List.findSome?_singleton]
  cases a.operations.findSome? Operation.error? <;> rfl

lemma evaluate_binary (op : BinaryOp) (a b : Formula) (line : Nat) :
    (binary op a b line).evaluate = (do
      let m ← a.evaluate
      let n ← b.evaluate
      (Operation.binary op m n line).evaluate) := by
  rw [evaluate, evaluate, evaluate, operations, List.findSome?_append, List.findSome?_append,
    List.findSome?_singleton]
  cases a.operations.findSome? Operation.error? with
  | some err => rfl
  | none => cases b.operations.findSome? Operation.error? <;> rfl

end Formula

def Value.IsExactly (v : Value) (n : Int) : Prop := ∃ k : Int64, v = .integer k ∧ k.toInt = n

variable {limit : Nat} {sc : Scope} {s : State}

lemma agree_fit {o : Operation} (h : ¬ o.DividesByZero) :
    Agree Value.IsExactly (located o.line ((fit o.result).map .integer)) o.evaluate := by
  by_cases ho : o.Overflows
  · rw [fit_eq_error_iff.2 ⟨rfl, ho⟩, Operation.evaluate, Operation.error?, if_neg h, if_pos ho]
    exact .error _
  · rw [Operation.evaluate, Operation.error?, if_neg h, if_neg ho]
    cases hk : fit o.result with
    | error c => exact (ho (fit_eq_error_iff.1 hk).2).elim
    | ok k => exact .ok ⟨k, rfl, fit_eq_ok_iff.1 hk⟩

lemma fit_test (p : Prop) [Decidable p] : fit (if p then 1 else 0) = .ok (truth (decide p)) := by
  rw [fit_eq_ok_iff]
  by_cases h : p <;> simp [h, truth]

lemma compute_eq_fit {op : BinaryOp} {a b : Int64} (h : op = .div → b ≠ 0) :
    op.compute a b = fit (op.exact a.toInt b.toInt) := by
  have test {p q : Prop} [Decidable p] [Decidable q] (hp : op.test? a b = some p) (hq : q ↔ p) :
      op.compute a b = fit (if q then 1 else 0) := by
    -- A truth value always fits, so a test is like any other operator.
    rw [compute_of_test hp, fit_test, decide_eq_decide.2 hq]
  cases op with
  | add | sub | mul | div => exact compute_of_exact h rfl
  | equal | greater | less => exact test rfl Iff.rfl
  | and => exact test rfl (someBit_land a b)
  | or => exact test rfl (someBit_lor a b)

lemma agree_negate (k : Int64) (line : Nat) :
    Agree Value.IsExactly (located line (Value.integer k).negate)
      (Operation.negate k.toInt line).evaluate :=
  agree_fit (o := .negate k.toInt line) id

lemma agree_apply (op : BinaryOp) (j k : Int64) (line : Nat) :
    Agree Value.IsExactly (located line (op.apply (.integer j) (.integer k)))
      (Operation.binary op j.toInt k.toInt line).evaluate := by
  rw [BinaryOp.apply]
  by_cases h0 : op = .div ∧ k = 0
  · obtain ⟨rfl, rfl⟩ := h0
    exact .error _
  · have hd : ¬ (Operation.binary op j.toInt k.toInt line).DividesByZero := by
      rintro ⟨hop, hk⟩
      exact h0 ⟨hop, Int64.toInt_inj.1 hk⟩
    rw [compute_eq_fit fun hop hk => h0 ⟨hop, hk⟩]
    exact agree_fit hd

lemma agree_literal (v : Literal) : Value.IsExactly v.value v.exact := by
  cases v with
  | integer n => exact ⟨n, rfl, rfl⟩
  | boolean b => cases b <;> exact ⟨_, rfl, rfl⟩

theorem evalExpr_formula (limit : Nat) (sc : Scope) (f : Formula) (s : State) :
    Agree Value.IsExactly (evalExpr limit sc f.expr s).1 f.evaluate ∧ (evalExpr limit sc f.expr s).2 = s := by
  refine ⟨?_, evalExpr_snd f.expr s⟩
  change Agree Value.IsExactly (outcome limit sc f.expr s) f.evaluate
  induction f with
  | literal v line =>
    rw [Formula.expr, outcome_literal]
    exact .ok (agree_literal v)
  | negate a line ih =>
    rw [Formula.expr, outcome_negate, a.evaluate_negate]
    refine ih.bind ?_
    rintro _ _ ⟨k, rfl, rfl⟩
    exact agree_negate k line
  | binary op a b line iha ihb =>
    rw [Formula.expr, outcome_binary, Formula.evaluate_binary]
    refine iha.bind ?_
    rintro _ _ ⟨j, rfl, rfl⟩
    refine ihb.bind ?_
    rintro _ _ ⟨k, rfl, rfl⟩
    exact agree_apply op j k line

example : (Formula.binary .add
    (.binary .div (.literal (.integer .minValue) 1) (.negate (.literal (.boolean true) 1) 1) 2)
    (.binary .div (.literal (.integer 1) 3) (.literal (.boolean false) 3) 3) 4).evaluate =
      .error ⟨.overflow, 2⟩ := by
  rfl

end ExprLang
