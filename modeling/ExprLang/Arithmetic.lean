import ExprLang.Error

namespace ExprLang

def fit (n : Int) : Except EvalCause Int64 :=
  if Int64.minValue.toInt ≤ n ∧ n ≤ Int64.maxValue.toInt then .ok (Int64.ofInt n)
  else .error .overflow

theorem fit_eq_ok_iff {n : Int} {k : Int64} : fit n = .ok k ↔ k.toInt = n := by
  unfold fit
  split
  · rename_i h
    rw [Except.ok.injEq]
    constructor
    · rintro rfl
      rw [Int64.toInt_minValue, Int64.toInt_maxValue] at h
      exact Int64.toInt_ofInt_of_le h.1 (Int.lt_of_le_sub_one h.2)
    · rintro rfl
      exact Int64.ofInt_toInt k
  · rename_i h
    refine iff_of_false (by simp) fun hk => h ?_
    exact ⟨hk ▸ Int64.minValue_le_toInt k, hk ▸ Int64.toInt_le k⟩

def truth (b : Bool) : Int64 := if b then 1 else 0

def BinaryOp.compute (op : BinaryOp) (a b : Int64) : Except EvalCause Int64 :=
  match op with
  | add => fit (a.toInt + b.toInt)
  | sub => fit (a.toInt - b.toInt)
  | mul => fit (a.toInt * b.toInt)
  | div => if b = 0 then .error .divisionByZero else fit (a.toInt.tdiv b.toInt)
  | equal => .ok (truth (a == b))
  | greater => .ok (truth (decide (b < a)))
  | less => .ok (truth (decide (a < b)))
  | and => .ok (truth (a &&& b != 0))
  | or => .ok (truth (a ||| b != 0))

def BinaryOp.apply (op : BinaryOp) : Value → Value → Except EvalCause Value
  | .integer a, .integer b => (op.compute a b).map .integer
  | v, w => .error (.invalidOperands op v.shape w.shape)

def Value.negate : Value → Except EvalCause Value
  | .integer a => (fit (-a.toInt)).map .integer
  | v => .error (.invalidOperand v.shape)

def offset? (i : Int64) (length : Nat) : Option Nat :=
  if 0 ≤ i.toInt ∧ i.toInt < length then some i.toInt.toNat else none

theorem offset?_eq_some_iff {i : Int64} {length k : Nat} :
    offset? i length = some k ↔ i.toInt = k ∧ k < length := by
  unfold offset?
  split
  · rw [Option.some.injEq]; omega
  · rename_i h
    refine iff_of_false (by simp) fun hk => h ?_
    omega

def element? {α : Type} (xs : Array α) (i : Int64) : Option α :=
  (offset? i xs.size).bind (xs[·]?)

theorem mem_of_element? {α : Type} {xs : Array α} {i : Int64} {x : α} (h : element? xs i = some x) :
    x ∈ xs := by
  obtain ⟨k, _, hk⟩ := Option.bind_eq_some_iff.1 h
  exact Array.mem_of_getElem? hk

end ExprLang
