import ExprLang.Expr.Operator

/-! Programs as trees. A node carries the line of the token that stands for it. -/

namespace ExprLang

inductive Literal
  | integer (n : Int64)
  | boolean (b : Bool)
deriving DecidableEq

inductive Expr
  | literal (value : Literal) (line : Nat)
  | identifier (name : String) (line : Nat)
  | negate (operand : Expr) (line : Nat)
  | binary (op : BinaryOp) (left right : Expr) (line : Nat)
  | call (callee : Expr) (arguments : List Expr) (line : Nat)
  | vector (elements : Array Expr) (line : Nat)
  | index (target position : Expr) (line : Nat)

structure Definition where
  name : String
  params : List String
  body : Expr
  line : Nat

inductive Statement
  | definition (d : Definition)
  | expression (e : Expr) (line : Nat)

abbrev Program := List Statement

def Statement.line : Statement → Nat
  | definition d => d.line
  | expression _ line => line

namespace Expr

mutual

def size : Expr → Nat
  | literal _ _ | identifier _ _ => 1
  | negate a _ => a.size + 1
  | binary _ a b _ => a.size + b.size + 1
  | call f xs _ => f.size + sizeAll xs + 1
  | vector ⟨xs⟩ _ => sizeAll xs + 1
  | index a i _ => a.size + i.size + 1

def sizeAll : List Expr → Nat
  | [] => 0
  | e :: es => e.size + sizeAll es

end

theorem sizeAll_append (es fs : List Expr) : sizeAll (es ++ fs) = sizeAll es + sizeAll fs := by
  induction es with
  | nil => simp [sizeAll]
  | cons e es ih => simp [sizeAll, ih, Nat.add_assoc]

theorem size_le_sizeAll {e : Expr} {es : List Expr} (h : e ∈ es) : e.size ≤ sizeAll es := by
  induction es with
  | nil => cases h
  | cons d es ih =>
      rcases List.mem_cons.1 h with rfl | h
      · simp [sizeAll]
      · exact Nat.le_trans (ih h) (by simp [sizeAll])

def sameAll : List Expr → List Expr → Bool
  | [], [] => true
  | literal v l :: as, literal w m :: bs => v == w && (l == m && sameAll as bs)
  | identifier x l :: as, identifier y m :: bs => x == y && (l == m && sameAll as bs)
  | negate a l :: as, negate b m :: bs => l == m && sameAll (a :: as) (b :: bs)
  | binary o a a' l :: as, binary p b b' m :: bs =>
      o == p && (l == m && sameAll (a :: a' :: as) (b :: b' :: bs))
  | call f xs l :: as, call g ys m :: bs =>
      xs.length == ys.length && (l == m && sameAll (f :: (xs ++ as)) (g :: (ys ++ bs)))
  | vector xs l :: as, vector ys m :: bs =>
      xs.size == ys.size && (l == m && sameAll (xs.toList ++ as) (ys.toList ++ bs))
  | index a i l :: as, index b j m :: bs => l == m && sameAll (a :: i :: as) (b :: j :: bs)
  | _, _ => false
termination_by as => sizeAll as
decreasing_by all_goals simp only [sizeAll, size, sizeAll_append]; omega

theorem sameAll_iff (as bs : List Expr) : sameAll as bs = true ↔ as = bs := by
  fun_induction sameAll as bs with
  | case1 => simp
  | case2 v l as w m bs ih => simp [ih, and_assoc]
  | case3 x l as y m bs ih => simp [ih, and_assoc]
  | case4 a l as b m bs ih => simp [ih]; grind
  | case5 o a a' l as p b b' m bs ih => simp [ih]; grind
  | case6 f xs l as g ys m bs ih =>
      simp only [Bool.and_eq_true, beq_iff_eq, ih, List.cons.injEq, call.injEq]
      constructor
      · rintro ⟨hl, rfl, rfl, h⟩
        obtain ⟨rfl, rfl⟩ := List.append_inj h hl
        simp
      · rintro ⟨⟨rfl, rfl, rfl⟩, rfl⟩
        simp
  | case7 xs l as ys m bs ih =>
      simp only [Bool.and_eq_true, beq_iff_eq, ih, List.cons.injEq, vector.injEq]
      constructor
      · rintro ⟨hl, rfl, h⟩
        obtain ⟨hv, rfl⟩ := List.append_inj h hl
        simp [Array.toList_inj.1 hv]
      · rintro ⟨⟨rfl, rfl⟩, rfl⟩
        simp
  | case8 a i l as b j m bs ih => simp [ih]; grind
  | case9 as bs =>
      simp only [Bool.false_eq_true, false_iff]
      rintro rfl
      rcases as with _ | ⟨a, as⟩
      · simp_all
      · cases a <;> grind

instance : DecidableEq Expr := fun a b =>
  decidable_of_iff (sameAll [a] [b] = true) (by simp [sameAll_iff])

end Expr

deriving instance DecidableEq for Definition, Statement

end ExprLang
