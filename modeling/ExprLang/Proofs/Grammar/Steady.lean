import ExprLang.Parser.Lemmas
import Mathlib.Tactic.Lemma

/-! Readers of expressions decide by the next lexeme alone. -/

namespace ExprLang

def Expectation.ofExpression : Expectation → Bool
  | expression | closingParen | closingBracket | closingBracketAfterIndex => true
  | _ => false

namespace Parser

variable {α β : Type} {N n : Nat} {t : Token} {ts us : List Token} {l : Lexeme} {x : Expectation}

def Resembles (us ts : List Token) : Prop := ∀ l, front us = some l → front ts = some l

lemma Resembles.refl (ts : List Token) : Resembles ts ts := fun _ h => h

lemma Resembles.nil (ts : List Token) : Resembles [] ts := by
  intro l hl
  cases hl

lemma Resembles.append (h : Resembles us ts) (w : List Token) : Resembles (w ++ us) (w ++ ts) := by
  cases w with
  | nil => exact h
  | cons t w => exact fun _ hl => hl

lemma Resembles.front_ne (h : Resembles us ts) (hl : front ts ≠ some l) : front us ≠ some l :=
  fun hu => hl (h l hu)

lemma Resembles.cases {line : Nat} (h : Resembles us (⟨l, line⟩ :: ts)) :
    us = [] ∨ ∃ line vs, us = ⟨l, line⟩ :: vs := by
  rcases us with _ | ⟨⟨m, line'⟩, vs⟩
  · exact .inl rfl
  · cases h m rfl
    exact .inr ⟨line', vs, rfl⟩

def answer (last : Nat) (rest : List Token) : Except Expectation α → Except Failure (α × List Token)
  | .ok a => .ok (a, rest)
  | .error x => .error (unexpected last x rest, rest)

/-- The same tokens are taken up, with the same answer, before any others that do not begin differently. -/
def Steady (f : Nat → List Token → Except Failure (α × List Token)) (ts : List Token) : Prop :=
  ∃ w rest r, ts = w ++ rest ∧ (∀ x, r = .error x → x.ofExpression) ∧
    ∀ last us, Resembles us rest → f last (w ++ us) = answer last us r

variable {f g : Nat → List Token → Except Failure (α × List Token)}

lemma Steady.value (a : α) (ts : List Token) : Steady (fun _ us => .ok (a, us)) ts :=
  ⟨[], ts, .ok a, rfl, nofun, fun _ _ _ => rfl⟩

lemma Steady.congr (hg : Steady g ts) (h : ∀ last us, Resembles us ts → f last us = g last us) :
    Steady f ts := by
  obtain ⟨w, rest, r, rfl, hx, hr⟩ := hg
  refine ⟨w, rest, r, rfl, hx, fun last us hu => ?_⟩
  rw [h last (w ++ us) (hu.append w), hr last us hu]

lemma Steady.refuse (hx : x.ofExpression)
    (h : ∀ last us, Resembles us ts → f last us = .error (unexpected last x us, us)) :
    Steady f ts := by
  refine ⟨[], ts, .error x, rfl, ?_, h⟩
  rintro _ ⟨⟩
  exact hx

lemma Steady.cons (hg : Steady g ts) (h : ∀ last us, f last (t :: us) = g last us) :
    Steady f (t :: ts) := by
  obtain ⟨w, rest, r, rfl, hx, hr⟩ := hg
  refine ⟨t :: w, rest, r, rfl, hx, fun last us hu => ?_⟩
  rw [List.cons_append, h, hr last us hu]

lemma Steady.bind {k : Nat → α × List Token → Except Failure (β × List Token)} (hf : Steady f ts)
    (hk : ∀ last a rest, f last ts = .ok (a, rest) → Steady (fun last us => k last (a, us)) rest) :
    Steady (fun last us => f last us >>= k last) ts := by
  obtain ⟨w, rest, r, rfl, hx, hr⟩ := hf
  cases r with
  | error x =>
    refine ⟨w, rest, .error x, rfl, fun y hy => ?_, fun last us hu => ?_⟩
    · cases hy
      exact hx x rfl
    · dsimp only
      rw [hr last us hu]
      rfl
  | ok a =>
    obtain ⟨v, rest, s, rfl, hy, hs⟩ := hk 0 a rest (hr 0 rest (.refl _))
    refine ⟨w ++ v, rest, s, (List.append_assoc w v rest).symm, hy, fun last us hu => ?_⟩
    dsimp only
    rw [List.append_assoc, hr last (v ++ us) (hu.append v)]
    exact hs last us hu

lemma steady_take (l : Lexeme) (hx : x.ofExpression) (ts : List Token) :
    Steady (fun last us => take last l x us) ts := by
  by_cases h : front ts = some l
  · obtain ⟨line, us, rfl⟩ := front_eq_some_iff.1 h
    exact (Steady.value () us).cons fun last us => take_cons_self last l x line us
  · exact .refuse hx fun last us hu => take_of_front_ne (hu.front_ne h)

def SteadyBelow (N : Nat) : Prop := ∀ ts, ts.length < N → Steady readExpression ts

lemma steady_items (ih : SteadyBelow N) (close : Lexeme) (hx : x.ofExpression) (hn : ts.length < N) :
    Steady (fun last us => readItems last close x us) ts := by
  induction hk : ts.length using Nat.strongRecOn generalizing ts with
  | ind k ihk =>
    refine Steady.congr ?_ fun last us _ => readItems_eq close x us
    refine (ih ts hn).bind fun last e rest he => ?_
    have hl := readExpression_length he
    by_cases hc : front rest = some .comma
    · obtain ⟨line, us, rfl⟩ := front_eq_some_iff.1 hc
      rw [List.length_cons] at hl
      have hs : Steady (fun last us => readItems last close x us) us :=
        ihk us.length (by omega) (by omega) rfl
      exact (hs.bind fun _ es rest _ => .value (e :: es) rest).cons fun last us => rfl
    · refine Steady.congr ?_ fun last us hu => if_neg (hu.front_ne hc)
      exact (steady_take close hx rest).bind fun _ _ rest _ => .value [e] rest

lemma steady_list (ih : SteadyBelow N) (close : Lexeme) (hx : x.ofExpression) (hn : ts.length < N) :
    Steady (fun last us => readList last close x us) ts := by
  by_cases hc : front ts = some close
  · obtain ⟨line, us, rfl⟩ := front_eq_some_iff.1 hc
    exact (Steady.value [] us).cons fun last us => if_pos rfl
  · exact (steady_items ih close hx hn).congr fun last us hu => if_neg (hu.front_ne hc)

lemma steady_primary (ih : SteadyBelow N) (hn : ts.length ≤ N) : Steady readPrimary ts := by
  rcases ts with _ | ⟨⟨l, line⟩, ts⟩
  · refine .refuse (x := .expression) rfl fun last us hu => ?_
    cases us with
    | nil => rfl
    | cons t us => cases hu _ rfl
  · cases l with
    | integer k => exact (Steady.value _ ts).cons fun last us => rfl
    | boolean b => exact (Steady.value _ ts).cons fun last us => rfl
    | identifier y => exact (Steady.value _ ts).cons fun last us => rfl
    | leftParen =>
      have hs := (ih ts hn).bind (k := fun last r =>
        take last .rightParen .closingParen r.2 >>= fun u => .ok (r.1, u.2)) fun _ e rest _ =>
          (steady_take .rightParen rfl rest).bind (k := fun _ u => .ok (e, u.2)) fun _ _ rest _ => .value e rest
      exact hs.cons fun last us => rfl
    | leftBracket =>
      have hs := (steady_list ih .rightBracket (x := .closingBracket) rfl hn).bind
        (k := fun _ r => .ok (Expr.vector r.1.toArray line, r.2))
        fun _ es rest _ => .value (Expr.vector es.toArray line) rest
      exact hs.cons fun last us => rfl
    | _ =>
      refine .refuse (x := .expression) rfl fun last us hu => ?_
      rcases hu.cases with rfl | ⟨line, us, rfl⟩ <;> rfl

lemma steady_trailers (ih : SteadyBelow N) (hn : ts.length ≤ N) (a : Expr) :
    Steady (fun last us => readTrailers last a us) ts := by
  induction hk : ts.length using Nat.strongRecOn generalizing ts a with
  | ind k ihk =>
    by_cases hp : front ts = some .leftParen
    · obtain ⟨line, us, rfl⟩ := front_eq_some_iff.1 hp
      rw [List.length_cons] at hn hk
      refine Steady.cons ?_ fun last us => readTrailers_paren a line us
      refine (steady_list ih .rightParen rfl hn).bind fun last es rest hes => ?_
      have hl := readList_length hes
      exact ihk rest.length (by omega) (by omega) _ rfl
    · by_cases hb : front ts = some .leftBracket
      · obtain ⟨line, us, rfl⟩ := front_eq_some_iff.1 hb
        rw [List.length_cons] at hn hk
        refine Steady.cons ?_ fun last us => readTrailers_bracket a line us
        refine (ih us hn).bind fun last i rest hi => ?_
        have hl := readExpression_length hi
        refine (steady_take .rightBracket rfl rest).bind fun last _ rest ht => ?_
        have hl' := take_length ht
        exact ihk rest.length (by omega) (by omega) _ rfl
      · exact (Steady.value a ts).congr fun last us hu =>
          readTrailers_stop a (hu.front_ne hp) (hu.front_ne hb)

lemma steady_unary (ih : SteadyBelow N) (hn : ts.length ≤ N) : Steady readUnary ts := by
  have plain {ts : List Token} (hn : ts.length ≤ N) (hm : front ts ≠ some .minus) :
      Steady readUnary ts := by
    refine Steady.congr ?_ fun last us hu => readUnary_of_front_ne (hu.front_ne hm)
    refine (steady_primary ih hn).bind fun last a rest ha => ?_
    exact steady_trailers ih (Nat.le_of_lt (Nat.lt_of_lt_of_le (readPrimary_length ha) hn)) a
  induction ts with
  | nil => exact plain hn nofun
  | cons t ts iht =>
    by_cases hm : front (t :: ts) = some .minus
    · obtain ⟨line, us, he⟩ := front_eq_some_iff.1 hm
      cases he
      refine Steady.cons ?_ fun last us => readUnary_minus line us
      exact (iht (Nat.le_of_succ_le hn)).bind fun _ e rest _ => .value (Expr.negate e line) rest
    · exact plain hn hm

lemma steady_chain (hb : ∀ ts, ts.length ≤ N → Steady (fun last us => readBelow last n us) ts)
    (hn : ts.length ≤ N) (left : Expr) : Steady (fun last us => readChain last n left us) ts := by
  induction hk : ts.length using Nat.strongRecOn generalizing ts left with
  | ind k ihk =>
    refine Steady.congr ?_ fun last us _ => readChain_eq n left us
    rcases ts with _ | ⟨⟨l, line⟩, ts⟩
    · refine (Steady.value left []).congr fun last us hu => ?_
      cases us with
      | nil => rfl
      | cons t us => cases hu _ rfl
    · rw [List.length_cons] at hn hk
      cases ho : operatorAt? n l with
      | none =>
        refine (Steady.value left _).congr fun last us hu => ?_
        rcases hu.cases with rfl | ⟨line, us, rfl⟩
        · rfl
        · rw [chainStep, ho]
      | some op =>
        have hs := (hb ts (Nat.le_of_succ_le hn)).bind (k := fun last r =>
          readChain last n (.binary op left r.1 line) r.2) fun last right rest hr => by
            have hl := readBelow_length hr
            exact ihk rest.length (by omega) (by omega) (.binary op left right line) rfl
        refine hs.cons fun last us => ?_
        rw [chainStep, ho]

lemma steady_below (ih : SteadyBelow N) (n : Nat) (hn : ts.length ≤ N) :
    Steady (fun last us => readBelow last n us) ts := by
  induction n generalizing ts with
  | zero => exact steady_unary ih hn
  | succ n ihn =>
    refine Steady.congr ?_ fun last us _ => readBelow_succ n us
    refine (ihn hn).bind fun last left rest hl => ?_
    exact steady_chain (fun _ => ihn) (Nat.le_of_lt (Nat.lt_of_lt_of_le (readBelow_length hl) hn)) left

lemma steady_expression (ts : List Token) : Steady readExpression ts := by
  -- What an expression holds in brackets or after an operator is read from fewer tokens.
  have he (N : Nat) : SteadyBelow N := by
    induction N with
    | zero => exact nofun
    | succ N ih =>
      intro ts hn
      exact (steady_below ih _ (Nat.le_of_lt_succ hn)).congr fun last us _ => readExpression_eq us
  exact he (ts.length + 1) ts (Nat.lt_succ_self _)

end Parser

end ExprLang
