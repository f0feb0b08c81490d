import ExprLang.Eval.Lemmas
import ExprLang.Eval.Program
import ExprLang.Proofs.Grammar.Completion
import ExprLang.Proofs.Lexing.Seam

namespace ExprLang

open ExprLang.Parser Grammar Lexing

variable {ds : List Char} {k line limit : Nat} {found : List Token} {n : Int64}

def negated : Nat → Expr → Expr
  | 0, e => e
  | k + 1, e => .negate (negated k e) 1

lemma tokensFrom_minuses (k line : Nat) (found : List Token) (cs : List Char) :
    tokensFrom line found (List.replicate k '-' ++ cs) =
      tokensFrom line (List.replicate k ⟨.minus, line⟩ ++ found) cs := by
  induction k generalizing found with
  | zero => rfl
  | succ k ih =>
    have hm : tokensFrom line found ('-' :: (List.replicate k '-' ++ cs)) =
        tokensFrom line (⟨.minus, line⟩ :: found) (List.replicate k '-' ++ cs) :=
      tokensFrom_ok (c := '-') (l := .minus) rfl
    rw [List.replicate_succ, List.cons_append, hm, ih, List.replicate_succ', List.append_assoc,
      List.singleton_append]

lemma longest_digits (hne : ds ≠ []) (hd : ∀ c ∈ ds, c.isDigit) : Piece.Longest ⟨.number, ds⟩ ds := by
  obtain ⟨c, cs, rfl⟩ := List.exists_cons_of_ne_nil hne
  exact ⟨.number hd, List.prefix_refl _, fun _ _ _ h => h.length_le⟩

lemma tokensFrom_digits (hne : ds ≠ []) (hd : ∀ c ∈ ds, c.isDigit) (hf : Piece.Fits ⟨.number, ds⟩) :
    tokensFrom line found ds =
      .ok (found.reverse ++ [⟨.integer (Int64.ofNat (Text.readDigits ds)), line⟩, ⟨.endOfInput, line⟩]) := by
  have hl := longest_digits hne hd
  have hm : Munches ds [⟨.number, ds⟩] [] := by
    have ht : Munches (ds ++ []) [⟨.number, ds⟩] [] :=
      .take (p := ⟨.number, ds⟩) (ds.append_nil.symm ▸ hl) .stop
    rwa [List.append_nil] at ht
  have hc : newlines [⟨.number, ds⟩] = 0 := by
    have hn : '\n' ∉ ds := fun h => (nomatch hd _ h)
    simpa [newlines] using List.count_eq_zero.2 hn
  rw [tokensFrom_munches hm (List.forall_mem_singleton.2 hf), hc, tokensFrom]
  simp [tokens, Piece.lexeme?]

lemma tokensFrom_too_large (hne : ds ≠ []) (hd : ∀ c ∈ ds, c.isDigit) (hf : ¬ Piece.Fits ⟨.number, ds⟩) :
    tokensFrom line found ds = .error ⟨.integerTooLarge ds, line⟩ := by
  have hl := Fails.tooLarge (longest_digits hne hd) hf
  obtain ⟨c, cs, rfl⟩ := List.exists_cons_of_ne_nil hne
  exact tokensFrom_error (found_of_fails hl)

lemma unary_negated (k : Nat) (n : Int64) :
    Unary (List.replicate k ⟨.minus, 1⟩ ++ [⟨.integer n, 1⟩]) (negated k (.literal (.integer n) 1)) := by
  induction k with
  | zero => exact .trailed (.primary .integer)
  | succ k ih => exact .negate ih

lemma parse_minuses (k : Nat) (n : Int64) :
    parse (List.replicate k ⟨.minus, 1⟩ ++ [⟨.integer n, 1⟩, ⟨.endOfInput, 1⟩]) =
      .ok [.expression (negated k (.literal (.integer n) 1)) 1] := by
  let w : List Token := List.replicate k ⟨.minus, 1⟩ ++ [⟨.integer n, 1⟩]
  have hb : Binary 6 w (negated k (.literal (.integer n) 1)) :=
    .operand (.operand (.operand (.operand (.operand (.operand (.unary (unary_negated k n)))))))
  have hs : Sentence w (.expression (negated k (.literal (.integer n) 1)) 1) := by
    cases k with
    | zero => exact .expression hb
    | succ k => exact .expression hb
  have hu : Unended w := by
    rw [Unended, List.forall_mem_append, List.forall_mem_singleton]
    refine ⟨fun t ht => ?_, nofun⟩
    rw [List.eq_of_mem_replicate ht]
    exact nofun
  have hw : body (w ++ [⟨.endOfInput, 1⟩]) = w ++ [] := hu.body_append _
  have hd := Derives.cons hs .nil
  rw [← hw] at hd
  have hp := parse_eq_ok_iff.2 hd
  rwa [List.append_assoc] at hp

lemma evalExpr_negated (limit : Nat) (sc : Scope) (s : State) (hn : 0 ≤ n.toInt) (k : Nat) :
    ∃ m : Int64, m.toInt = (-1) ^ k * n.toInt ∧
      evalExpr limit sc (negated k (.literal (.integer n) 1)) s = (.ok (.integer m), s) := by
  induction k with
  | zero => exact ⟨n, (one_mul _).symm, evalExpr_literal _ _ _⟩
  | succ k ih =>
    obtain ⟨m, hm, he⟩ := ih
    have hr := n.toInt_le
    rw [Int64.toInt_maxValue] at hr
    have hp : (Int64.ofInt (-m.toInt)).toInt = -m.toInt := by
      rcases neg_one_pow_eq_or Int k with h | h <;> rw [h] at hm <;>
        exact Int64.toInt_ofInt_of_le (by omega) (by omega)
    refine ⟨Int64.ofInt (-m.toInt), ?_, ?_⟩
    · rw [hp, hm, pow_succ]
      ring
    · rw [negated, evalExpr_negate, he, andThenState_ok, Value.negate, fit_eq_ok_iff.2 hp]
      rfl

lemma tokenize_minuses (k : Nat) (ds : List Char) :
    tokenize (String.ofList (List.replicate k '-' ++ ds)) = tokensFrom 1 (List.replicate k ⟨.minus, 1⟩) ds := by
  rw [tokenize, String.toList_ofList, tokensFrom_minuses, List.append_nil]

lemma readProgram_minuses (hne : ds ≠ []) (hd : ∀ c ∈ ds, c.isDigit) (hf : Piece.Fits ⟨.number, ds⟩)
    (k : Nat) :
    readProgram (String.ofList (List.replicate k '-' ++ ds)) =
      .ok [.expression (negated k (.literal (.integer (Int64.ofNat (Text.readDigits ds))) 1)) 1] := by
  rw [readProgram, tokenize_minuses, tokensFrom_digits hne hd hf, List.reverse_replicate]
  exact congrArg (Except.mapError Error.parse) (parse_minuses k _)

lemma run_expression {source : String} {e : Expr} {v : Value} {s : State}
    (hr : readProgram source = .ok [.expression e line])
    (he : evalExpr limit Store.empty.root.1 e ⟨Store.empty.root.2, 0⟩ = (.ok v, s)) :
    run limit source = .ok v := by
  rw [run, hr]
  change (evalProgram limit Store.empty.root.1 _ ⟨Store.empty.root.2, 0⟩).1.mapError Error.eval = _
  rw [evalProgram, evalStatements, evalStatement, he]
  rfl

lemma run_digits (limit : Nat) (hne : ds ≠ []) (hd : ∀ c ∈ ds, c.isDigit) (hf : Piece.Fits ⟨.number, ds⟩)
    (k : Nat) :
    ∃ n : Int64, n.toInt = (-1) ^ k * Text.readDigits ds ∧
      run limit (String.ofList (List.replicate k '-' ++ ds)) = .ok (.integer n) := by
  have hn : (Int64.ofNat (Text.readDigits ds)).toInt = Text.readDigits ds :=
    Int64.toInt_ofNat_of_lt (fits_iff.1 hf)
  obtain ⟨m, hm, he⟩ := evalExpr_negated limit Store.empty.root.1 ⟨Store.empty.root.2, 0⟩
    (hn ▸ Int.natCast_nonneg _) k
  exact ⟨m, by rw [hm, hn], run_expression (readProgram_minuses hne hd hf k) he⟩

lemma run_too_large (hne : ds ≠ []) (hd : ∀ c ∈ ds, c.isDigit) (hf : ¬ Piece.Fits ⟨.number, ds⟩) (k : Nat) :
    run limit (String.ofList (List.replicate k '-' ++ ds)) = .error (.lex ⟨.integerTooLarge ds, 1⟩) := by
  rw [run, readProgram, tokenize_minuses, tokensFrom_too_large hne hd hf]
  rfl

lemma decimal_eq_minuses (z : Int) :
    ∃ k, (Text.decimal z).toList = List.replicate k '-' ++ Nat.toDigits 10 z.natAbs ∧ z = (-1) ^ k * z.natAbs := by
  cases z with
  | ofNat n => exact ⟨0, Text.decimal_ofNat n, (one_mul _).symm⟩
  | negSucc n => exact ⟨1, Text.decimal_negSucc n, by rw [pow_one, neg_one_mul]; rfl⟩

theorem run_decimal (limit : Nat) :
    (∀ (k : Nat) (ds : List Char), ds ≠ [] → (∀ c ∈ ds, c.isDigit) →
      ((Text.readDigits ds : Int) ≤ Int64.maxValue.toInt →
        ∃ n : Int64, n.toInt = (-1) ^ k * Text.readDigits ds ∧
          run limit (String.ofList (List.replicate k '-' ++ ds)) = .ok (.integer n)) ∧
      (Int64.maxValue.toInt < Text.readDigits ds →
        run limit (String.ofList (List.replicate k '-' ++ ds)) = .error (.lex ⟨.integerTooLarge ds, 1⟩))) ∧
    ∀ n : Int64, n ≠ Int64.minValue → run limit (Value.integer n).render = .ok (.integer n) := by
  refine ⟨fun k ds hne hd => ⟨fun h => run_digits limit hne hd (fun _ => h) k, fun h => ?_⟩, fun n hn => ?_⟩
  · exact run_too_large hne hd (fun hf => absurd h (Int.not_lt.2 (hf rfl))) k
  · obtain ⟨k, ht, hk⟩ := decimal_eq_minuses n.toInt
    have hl : Int64.minValue.toInt ≠ n.toInt := fun h => hn (Int64.toInt_inj.1 h.symm)
    have hf : Piece.Fits ⟨.number, Nat.toDigits 10 n.toInt.natAbs⟩ := by
      intro _
      have h₁ := n.minValue_le_toInt
      have h₂ := n.toInt_le
      rw [Text.readDigits_toDigits]
      rw [Int64.toInt_minValue] at h₁ hl
      rw [Int64.toInt_maxValue] at h₂ ⊢
      omega
    have hd : ∀ c ∈ Nat.toDigits 10 n.toInt.natAbs, c.isDigit := fun c hc =>
      Nat.isDigit_of_mem_toDigits (by decide) (by decide) hc
    obtain ⟨m, hm, hr⟩ := run_digits limit Nat.toDigits_ne_nil hd hf k
    rw [Text.readDigits_toDigits, ← hk] at hm
    rw [← ht, String.ofList_toList] at hr
    obtain rfl : m = n := Int64.toInt_inj.1 hm
    exact hr

def leastDigits : List Char := "9223372036854775808".toList

theorem run_decimal_edges :
    (∃ n : Int64, n.toInt = -7 ∧ run 0 "---007" = .ok (.integer n)) ∧
      run 0 "-9223372036854775808" = .error (.lex ⟨.integerTooLarge leastDigits, 1⟩) ∧
        (Value.integer Int64.minValue).render = "-9223372036854775808" ∧
          run 0 (Value.integer (Int64.minValue + 1)).render = .ok (.integer (Int64.minValue + 1)) := by
  obtain ⟨hd, hn⟩ := run_decimal 0
  have h₇ : (Text.readDigits ['0', '0', '7'] : Int) = 7 := by cbv
  have hl : (Text.readDigits leastDigits : Int) = 9223372036854775808 := by cbv
  have hi : ∀ c ∈ leastDigits, c.isDigit := List.all_eq_true.1 (by cbv)
  refine ⟨?_, ?_, by cbv, hn _ (by decide)⟩
  · have hb : (Text.readDigits ['0', '0', '7'] : Int) ≤ Int64.maxValue.toInt := by
      rw [h₇, Int64.toInt_maxValue]
      norm_num
    obtain ⟨n, hv, hr⟩ := (hd 3 ['0', '0', '7'] (List.cons_ne_nil _ _) (List.all_eq_true.1 rfl)).1 hb
    exact ⟨n, by rw [hv, h₇]; decide, hr⟩
  · have hb : Int64.maxValue.toInt < (Text.readDigits leastDigits : Int) := by
      rw [hl, Int64.toInt_maxValue]
      norm_num
    exact (hd 1 leastDigits (by decide) hi).2 hb

end ExprLang
