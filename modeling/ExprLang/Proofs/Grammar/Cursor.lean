import ExprLang.Proofs.Grammar.Completion
import ExprLang.Proofs.Grammar.Steady

namespace ExprLang.Parser

open Grammar

variable {α : Type} {w rest ts us : List Token} {c k i : Nat} {x : Expectation}

/-- Past the last token there is an end marker on its line. -/
def peek (ts : List Token) (c : Nat) : Token :=
  (ts[c]?).getD ⟨.endOfInput, (ts.getLast?.map (·.line)).getD 1⟩

def finish (ts : List Token) (c : Nat) : Nat := c + (body (ts.drop c)).length

def readFrom (read : Nat → List Token → Except Failure (α × List Token)) (ts : List Token) (c : Nat) :
    Except ParseError α × Nat :=
  match read (peek ts (finish ts c)).line (body (ts.drop c)) with
  | .ok (a, rest) => (.ok a, finish ts c - rest.length)
  | .error (e, rest) => (.error e, finish ts c - rest.length)

def refusal (x : Expectation) (t : Token) : ParseError :=
  ⟨if t.lexeme = .endOfInput then .unexpectedEnd x else .unexpectedToken t.lexeme x, t.line⟩

lemma body_drop_cases (ts : List Token) (c : Nat) :
    (peek ts c).lexeme = .endOfInput ∧ body (ts.drop c) = [] ∨
      (peek ts c).lexeme ≠ .endOfInput ∧ body (ts.drop c) = peek ts c :: body (ts.drop (c + 1)) := by
  by_cases hc : c < ts.length
  · have hp : peek ts c = ts.get ⟨c, hc⟩ := by simp [peek, hc]
    have hd : ts.drop c = peek ts c :: ts.drop (c + 1) := by
      rw [hp, List.drop_eq_getElem_cons hc, List.get_eq_getElem]
    rw [hd]
    by_cases he : (peek ts c).lexeme = .endOfInput
    · exact .inl ⟨he, by simp [body, he]⟩
    · exact .inr ⟨he, by simp [body, he]⟩
  · exact .inl ⟨by simp [peek, hc], by simp [body, List.drop_eq_nil_of_le (Nat.not_lt.1 hc)]⟩

lemma body_drop_of_end (h : (peek ts c).lexeme = .endOfInput) : body (ts.drop c) = [] := by
  rcases body_drop_cases ts c with ⟨-, hb⟩ | ⟨he, -⟩
  · exact hb
  · exact (he h).elim

lemma body_drop_of_ne (h : (peek ts c).lexeme ≠ .endOfInput) :
    body (ts.drop c) = peek ts c :: body (ts.drop (c + 1)) := by
  rcases body_drop_cases ts c with ⟨he, -⟩ | ⟨-, hb⟩
  · exact (h he).elim
  · exact hb

lemma finish_succ (h : (peek ts c).lexeme ≠ .endOfInput) : finish ts (c + 1) = finish ts c := by
  rw [finish, finish, body_drop_of_ne h, List.length_cons, Nat.add_assoc, Nat.add_comm 1]

lemma body_drop_cons {t : Token} (h : body (ts.drop c) = t :: rest) :
    t = peek ts c ∧ t.lexeme ≠ .endOfInput ∧ rest = body (ts.drop (c + 1)) := by
  rcases body_drop_cases ts c with ⟨-, hb⟩ | ⟨he, hb⟩
  · rw [h] at hb
    cases hb
  · rw [h] at hb
    cases hb
    exact ⟨rfl, he, rfl⟩

lemma peek_ne_end (h : body (ts.drop c) = w ++ rest) (hi : c ≤ i) (hw : i < c + w.length) :
    (peek ts i).lexeme ≠ .endOfInput := by
  induction w generalizing c with
  | nil => exact absurd hw (Nat.not_lt.2 hi)
  | cons t w ih =>
    obtain ⟨rfl, he, hr⟩ := body_drop_cons h
    rcases Nat.eq_or_lt_of_le hi with rfl | hi
    · exact he
    · rw [List.length_cons] at hw
      exact ih hr.symm hi (by omega)

lemma peek_of_lt_finish (hi : c ≤ i) (h : i < finish ts c) : (peek ts i).lexeme ≠ .endOfInput :=
  peek_ne_end (List.append_nil (body (ts.drop c))).symm hi h

lemma body_drop_congr (h : body (ts.drop c) = w ++ rest)
    (hp : ∀ i, c ≤ i → i < c + w.length → peek us i = peek ts i) :
    body (us.drop c) = w ++ body (us.drop (c + w.length)) := by
  induction w generalizing c with
  | nil => rfl
  | cons t w ih =>
    obtain ⟨rfl, he, hr⟩ := body_drop_cons h
    rw [List.length_cons] at hp ⊢
    have hc : peek us c = peek ts c := hp c (Nat.le_refl c) (by omega)
    have hw := ih hr.symm fun i hi hw => hp i (by omega) (by omega)
    rcases body_drop_cases us c with ⟨hn, -⟩ | ⟨-, hb⟩
    · exact absurd (hc ▸ hn) he
    · rw [hb, hw, hc, Nat.add_right_comm, Nat.add_assoc, List.cons_append]

lemma body_drop_append (h : body (ts.drop c) = w ++ rest) : rest = body (ts.drop (c + w.length)) :=
  List.append_cancel_left (h.symm.trans (body_drop_congr h fun _ _ _ => rfl))

lemma finish_append (h : body (ts.drop c) = w ++ rest) : finish ts c = c + w.length + rest.length := by
  rw [finish, h, List.length_append, Nat.add_assoc]

lemma resembles_of_peek (h : peek us k = peek ts k) :
    Resembles (body (us.drop k)) (body (ts.drop k)) := by
  rcases body_drop_cases us k with ⟨-, hu⟩ | ⟨he, hu⟩
  · rw [hu]
    exact nofun
  · rcases body_drop_cases ts k with ⟨hn, -⟩ | ⟨-, ht⟩
    · exact absurd (h ▸ hn) he
    · rw [hu, ht, h]
      exact fun _ hl => hl

lemma unexpected_peek (x : Expectation) (ts : List Token) (k : Nat) :
    unexpected (peek ts (finish ts k)).line x (body (ts.drop k)) = refusal x (peek ts k) := by
  rcases body_drop_cases ts k with ⟨he, hb⟩ | ⟨he, hb⟩
  · rw [finish, hb, refusal, if_pos he]
    rfl
  · rw [hb, refusal, if_neg he]
    rfl

lemma readFrom_eq {f : Nat → List Token → Except Failure (α × List Token)} {r : Except Expectation α}
    (h : body (ts.drop c) = w ++ rest) (hf : ∀ last, f last (w ++ rest) = answer last rest r) :
    readFrom f ts c = (r.mapError (refusal · (peek ts (c + w.length))), c + w.length) := by
  have hn : finish ts (c + w.length) = finish ts c := by
    rw [finish_append h, finish, ← body_drop_append h]
  have he (x : Expectation) : unexpected (peek ts (finish ts c)).line x rest =
      refusal x (peek ts (c + w.length)) := by
    rw [← unexpected_peek, hn, ← body_drop_append h]
  have hk : finish ts c - rest.length = c + w.length := by
    rw [finish_append h, Nat.add_sub_cancel]
  rw [readFrom, h, hf]
  cases r with
  | ok a => exact congrArg (Prod.mk _) hk
  | error x => exact congrArg₂ Prod.mk (congrArg Except.error (he x)) hk

lemma Steady.readFrom {f : Nat → List Token → Except Failure (α × List Token)}
    (hf : Steady f (body (ts.drop c))) :
    ∃ (w rest : List Token) (r : Except Expectation α), body (ts.drop c) = w ++ rest ∧
      (∀ x, r = .error x → x.ofExpression) ∧
      ∀ us, (∀ i, c ≤ i → i ≤ c + w.length → peek us i = peek ts i) →
        Parser.readFrom f us c = (r.mapError (refusal · (peek us (c + w.length))), c + w.length) := by
  obtain ⟨w, rest, r, hw, hx, hr⟩ := hf
  refine ⟨w, rest, r, hw, hx, fun us hu => ?_⟩
  have hb := body_drop_congr hw fun i hi hk => hu i hi (Nat.le_of_lt hk)
  have hres : Resembles (body (us.drop (c + w.length))) rest := by
    rw [body_drop_append hw]
    exact resembles_of_peek (hu _ (Nat.le_add_right _ _) (Nat.le_refl _))
  exact readFrom_eq hb fun last => hr last _ hres

lemma readFrom_eq_ok {f : Nat → List Token → Except Failure (α × List Token)} {a : α}
    (h : readFrom f ts c = (.ok a, k)) :
    ∃ last rest, f last (body (ts.drop c)) = .ok (a, rest) ∧ k = finish ts c - rest.length := by
  rw [readFrom] at h
  split at h
  · rename_i rest hf
    cases h
    exact ⟨_, rest, hf, rfl⟩
  · cases h

lemma stops_peek (h : Stops 6 (body (ts.drop k))) :
    (∀ level op, ¬ Operator level (peek ts k).lexeme op) ∧ (peek ts k).lexeme ≠ .leftParen ∧
      (peek ts k).lexeme ≠ .leftBracket := by
  rcases body_drop_cases ts k with ⟨he, -⟩ | ⟨-, hb⟩
  · rw [he]
    exact ⟨nofun, nofun, nofun⟩
  · obtain ⟨hp, hl, ho⟩ := h (peek ts k).lexeme (by rw [hb, front_cons])
    exact ⟨fun level op hop => Nat.not_le.2 hop.level_lt (ho level op hop), hp, hl⟩

theorem expression_greedy_local (ts : List Token) (c : Nat) :
    (∀ e k, readFrom readExpression ts c = (.ok e, k) →
      c < k ∧ (∀ i, c ≤ i → i < k → (peek ts i).lexeme ≠ .endOfInput) ∧
        (∀ level op, ¬ Operator level (peek ts k).lexeme op) ∧ (peek ts k).lexeme ≠ .leftParen ∧
          (peek ts k).lexeme ≠ .leftBracket) ∧
    ∀ r k us, readFrom readExpression ts c = (r, k) →
      (∀ i, c ≤ i → i ≤ k → peek us i = peek ts i) → readFrom readExpression us c = (r, k) := by
  constructor
  · intro e k h
    obtain ⟨last, rest, he, rfl⟩ := readFrom_eq_ok h
    obtain ⟨w, hw, hb, hs⟩ := expression_sound he
    obtain ⟨l, hl, -⟩ := hb.front
    have hlt : 0 < w.length := by
      cases w with
      | nil => cases hl
      | cons t w => exact Nat.succ_pos _
    rw [finish_append hw, Nat.add_sub_cancel]
    rw [body_drop_append hw] at hs
    exact ⟨Nat.lt_add_of_pos_right hlt, fun i hi hk => peek_ne_end hw hi hk, stops_peek hs⟩
  · intro r k us h hu
    obtain ⟨w, rest, s, -, -, hs⟩ := (steady_expression (body (ts.drop c))).readFrom
    have ht := hs ts fun _ _ _ => rfl
    rw [h, Prod.mk.injEq] at ht
    obtain ⟨rfl, rfl⟩ := ht
    rw [hs us hu, hu _ (Nat.le_add_right _ _) (Nat.le_refl _)]

def appliedTokens : List Token :=
  [⟨.identifier "g", 1⟩, ⟨.identifier "f", 1⟩, ⟨.leftParen, 1⟩, ⟨.identifier "x", 1⟩, ⟨.rightParen, 1⟩,
    ⟨.identifier "y", 2⟩, ⟨.equals, 2⟩, ⟨.integer 2, 2⟩]

def groupedTokens : List Token :=
  [⟨.leftParen, 1⟩, ⟨.identifier "f", 1⟩, ⟨.leftParen, 1⟩, ⟨.identifier "x", 1⟩, ⟨.rightParen, 1⟩,
    ⟨.identifier "y", 2⟩]

theorem expression_greedy_local_applied :
    let call := Expr.call (.identifier "f" 1) [.identifier "x" 1] 1
    readFrom readExpression appliedTokens 1 = (.ok call, 5) ∧
      (1 < 5 ∧ (∀ i, 1 ≤ i → i < 5 → (peek appliedTokens i).lexeme ≠ .endOfInput) ∧
        (∀ level op, ¬ Operator level (peek appliedTokens 5).lexeme op) ∧ (peek appliedTokens 5).lexeme ≠ .leftParen ∧
          (peek appliedTokens 5).lexeme ≠ .leftBracket) ∧
        (∀ i, 1 ≤ i → i ≤ 5 → peek groupedTokens i = peek appliedTokens i) ∧
          readFrom readExpression groupedTokens 1 = (.ok call, 5) := by
  have h : readFrom readExpression appliedTokens 1 =
      (.ok (.call (.identifier "f" 1) [.identifier "x" 1] 1), 5) := by cbv
  have hu : ∀ i, 1 ≤ i → i ≤ 5 → peek groupedTokens i = peek appliedTokens i := by
    intro i h₁ h₅
    obtain rfl | rfl | rfl | rfl | rfl : i = 1 ∨ i = 2 ∨ i = 3 ∨ i = 4 ∨ i = 5 := by omega
    all_goals rfl
  obtain ⟨hg, hl⟩ := expression_greedy_local appliedTokens 1
  exact ⟨h, hg _ 5 h, hu, hl _ 5 groupedTokens h hu⟩

lemma body_drop_of_le (h : c ≤ (body ts).length) : body (ts.drop c) = (body ts).drop c := by
  have h₀ : body (ts.drop 0) = (body ts).take c ++ (body ts).drop c := by
    rw [List.drop_zero, List.take_append_drop]
  have hc := body_drop_append h₀
  rwa [List.length_take, Nat.min_eq_left h, Nat.zero_add, eq_comm] at hc

lemma line_finish (h : c ≤ (body ts).length) : (peek ts (finish ts c)).line = lastLine ts := by
  have hf : finish ts c = (body ts).length := by
    rw [finish, body_drop_of_le h, List.length_drop, Nat.add_sub_cancel' h]
  have ht : ts = body ts ++ ts.dropWhile (·.lexeme != .endOfInput) := List.takeWhile_append_dropWhile.symm
  have hp : ts[(body ts).length]? = (ts.dropWhile (·.lexeme != .endOfInput))[0]? := by
    refine (congrArg (fun us : List Token => us[(body ts).length]?) ht).trans ?_
    rw [List.getElem?_append_right (Nat.le_refl _), Nat.sub_self]
  rw [hf, peek, hp, lastLine]
  cases ts.dropWhile (·.lexeme != .endOfInput) <;> rfl

lemma parseExpression_eq (ts : List Token) :
    parseExpression ts =
      match readFrom readExpression ts 0 with
      | (.ok e, k) => .ok (e, k)
      | (.error e, _) => .error e := by
  have hl : (peek ts (finish ts 0)).line = lastLine ts := line_finish (Nat.zero_le _)
  rw [readFrom, hl, List.drop_zero, parseExpression, Deferred.result_eq_run, readExpression, finish,
    List.drop_zero, Nat.zero_add]
  cases (expression (lastLine ts) (body ts)).run <;> rfl

end ExprLang.Parser
