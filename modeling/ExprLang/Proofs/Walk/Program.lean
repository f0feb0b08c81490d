import ExprLang.Proofs.Walk.LookAhead

namespace ExprLang.Walk

open ExprLang.Parser

variable {ts us : List Token} {e : Nat}

lemma agrees_startsDefinition (ts : List Token) (e : Nat) (us : List Token) :
    Agrees ts e (fun n => startsDefinition ts (read ts n)) us (.ok (Parser.startsDefinition us, us)) := by
  intro c hc
  obtain ⟨g, hg, hf, hs⟩ := startsDefinition_ends ts c.place
  have ht : finish ts c.place = e := by rw [finish, hc.ahead, hc.total]
  rw [hc.ahead] at hs
  -- The look ahead may have gone anywhere before the end; the cursor is put back where it was.
  refine ⟨⟨c.place, max c.furthest g⟩, ?_, ⟨hc.ahead, hc.total, ?_, ?_⟩⟩
  · exact Filter.eventually_atTop.2 ⟨us.length, fun n hn => hs c.furthest n hn⟩
  · exact Nat.le_trans hg (Nat.le_max_right _ _)
  · exact Nat.max_le.2 ⟨hc.within, ht ▸ hf⟩

lemma agrees_names (ts : List Token) (e : Nat) (found : List String) (us : List Token) :
    Agrees ts e (fun n => read ts n (.names found)) us (readNames (peek ts e).line found us) := by
  induction hk : us.length using Nat.strongRecOn generalizing us found with
  | ind k ih =>
    refine Agrees.round ?_
    rcases us with _ | ⟨⟨l, line⟩, us⟩
    · refine Agrees.stop (Agrees.current_nil fun t ht _ => ?_)
      simp only [ht]
      exact agrees_refuse ts e .parameterName []
    · cases l with
      | identifier x =>
        have hx : Agrees ts e (fun _ => parameter ts) (⟨.identifier x, line⟩ :: us) (.ok (x, us)) :=
          Agrees.current_cons fun _ => (agrees_advance _ us).next (agrees_value x us)
        refine hx.next ?_
        by_cases hf : front us = some .comma
        · obtain ⟨line', us, rfl⟩ := front_eq_some_iff.1 hf
          simp only [List.length_cons] at hk
          rw [readNames_comma]
          exact (agrees_eat .comma line' us).next (ih us.length (by omega) (x :: found) us rfl)
        · rw [readNames_of_front_ne found x line hf]
          refine (agrees_eat_of_front_ne .comma (by decide) hf).next ?_
          exact (agrees_expect .rightParen (by decide) .closingParen us).bind fun _ rest _ => agrees_value _ rest
      | endOfInput => exact Agrees.stop (Agrees.current_cons fun ht => absurd rfl ht)
      | _ => exact Agrees.stop (Agrees.current_cons fun _ => agrees_error _ _)

lemma agrees_parameters (ts : List Token) (e : Nat) (us : List Token) :
    Agrees ts e (fun n => parameters ts (read ts n)) us (readParameters (peek ts e).line us) := by
  by_cases hf : front us = some .rightParen
  · obtain ⟨line, us, rfl⟩ := front_eq_some_iff.1 hf
    exact (agrees_eat .rightParen line us).next (agrees_value [] us)
  · rw [readParameters, if_neg hf]
    exact (agrees_eat_of_front_ne .rightParen (by decide) hf).next (agrees_names ts e [] us)

lemma agrees_header (ts : List Token) (e : Nat) (us : List Token) :
    Agrees ts e (fun n => header ts (read ts n)) us (readHeader (peek ts e).line us) := by
  rcases us with _ | ⟨⟨l, line⟩, us⟩
  · refine Agrees.current_nil fun t ht _ => ?_
    simp only [ht]
    exact agrees_refuse ts e .functionName []
  · cases l with
    | identifier f =>
      refine Agrees.current_cons fun _ => (agrees_advance _ us).next ?_
      refine (agrees_expect .leftParen (by decide) .openingParenAfterName us).bind fun _ rest _ => ?_
      refine (agrees_parameters ts e rest).bind fun params rest _ => ?_
      exact (agrees_expect .equals (by decide) .equalsAfterParameters rest).bind fun _ rest _ => agrees_value _ rest
    | _ => exact Agrees.current_cons fun _ => agrees_refuse ts e .functionName _

lemma agrees_statement (ts : List Token) (e : Nat) (us : List Token) :
    Agrees ts e (fun n => read ts n .statement) us (readStatement (peek ts e).line us) := by
  refine Agrees.round ((agrees_startsDefinition ts e us).next ?_)
  rw [readStatement]
  cases Parser.startsDefinition us with
  | true =>
    refine (agrees_header ts e us).bind fun hd rest _ => ?_
    exact (agrees_expression ts e rest).bind fun body rest _ => agrees_value _ rest
  | false =>
    have first {line : Nat} (h : line = firstLine (peek ts e).line us) :
        Agrees ts e (fun n => do let a ← read ts n .expression; return Statement.expression a line) us
          (readExpression (peek ts e).line us >>= fun r =>
            .ok (.expression r.1 (firstLine (peek ts e).line us), r.2)) := by
      subst h
      exact (agrees_expression ts e us).bind fun a rest _ => agrees_value _ rest
    cases us with
    | nil => exact Agrees.current_nil fun t _ hl => first hl
    | cons t us => exact Agrees.current_cons fun _ => first rfl

lemma readStatement_length {last : Nat} {s : Statement} {rest : List Token}
    (h : readStatement last us = .ok (s, rest)) : rest.length < us.length := by
  rw [← plain_statement] at h
  exact Parsed.length_lt h

theorem agrees_statements (ts : List Token) (e : Nat) (found : List Statement) (us : List Token) :
    Agrees ts e (fun n => read ts n (.statements found)) us
      ((Parser.statements (peek ts e).line found us).map (·, [])) := by
  induction hk : us.length using Nat.strongRecOn generalizing us found with
  | ind k ih =>
    refine Agrees.round ?_
    cases us with
    | nil =>
      refine Agrees.current_nil fun t ht _ => ?_
      rw [Parser.statements]
      simp only [ht, if_true]
      exact agrees_value found.reverse []
    | cons t us =>
      have hb (p : Except Failure (Statement × List Token)) (f : Statement × List Token → Except Failure Program) :
          (p >>= f).map (·, ([] : List Token)) = p >>= fun s => (f s).map (·, []) := by
        cases p <;> rfl
      rw [statements_cons, hb]
      refine Agrees.current_cons fun ht => ?_
      simp only [ht, if_false]
      refine (agrees_statement ts e (t :: us)).bind fun s rest hs => ?_
      exact ih rest.length (hk ▸ readStatement_length hs) (s :: found) rest rfl

end ExprLang.Walk
