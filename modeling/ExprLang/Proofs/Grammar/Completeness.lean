import ExprLang.Proofs.Grammar.Soundness

namespace ExprLang.Grammar

open ExprLang.Parser

variable {last : Nat}

def Reads (last n : Nat) (w : List Token) (e : Expr) : Prop :=
  ∀ rest, Stops n rest → readBelow last n (w ++ rest) = .ok (e, rest)

/-- Unlike `Reads` this holds also if another operator of the outermost level is next. -/
def Leads (last : Nat) : Nat → List Token → Expr → Prop
  | 0, w, e => Reads last 0 w e
  | n + 1, w, e =>
    ∀ rest, Stops n rest → readBelow last (n + 1) (w ++ rest) = readChain last n e rest

lemma Leads.reads {n : Nat} {w : List Token} {e : Expr} (h : Leads last n w e) :
    Reads last n w e := by
  cases n with
  | zero => exact h
  | succ n =>
    intro rest hs
    rw [h rest (hs.mono n.le_succ), readChain_stop hs]

lemma Leads.readExpression {w rest : List Token} {e : Expr} (h : Leads last 6 w e)
    (hs : Stops 6 rest) : readExpression last (w ++ rest) = .ok (e, rest) :=
  (readExpression_eq _).trans (h.reads rest hs)

lemma Operator.stops {n : Nat} {l : Lexeme} {op : BinaryOp} (h : Operator n l op) (line : Nat)
    (ts : List Token) : Stops n (⟨l, line⟩ :: ts) := by
  rintro _ ⟨⟩
  cases h <;> exact ⟨nofun, nofun, fun m op ho => by cases ho; exact Nat.le_refl _⟩

lemma stops_of_close {l : Lexeme} (h : l = .rightParen ∨ l = .rightBracket ∨ l = .comma) (n line : Nat)
    (ts : List Token) : Stops n (⟨l, line⟩ :: ts) := by
  rintro _ ⟨⟩
  rcases h with rfl | rfl | rfl <;> exact ⟨nofun, nofun, nofun⟩

mutual

lemma Binary.leads {n : Nat} {w : List Token} {e : Expr} : Binary n w e → Leads last n w e
  | .unary h => h.read
  | .operand h => fun rest hs => by
    rw [readBelow_succ, h.leads.reads rest hs]
    rfl
  | .apply hl ho hr => fun rest hs => by
    rw [List.append_assoc, List.cons_append, hl.leads _ (ho.stops _ _), readChain_apply ho,
      hr.leads.reads rest hs]
    rfl

lemma Unary.read {w : List Token} {e : Expr} : Unary w e → Reads last 0 w e
  | .negate h => fun rest hs => by
    have hr : readUnary last _ = _ := h.read rest hs
    rw [readBelow_zero, List.cons_append, readUnary_minus, hr]
    rfl
  | .trailed h => fun rest hs => by
    rw [readBelow_zero, h.read, readTrailers_stops hs]

lemma Trailed.read {w : List Token} {e : Expr} (rest : List Token) :
    Trailed w e → readUnary last (w ++ rest) = readTrailers last e rest
  | .primary h => by
    obtain ⟨l, hl, _, hm⟩ := h.front
    have hf : front (w ++ rest) ≠ some .minus := by
      rw [front_append hl]
      simpa using hm
    rw [readUnary_of_front_ne hf, h.read]
    rfl
  | .call h ha => by
    rw [List.append_assoc, h.read, List.cons_append, List.append_assoc, List.singleton_append,
      readTrailers_paren, ha.read _ (.inl rfl)]
    rfl
  | .index h hi => by
    rw [List.append_assoc, h.read, List.cons_append, List.append_assoc, List.singleton_append,
      readTrailers_bracket, hi.leads.readExpression (stops_of_close (.inr (.inl rfl)) _ _ _)]
    simp only [ok_bind, take_cons_self]

lemma Primary.read {w : List Token} {e : Expr} (rest : List Token) :
    Primary w e → readPrimary last (w ++ rest) = .ok (e, rest)
  | .integer | .boolean | .identifier => rfl
  | .group h => by
    rw [List.cons_append, List.append_assoc, List.singleton_append, readPrimary,
      h.leads.readExpression (stops_of_close (.inl rfl) _ _ _)]
    simp only [ok_bind, take_cons_self]
  | .vector h => by
    rw [List.cons_append, List.append_assoc, List.singleton_append, readPrimary,
      h.read _ (.inr rfl)]
    rfl

lemma Arguments.read {w : List Token} {es : List Expr} {close : Lexeme} {x : Expectation} {line : Nat}
    (rest : List Token) (hc : close = .rightParen ∨ close = .rightBracket) :
    Arguments w es → readList last close x (w ++ ⟨close, line⟩ :: rest) = .ok (es, rest)
  | .empty => by
    rw [List.nil_append, readList, front_cons, if_pos rfl, List.tail_cons]
  | .listed h => by
    obtain ⟨l, hl, hb⟩ := h.front
    have hf : front (w ++ ⟨close, line⟩ :: rest) ≠ some close := by
      rw [front_append hl]
      rintro ⟨⟩
      rcases hc with rfl | rfl <;> exact absurd hb nofun
    rw [readList, if_neg hf, h.read _ hc]

lemma Sequence.read {w : List Token} {es : List Expr} {close : Lexeme} {x : Expectation} {line : Nat}
    (rest : List Token) (hc : close = .rightParen ∨ close = .rightBracket) :
    Sequence w es → readItems last close x (w ++ ⟨close, line⟩ :: rest) = .ok (es, rest)
  | .one h => by
    have hs : Stops 6 (⟨close, line⟩ :: rest) := stops_of_close (hc.imp_right .inl) _ _ _
    have hf : front (⟨close, line⟩ :: rest) ≠ some .comma := by
      rcases hc with rfl | rfl <;> nofun
    rw [readItems_eq, h.leads.readExpression hs]
    simp only [ok_bind, if_neg hf, take_cons_self]
  | .more h hr => by
    rw [List.append_assoc, List.cons_append, readItems_eq,
      h.leads.readExpression (stops_of_close (.inr (.inr rfl)) _ _ _)]
    simp only [ok_bind, front_cons, if_pos, List.tail_cons, hr.read rest hc]

end

lemma Names.read {w : List Token} {xs : List String} (h : Names w xs) (found : List String)
    (line : Nat) (rest : List Token) :
    readNames last found (w ++ ⟨.rightParen, line⟩ :: rest) = .ok (found.reverse ++ xs, rest) := by
  induction h generalizing found with
  | one =>
    have hf : front (⟨.rightParen, line⟩ :: rest) ≠ some .comma := nofun
    rw [List.singleton_append, readNames_of_front_ne _ _ _ hf, take_cons_self, ok_bind,
      List.reverse_cons]
  | more _ ih =>
    rw [List.cons_append, List.cons_append, readNames_comma, ih, List.reverse_cons,
      List.append_assoc, List.singleton_append]

lemma Parameters.read {w : List Token} {xs : List String} (h : Parameters w xs) (line : Nat)
    (rest : List Token) :
    readParameters last (w ++ ⟨.rightParen, line⟩ :: rest) = .ok (xs, rest) := by
  cases h with
  | empty => rfl
  | listed h =>
    have hf : front (w ++ ⟨.rightParen, line⟩ :: rest) ≠ some .rightParen := by
      cases h <;> exact nofun
    rw [readParameters, if_neg hf, h.read]
    rfl

lemma closesBeforeEquals_neutral {w : List Token} (h : ∀ t ∈ w, Neutral t.lexeme) (opened line : Nat)
    (rest : List Token) :
    closesBeforeEquals (opened + 1) (w ++ ⟨.rightParen, line⟩ :: rest) =
      closesBeforeEquals opened rest := by
  induction w with
  | nil => rfl
  | cons t w ih =>
    obtain ⟨_, hl, hr⟩ := h t List.mem_cons_self
    rw [List.cons_append, closesBeforeEquals.eq_def]
    dsimp only
    split
    · exact (hl ‹_›).elim
    · exact (hr ‹_›).elim
    · exact ih fun u hu => h u (List.mem_cons_of_mem t hu)

lemma Parameters.startsDefinition {w : List Token} {xs : List String} (h : Parameters w xs)
    (f : String) (line line₁ line₂ line₃ : Nat) (rest : List Token) :
    startsDefinition (⟨.identifier f, line⟩ :: ⟨.leftParen, line₁⟩ ::
      (w ++ ⟨.rightParen, line₂⟩ :: ⟨.equals, line₃⟩ :: rest)) = true :=
  (closesBeforeEquals_neutral h.neutral 0 _ _).trans rfl

lemma Parameters.header {w : List Token} {xs : List String} (h : Parameters w xs) (last : Nat) (f : String)
    (line line₁ line₂ line₃ : Nat) (us : List Token) :
    readHeader last (⟨.identifier f, line⟩ :: ⟨.leftParen, line₁⟩ ::
      (w ++ ⟨.rightParen, line₂⟩ :: ⟨.equals, line₃⟩ :: us)) = .ok (⟨f, xs, line⟩, us) := by
  rw [readHeader]
  simp only [take_cons_self, ok_bind, h.read]

lemma closesBeforeEquals_eq_false {w rest : List Token} (hw : ∀ t ∈ w, t.lexeme ≠ .equals)
    (hr : front rest ≠ some .equals) (opened : Nat)
    (hc : w.countP (·.lexeme = .leftParen) + opened ≤ w.countP (·.lexeme = .rightParen)) :
    closesBeforeEquals opened (w ++ rest) = false := by
  induction w generalizing opened with
  | nil =>
    obtain rfl : opened = 0 := by simpa using hc
    cases rest with
    | nil => rfl
    | cons t rest => simpa [closesBeforeEquals] using hr
  | cons t w ih =>
    have ht := hw t List.mem_cons_self
    have hw := fun u hu => hw u (List.mem_cons_of_mem t hu)
    cases opened with
    | zero => simpa [closesBeforeEquals] using ht
    | succ opened =>
      rw [List.cons_append, closesBeforeEquals]
      split
      · exact ih hw _ (by simp_all; omega)
      · exact ih hw _ (by simp_all; omega)
      · exact ih hw _ (by simp_all)

lemma Fresh.front_ne {rest : List Token} (h : Fresh rest) {l : Lexeme} (hl : l.resumes = false) :
    front rest ≠ some l := by
  intro hf
  rw [h l hf] at hl
  exact nomatch hl

lemma Binary.startsDefinition_cases {n : Nat} {w : List Token} {e : Expr} (h : Binary n w e) :
    (∀ us, Parser.front us ≠ some .leftParen → startsDefinition (w ++ us) = false) ∨
      ∃ v, (∀ t ∈ v, t.lexeme ≠ .equals) ∧
        v.countP (·.lexeme = .leftParen) + 1 = v.countP (·.lexeme = .rightParen) ∧
        ∀ us, startsDefinition (w ++ us) = closesBeforeEquals 1 (v ++ us) := by
  obtain ⟨ho, hb⟩ := h.closed
  by_cases hw : ∃ f line line' v, w = ⟨.identifier f, line⟩ :: ⟨.leftParen, line'⟩ :: v
  · -- The parenthesis belongs to the expression, which closes it.
    obtain ⟨f, line, line', v, rfl⟩ := hw
    simp only [List.mem_cons, forall_eq_or_imp] at ho
    refine .inr ⟨v, ho.2.2, ?_, fun us => rfl⟩
    simpa using hb
  · refine .inl fun us hp => ?_
    obtain ⟨l, hl, -⟩ := h.front
    obtain ⟨line, v, rfl⟩ := front_eq_some_iff.1 hl
    rw [Parser.startsDefinition.eq_def]
    split
    · rename_i f _ line' ts heq
      rw [List.cons_append, List.cons.injEq, Token.mk.injEq] at heq
      obtain ⟨⟨rfl, -⟩, heq⟩ := heq
      cases v with
      | nil => exact (hp (front_eq_some_iff.2 ⟨line', ts, heq⟩)).elim
      | cons t v =>
        rw [List.cons_append, List.cons.injEq] at heq
        obtain ⟨rfl, -⟩ := heq
        exact (hw ⟨_, _, _, _, rfl⟩).elim
    · rfl

lemma Binary.startsDefinition {n : Nat} {w rest : List Token} {e : Expr} (h : Binary n w e)
    (hr : Fresh rest) : startsDefinition (w ++ rest) = false := by
  rcases h.startsDefinition_cases with hp | ⟨v, ho, hc, hv⟩
  · exact hp rest (hr.front_ne rfl)
  · rw [hv]
    exact closesBeforeEquals_eq_false ho (hr.front_ne rfl) 1 (Nat.le_of_eq hc)

lemma Sentence.read {w rest : List Token} {s : Statement} (h : Sentence w s) (hr : Fresh rest) :
    readStatement last (w ++ rest) = .ok (s, rest) := by
  cases h with
  | definition hp he =>
    simp only [List.cons_append, List.append_assoc]
    rw [readStatement, if_pos (hp.startsDefinition _ _ _ _ _ _), hp.header]
    simp only [ok_bind, he.leads.readExpression (hr.stops 6)]
  | expression he =>
    rw [readStatement, he.startsDefinition hr, if_neg Bool.false_ne_true,
      he.leads.readExpression (hr.stops 6)]
    rfl

lemma Following.fresh {w : List Token} {p : Program} (h : Following w p) : Fresh w := by
  cases h with
  | nil => exact nofun
  | cons ht _ _ =>
    rintro _ ⟨⟩
    exact ht

lemma Following.read {w : List Token} {p : Program} (h : Following w p) (found : List Statement) :
    statements last found w = .ok (found.reverse ++ p) := by
  induction h generalizing found with
  | nil => rw [statements, List.append_nil]
  | cons ht hs hf ih =>
    rw [List.cons_append, statements_cons, ← List.cons_append, hs.read hf.fresh]
    simp only [ok_bind, ih, List.reverse_cons, List.append_assoc, List.singleton_append]

lemma Sentence.exists_cons {w : List Token} {s : Statement} (h : Sentence w s) :
    ∃ t v, w = t :: v := by
  cases h <;> exact ⟨_, _, rfl⟩

lemma Derives.read {w : List Token} {p : Program} (h : Derives w p) :
    statements last [] w = .ok p := by
  cases h with
  | nil => rw [statements, List.reverse_nil]
  | cons hs hf =>
    obtain ⟨t, v, rfl⟩ := hs.exists_cons
    rw [List.cons_append, statements_cons, ← List.cons_append, hs.read hf.fresh]
    exact hf.read [_]

lemma parse_eq_ok_iff {ts : List Token} {p : Program} : parse ts = .ok p ↔ Derives (body ts) p := by
  have hm : parse ts = .ok p ↔ statements (lastLine ts) [] (body ts) = .ok p := by
    rw [parse]
    cases statements (lastLine ts) [] (body ts) with
    | ok q =>
      change (Except.ok q : Except ParseError Program) = .ok p ↔ _
      rw [Except.ok.injEq, Except.ok.injEq]
    | error e => exact iff_of_false nofun nofun
  rw [hm]
  exact ⟨derives_sound, Derives.read⟩

theorem parse_eq_ok_iff_derives (ts : List Token) :
    (∀ p, parse ts = .ok p ↔ Derives (ts.takeWhile (·.lexeme != .endOfInput)) p) ∧
      ∀ w p q, Derives w p → Derives w q → p = q := by
  refine ⟨fun p => parse_eq_ok_iff, fun w p q hp hq => ?_⟩
  have hr : statements 0 [] w = .ok p := hp.read
  exact Except.ok.inj (hr.symm.trans hq.read)

end ExprLang.Grammar
