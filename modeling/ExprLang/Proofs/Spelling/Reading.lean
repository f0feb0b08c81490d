import ExprLang.Parser.Lemmas
import ExprLang.Proofs.Spelling.Basic

namespace ExprLang

def Token.renumber (g : Nat → Nat) (t : Token) : Token := ⟨t.lexeme, g t.line⟩

def ParseError.renumber (g : Nat → Nat) (e : ParseError) : ParseError := ⟨e.cause, g e.line⟩

def Definition.renumber (g : Nat → Nat) (d : Definition) : Definition :=
  ⟨d.name, d.params, d.body.respell id g, g d.line⟩

def Statement.renumber (g : Nat → Nat) : Statement → Statement
  | definition d => definition (d.renumber g)
  | expression e l => expression (e.respell id g) (g l)

def Program.renumber (g : Nat → Nat) (p : Program) : Program := p.map (Statement.renumber g)

lemma Statement.renumber_renumber (f g : Nat → Nat) (st : Statement) :
    (st.renumber f).renumber g = st.renumber (g ∘ f) := by
  cases st <;> simp [Statement.renumber, Definition.renumber, Expr.respell_respell]

namespace Program

lemma renumber_renumber (f g : Nat → Nat) (p : Program) :
    (p.renumber f).renumber g = p.renumber (g ∘ f) := by
  rw [renumber, renumber, renumber, List.map_map]
  exact List.map_congr_left fun st _ => st.renumber_renumber f g

lemma renumber_id (p : Program) : p.renumber id = p := by
  refine List.map_id'' (fun st => ?_) p
  cases st <;> simp [Statement.renumber, Definition.renumber]

end Program

namespace Parser

variable {α β γ δ : Type} {g : Nat → Nat} {last N : Nat} {ts rest : List Token}

def renumbered (g : Nat → Nat) (f : α → β) :
    Except Failure (α × List Token) → Except Failure (β × List Token)
  | .ok (a, rest) => .ok (f a, rest.map (.renumber g))
  | .error (e, rest) => .error (e.renumber g, rest.map (.renumber g))

lemma renumbered_bind {f : α → β} {h : γ → δ} {r : Except Failure (α × List Token)}
    {k : α × List Token → Except Failure (γ × List Token)}
    {k' : β × List Token → Except Failure (δ × List Token)}
    (hk : ∀ a rest, r = .ok (a, rest) →
      k' (f a, rest.map (.renumber g)) = renumbered g h (k (a, rest))) :
    (renumbered g f r >>= k') = renumbered g h (r >>= k) := by
  rcases r with ⟨e, rest⟩ | ⟨a, rest⟩
  · rfl
  · exact hk a rest rfl

@[simp] lemma front_renumber : front (ts.map (.renumber g)) = front ts := by
  cases ts <;> rfl

lemma unexpected_renumber (x : Expectation) :
    unexpected (g last) x (ts.map (.renumber g)) = (unexpected last x ts).renumber g := by
  cases ts <;> rfl

lemma take_renumber (l : Lexeme) (x : Expectation) :
    take (g last) l x (ts.map (.renumber g)) = renumbered g id (take last l x ts) := by
  by_cases h : front ts = some l
  · obtain ⟨line, rest, rfl⟩ := front_eq_some_iff.1 h
    rw [List.map_cons, Token.renumber, take_cons_self, take_cons_self]
    rfl
  · rw [take_of_front_ne h, take_of_front_ne (by rwa [front_renumber]), unexpected_renumber]
    rfl

def EvenBelow (g : Nat → Nat) (last N : Nat) : Prop :=
  ∀ ts, ts.length < N →
    readExpression (g last) (ts.map (.renumber g)) =
      renumbered g (Expr.respell id g) (readExpression last ts)

lemma items_renumber (ih : EvenBelow g last N) (close : Lexeme) (x : Expectation)
    (hn : ts.length < N) : readItems (g last) close x (ts.map (.renumber g)) =
      renumbered g (List.map (Expr.respell id g)) (readItems last close x ts) := by
  induction hk : ts.length using Nat.strongRecOn generalizing ts with
  | ind k ihk =>
    rw [readItems_eq, readItems_eq, ih ts hn]
    refine renumbered_bind fun e rest he => ?_
    have hl := readExpression_length he
    dsimp only
    rw [front_renumber]
    split
    · rename_i hc
      obtain ⟨line, us, rfl⟩ := front_eq_some_iff.1 hc
      rw [List.length_cons] at hl
      rw [List.map_cons, List.tail_cons, List.tail_cons, ihk us.length (by omega) (by omega) rfl]
      exact renumbered_bind fun es rest _ => rfl
    · rw [take_renumber]
      exact renumbered_bind fun _ rest _ => rfl

lemma list_renumber (ih : EvenBelow g last N) (close : Lexeme) (x : Expectation)
    (hn : ts.length < N) : readList (g last) close x (ts.map (.renumber g)) =
      renumbered g (List.map (Expr.respell id g)) (readList last close x ts) := by
  rw [readList, readList, front_renumber]
  split
  · rw [← List.map_tail]
    rfl
  · exact items_renumber ih close x hn

lemma primary_renumber (ih : EvenBelow g last N) (hn : ts.length ≤ N) :
    readPrimary (g last) (ts.map (.renumber g)) =
      renumbered g (Expr.respell id g) (readPrimary last ts) := by
  rcases ts with _ | ⟨⟨l, line⟩, ts⟩
  · rfl
  · cases l with
    | leftParen =>
      rw [List.map_cons, Token.renumber, readPrimary, readPrimary, ih ts hn]
      refine renumbered_bind fun e rest _ => ?_
      dsimp only
      rw [take_renumber]
      exact renumbered_bind fun _ rest _ => rfl
    | leftBracket =>
      rw [List.map_cons, Token.renumber, readPrimary, readPrimary, list_renumber ih _ _ hn]
      refine renumbered_bind fun es rest _ => ?_
      simp [renumbered, Expr.respell_vector]
    | _ => rfl

lemma trailers_renumber (ih : EvenBelow g last N) (hn : ts.length ≤ N) (a : Expr) :
    readTrailers (g last) (a.respell id g) (ts.map (.renumber g)) =
      renumbered g (Expr.respell id g) (readTrailers last a ts) := by
  induction hk : ts.length using Nat.strongRecOn generalizing ts a with
  | ind k ihk =>
    by_cases hp : front ts = some .leftParen
    · obtain ⟨line, us, rfl⟩ := front_eq_some_iff.1 hp
      rw [List.length_cons] at hn hk
      rw [List.map_cons, Token.renumber, readTrailers_paren, readTrailers_paren,
        list_renumber ih _ _ hn]
      refine renumbered_bind fun es rest hes => ?_
      have hl := readList_length hes
      dsimp only
      rw [← ihk rest.length (by omega) (by omega) _ rfl, Expr.respell, Expr.respellAll_eq_map]
    · by_cases hb : front ts = some .leftBracket
      · obtain ⟨line, us, rfl⟩ := front_eq_some_iff.1 hb
        rw [List.length_cons] at hn hk
        rw [List.map_cons, Token.renumber, readTrailers_bracket, readTrailers_bracket, ih us hn]
        refine renumbered_bind fun i rest hi => ?_
        have hl := readExpression_length hi
        dsimp only
        rw [take_renumber]
        refine renumbered_bind fun _ rest ht => ?_
        have hl' := take_length ht
        dsimp only
        rw [← ihk rest.length (by omega) (by omega) _ rfl, Expr.respell]
      · rw [readTrailers_stop _ hp hb, readTrailers_stop] <;> simp_all [renumbered]

lemma unary_renumber (ih : EvenBelow g last N) (hn : ts.length ≤ N) :
    readUnary (g last) (ts.map (.renumber g)) =
      renumbered g (Expr.respell id g) (readUnary last ts) := by
  induction ts with
  | nil =>
    have hf : front [] ≠ some .minus := nofun
    rw [List.map_nil, readUnary_of_front_ne hf, readUnary_of_front_ne hf]
    rfl
  | cons t ts iht =>
    by_cases hm : front (t :: ts) = some .minus
    · obtain ⟨line, us, he⟩ := front_eq_some_iff.1 hm
      cases he
      rw [List.map_cons, Token.renumber, readUnary_minus, readUnary_minus, iht (Nat.le_of_succ_le hn)]
      exact renumbered_bind fun e rest _ => rfl
    · rw [readUnary_of_front_ne hm, readUnary_of_front_ne (by rwa [front_renumber]),
        primary_renumber ih hn]
      refine renumbered_bind fun e rest he => ?_
      have hl := readPrimary_length he
      exact trailers_renumber ih (by omega) e

lemma below_renumber (ih : EvenBelow g last N) (level : Nat) (hn : ts.length ≤ N) :
    readBelow (g last) level (ts.map (.renumber g)) =
      renumbered g (Expr.respell id g) (readBelow last level ts) := by
  induction level generalizing ts with
  | zero => exact unary_renumber ih hn
  | succ level ihl =>
    have hc (left : Expr) (ts : List Token) (hn : ts.length ≤ N) :
        readChain (g last) level (left.respell id g) (ts.map (.renumber g)) =
          renumbered g (Expr.respell id g) (readChain last level left ts) := by
      induction hk : ts.length using Nat.strongRecOn generalizing ts left with
      | ind k ihk =>
        rw [readChain_eq, readChain_eq]
        cases ts with
        | nil => rfl
        | cons t ts =>
          rw [List.length_cons] at hn hk
          rw [List.map_cons, chainStep, chainStep, Token.renumber]
          cases operatorAt? level t.lexeme with
          | none => rfl
          | some op =>
            dsimp only
            rw [ihl (Nat.le_of_succ_le hn)]
            refine renumbered_bind fun right rest hr => ?_
            have hl := readBelow_length hr
            dsimp only
            rw [← ihk rest.length (by omega) _ rest (by omega) rfl, Expr.respell]
    rw [readBelow_succ, readBelow_succ, ihl hn]
    refine renumbered_bind fun left rest hl => ?_
    exact hc left rest (Nat.le_of_lt (Nat.lt_of_lt_of_le (readBelow_length hl) hn))

lemma readExpression_renumber (ts : List Token) :
    readExpression (g last) (ts.map (.renumber g)) =
      renumbered g (Expr.respell id g) (readExpression last ts) := by
  -- What an expression holds in brackets or after an operator is read from fewer tokens.
  have he (N : Nat) : EvenBelow g last N := by
    induction N with
    | zero => exact nofun
    | succ N ih =>
      intro ts hn
      rw [readExpression_eq, readExpression_eq]
      exact below_renumber ih _ (Nat.le_of_lt_succ hn)
  exact he (ts.length + 1) ts (Nat.lt_succ_self _)

lemma names_renumber (names : List String) (ts : List Token) :
    readNames (g last) names (ts.map (.renumber g)) = renumbered g id (readNames last names ts) := by
  induction hk : ts.length using Nat.strongRecOn generalizing ts names with
  | ind k ihk =>
    rcases ts with _ | ⟨⟨l, line⟩, ts⟩
    · rfl
    · cases l with
      | identifier x =>
        by_cases hc : front ts = some .comma
        · obtain ⟨line', us, rfl⟩ := front_eq_some_iff.1 hc
          simp only [List.length_cons] at hk
          rw [readNames_comma, ← ihk us.length (by omega) _ us rfl]
          exact readNames_comma _ _ _ _ _
        · rw [readNames_of_front_ne _ _ _ hc, List.map_cons, Token.renumber,
            readNames_of_front_ne _ _ _ (by rwa [front_renumber]), take_renumber]
          exact renumbered_bind fun _ rest _ => rfl
      | _ => rfl

lemma parameters_renumber (ts : List Token) :
    readParameters (g last) (ts.map (.renumber g)) = renumbered g id (readParameters last ts) := by
  rw [readParameters, readParameters, front_renumber]
  split
  · rw [← List.map_tail]
    rfl
  · exact names_renumber [] ts

def Header.renumber (g : Nat → Nat) (hd : Header) : Header := ⟨hd.name, hd.params, g hd.line⟩

lemma header_renumber (ts : List Token) :
    readHeader (g last) (ts.map (.renumber g)) =
      renumbered g (Header.renumber g) (readHeader last ts) := by
  rcases ts with _ | ⟨⟨l, line⟩, ts⟩
  · rfl
  · cases l with
    | identifier f =>
      rw [List.map_cons, Token.renumber, readHeader, readHeader, take_renumber]
      refine renumbered_bind fun _ rest _ => ?_
      dsimp only
      rw [parameters_renumber]
      refine renumbered_bind fun params rest _ => ?_
      dsimp only
      rw [take_renumber]
      exact renumbered_bind fun _ rest _ => rfl
    | _ => rfl

lemma closesBeforeEquals_renumber (opened : Nat) (ts : List Token) :
    closesBeforeEquals opened (ts.map (.renumber g)) = closesBeforeEquals opened ts := by
  induction ts generalizing opened with
  | nil => rfl
  | cons t ts ih =>
    cases opened with
    | zero => rfl
    | succ opened =>
      rw [List.map_cons, closesBeforeEquals, closesBeforeEquals, ih, ih, ih]
      rfl

lemma startsDefinition_renumber (ts : List Token) :
    startsDefinition (ts.map (.renumber g)) = startsDefinition ts := by
  rcases ts with _ | ⟨⟨l, line⟩, _ | ⟨⟨m, line'⟩, ts⟩⟩
  · rfl
  · cases l <;> rfl
  · cases l with
    | identifier f =>
      cases m with
      | leftParen => exact closesBeforeEquals_renumber 1 ts
      | _ => rfl
    | _ => rfl

lemma readStatement_renumber (g : Nat → Nat) (last : Nat) (ts : List Token) :
    readStatement (g last) (ts.map (.renumber g)) =
      renumbered g (Statement.renumber g) (readStatement last ts) := by
  rw [readStatement, readStatement, startsDefinition_renumber]
  split
  · rw [header_renumber]
    refine renumbered_bind fun hd rest _ => ?_
    dsimp only
    rw [readExpression_renumber]
    exact renumbered_bind fun body rest _ => rfl
  · rw [readExpression_renumber]
    refine renumbered_bind fun e rest _ => ?_
    cases ts <;> rfl

lemma statements_renumber (g : Nat → Nat) (last : Nat) (found : List Statement) (ts : List Token) :
    (statements (g last) (found.map (.renumber g)) (ts.map (.renumber g))).mapError (·.1) =
      ((statements last found ts).map (Program.renumber g)).mapError (·.1.renumber g) := by
  induction hk : ts.length using Nat.strongRecOn generalizing ts found with
  | ind k ihk =>
    cases ts with
    | nil =>
      rw [List.map_nil, statements, statements, ← List.map_reverse]
      rfl
    | cons t ts =>
      have h := readStatement_renumber g last (t :: ts)
      rw [List.map_cons] at h
      rw [List.map_cons, statements_cons, statements_cons, h]
      cases hs : readStatement last (t :: ts) with
      | error e => rfl
      | ok r =>
        rw [← plain_statement] at hs
        exact ihk r.2.length (hk ▸ Parsed.length_lt hs) (r.1 :: found) r.2 rfl

lemma lastLine_renumber (h : ts ≠ []) : lastLine (ts.map (.renumber g)) = g (lastLine ts) := by
  have hd : (ts.map (Token.renumber g)).dropWhile (·.lexeme != .endOfInput) =
      (ts.dropWhile (·.lexeme != .endOfInput)).map (Token.renumber g) := List.dropWhile_map
  rw [lastLine, lastLine, hd]
  cases ts.dropWhile (·.lexeme != .endOfInput) with
  | cons t us => rfl
  | nil => simp [List.getLast?_map, List.getLast?_eq_some_getLast h, Token.renumber]

end Parser

theorem parse_renumber (g : Nat → Nat) (ts : List Token) :
    parse (ts.map (.renumber g)) =
      ((parse ts).map (Program.renumber g)).mapError (ParseError.renumber g) := by
  cases ts with
  | nil =>
    have hn : parse [] = .ok [] := by
      rw [parse, Parser.body, List.takeWhile_nil, Parser.statements]
      rfl
    rw [List.map_nil, hn]
    rfl
  | cons t ts =>
    have hb : Parser.body ((t :: ts).map (Token.renumber g)) =
        (Parser.body (t :: ts)).map (Token.renumber g) := List.takeWhile_map
    rw [parse, parse, hb, Parser.lastLine_renumber (List.cons_ne_nil t ts)]
    have h := Parser.statements_renumber g (Parser.lastLine (t :: ts)) [] (Parser.body (t :: ts))
    rw [List.map_nil] at h
    rw [h]
    cases Parser.statements (Parser.lastLine (t :: ts)) [] (Parser.body (t :: ts)) <;> rfl

end ExprLang
