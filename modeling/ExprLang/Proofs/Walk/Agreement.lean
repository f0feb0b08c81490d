import ExprLang.Proofs.Walk.Basic

namespace ExprLang.Walk

open ExprLang.Parser Filter

structure At (ts : List Token) (e : Nat) (c : Cursor) (us : List Token) : Prop where
  ahead : body (ts.drop c.place) = us
  total : c.place + us.length = e
  passed : c.place ≤ c.furthest
  within : c.furthest ≤ e

section Agreement

variable {α β : Type}

def value : Except Failure (α × List Token) → Except ParseError α
  | .ok (a, _) => .ok a
  | .error (err, _) => .error err

def left : Except Failure (α × List Token) → List Token
  | .ok (_, rest) => rest
  | .error (_, rest) => rest

/-- From before the tokens `us` a walk ends as a reading does, given rounds enough. -/
def Agrees (ts : List Token) (e : Nat) (m : Nat → Walk α) (us : List Token)
    (r : Except Failure (α × List Token)) : Prop :=
  ∀ c, At ts e c us → ∃ c', (∀ᶠ n in atTop, m n c = some (value r, c')) ∧ At ts e c' (left r)

variable {ts us rest : List Token} {e : Nat} {c c' : Cursor} {t : Token} {l : Lexeme} {x : Expectation} {a : α}
  {err : ParseError} {r : Except Failure (α × List Token)} {s : Except Failure (β × List Token)}
  {m : Nat → Walk α}

lemma bind_of_ok {m : Walk α} {g : α → Walk β} (h : m c = some (.ok a, c')) : (m >>= g) c = g a c' := by
  change (m c >>= _) = _
  rw [h]
  rfl

lemma bind_of_error {m : Walk α} {g : α → Walk β} (h : m c = some (.error err, c')) :
    (m >>= g) c = some (.error err, c') := by
  change (m c >>= _) = _
  rw [h]
  rfl

lemma Agrees.bind {g : Nat → α → Walk β} {f : α × List Token → Except Failure (β × List Token)}
    (hm : Agrees ts e m us r)
    (hg : ∀ a rest, r = .ok (a, rest) → Agrees ts e (fun n => g n a) rest (f (a, rest))) :
    Agrees ts e (fun n => m n >>= g n) us (r >>= f) := by
  intro c hc
  obtain ⟨c', hm, hc'⟩ := hm c hc
  cases r with
  | error p => exact ⟨c', hm.mono fun n hn => bind_of_error hn, hc'⟩
  | ok p =>
    obtain ⟨c'', hg, hc''⟩ := hg p.1 p.2 rfl c' hc'
    refine ⟨c'', ?_, hc''⟩
    filter_upwards [hm, hg] with n hn hgn
    exact (bind_of_ok hn).trans hgn

lemma agrees_value (a : α) (us : List Token) : Agrees ts e (fun _ => pure a) us (.ok (a, us)) :=
  fun c hc => ⟨c, .of_forall fun _ => rfl, hc⟩

lemma Agrees.round {r : Reading α} {x : Except Failure (α × List Token)}
    (h : Agrees ts e (fun n => round ts (read ts n) r) us x) : Agrees ts e (fun n => read ts n r) us x := by
  intro c hc
  obtain ⟨c', hm, hc'⟩ := h c hc
  refine ⟨c', ?_, hc'⟩
  -- What a round does with `n` rounds left inside it is the reading with one more.
  rw [← map_add_atTop_eq_nat 1]
  exact hm

lemma At.peek_nil (h : At ts e c []) : (peek ts e).lexeme = .endOfInput := by
  have he : c.place = e := h.total
  rcases body_drop_cases ts c.place with ⟨hp, -⟩ | ⟨-, hb⟩
  · exact he ▸ hp
  · rw [h.ahead] at hb
    cases hb

lemma current_eq (t : Token) (h : peek ts c.place = t) : current ts c = some (.ok t, c) := by
  subst h
  rfl

lemma advance_eq {i : Nat} (h : (peek ts i).lexeme ≠ .endOfInput) (f : Nat) :
    advance ts ⟨i, f⟩ = some (.ok (), ⟨i + 1, max f (i + 1)⟩) := by
  rw [advance, bind_of_ok (current_eq _ rfl), if_neg h]
  rfl

lemma eat_eq {i : Nat} (h : (peek ts i).lexeme = l) (hl : l ≠ .endOfInput) (f : Nat) :
    eat ts l ⟨i, f⟩ = some (.ok true, ⟨i + 1, max f (i + 1)⟩) := by
  rw [eat, bind_of_ok (current_eq _ rfl), if_pos h, bind_of_ok (advance_eq (h ▸ hl) f)]
  rfl

lemma eat_of_ne {i : Nat} (h : (peek ts i).lexeme ≠ l) (f : Nat) :
    eat ts l ⟨i, f⟩ = some (.ok false, ⟨i, f⟩) := by
  rw [eat, bind_of_ok (current_eq _ rfl), if_neg h]
  rfl

lemma Agrees.current_nil {g : Nat → Token → Walk α}
    (h : ∀ t : Token, t.lexeme = .endOfInput → t.line = (peek ts e).line → Agrees ts e (fun n => g n t) [] r) :
    Agrees ts e (fun n => current ts >>= g n) [] r := by
  intro c hc
  have he : c.place = e := hc.total
  obtain ⟨c', hm, hc'⟩ := h (peek ts e) hc.peek_nil rfl c hc
  exact ⟨c', hm.mono fun n hn => (bind_of_ok (current_eq _ (by rw [he]))).trans hn, hc'⟩

lemma Agrees.current_cons {g : Nat → Token → Walk α}
    (h : t.lexeme ≠ .endOfInput → Agrees ts e (fun n => g n t) (t :: us) r) :
    Agrees ts e (fun n => current ts >>= g n) (t :: us) r := by
  intro c hc
  obtain ⟨rfl, hl, -⟩ := body_drop_cons hc.ahead
  obtain ⟨c', hm, hc'⟩ := h hl c hc
  exact ⟨c', hm.mono fun n hn => (bind_of_ok (current_eq _ rfl)).trans hn, hc'⟩

lemma At.advance (h : At ts e c (t :: us)) :
    ∃ c', Walk.advance ts c = some (.ok (), c') ∧ At ts e c' us := by
  obtain ⟨p, f⟩ := c
  obtain ⟨ha, ht, hp, hf⟩ := h
  obtain ⟨rfl, hl, hu⟩ := body_drop_cons ha
  simp only [List.length_cons] at ht hp hf
  refine ⟨⟨p + 1, max f (p + 1)⟩, advance_eq hl f, ⟨hu.symm, ?_, ?_, ?_⟩⟩
  · simp only
    omega
  · exact Nat.le_max_right _ _
  · exact Nat.max_le.2 ⟨hf, by omega⟩

lemma agrees_advance (t : Token) (us : List Token) :
    Agrees ts e (fun _ => advance ts) (t :: us) (.ok ((), us)) := by
  intro c hc
  obtain ⟨c', ha, hc'⟩ := hc.advance
  exact ⟨c', .of_forall fun _ => ha, hc'⟩

lemma agrees_error (err : ParseError) (us : List Token) :
    Agrees (α := α) ts e (fun _ => throw err) us (.error (err, us)) :=
  fun c hc => ⟨c, .of_forall fun _ => rfl, hc⟩

lemma Agrees.next {g : Nat → α → Walk β} (hm : Agrees ts e m us (.ok (a, rest)))
    (hg : Agrees ts e (fun n => g n a) rest s) : Agrees ts e (fun n => m n >>= g n) us s := by
  refine hm.bind (f := fun _ => s) fun b rest' hb => ?_
  cases hb
  exact hg

lemma Agrees.stop {g : Nat → α → Walk β} {f : Failure} (hm : Agrees ts e m us (.error f)) :
    Agrees ts e (fun n => m n >>= g n) us (.error f) :=
  hm.bind (f := fun _ => .error f) nofun

lemma agrees_refuse (ts : List Token) (e : Nat) (x : Expectation) (us : List Token) :
    Agrees (α := α) ts e (fun _ => refuse ts x) us (.error (unexpected (peek ts e).line x us, us)) := by
  cases us with
  | nil =>
    refine Agrees.current_nil fun t ht hl => ?_
    rw [refusal, if_pos ht, hl]
    exact agrees_error _ []
  | cons t us =>
    refine Agrees.current_cons fun ht => ?_
    rw [refusal, if_neg ht]
    exact agrees_error _ (t :: us)

lemma agrees_eat (l : Lexeme) (line : Nat) (us : List Token) :
    Agrees ts e (fun _ => eat ts l) (⟨l, line⟩ :: us) (.ok (true, us)) :=
  Agrees.current_cons fun _ => by
    simp only [if_true]
    exact (agrees_advance _ us).next (agrees_value true us)

lemma agrees_eat_of_front_ne (l : Lexeme) (hl : l ≠ .endOfInput) (hf : front us ≠ some l) :
    Agrees ts e (fun _ => eat ts l) us (.ok (false, us)) := by
  cases us with
  | nil =>
    refine Agrees.current_nil fun t ht _ => ?_
    simp only [ht, hl.symm, if_false]
    exact agrees_value false []
  | cons t us =>
    rw [front_cons, Ne, Option.some.injEq] at hf
    refine Agrees.current_cons fun _ => ?_
    simp only [hf, if_false]
    exact agrees_value false (t :: us)

lemma agrees_expect (l : Lexeme) (hl : l ≠ .endOfInput) (x : Expectation) (us : List Token) :
    Agrees ts e (fun _ => expect ts l x) us (take (peek ts e).line l x us) := by
  by_cases hf : front us = some l
  · obtain ⟨line, us, rfl⟩ := front_eq_some_iff.1 hf
    rw [take_cons_self]
    refine Agrees.current_cons fun _ => ?_
    simp only [if_true]
    exact agrees_advance _ us
  · rw [take_of_front_ne hf]
    cases us with
    | nil =>
      refine Agrees.current_nil fun t ht _ => ?_
      simp only [ht, hl.symm, if_false]
      exact agrees_refuse ts e x []
    | cons t us =>
      rw [front_cons, Option.some.injEq] at hf
      refine Agrees.current_cons fun _ => ?_
      simp only [hf, if_false]
      exact agrees_refuse ts e x (t :: us)

end Agreement

section Expression

variable {ts us : List Token} {e N level : Nat}

def AgreesBelow (ts : List Token) (e N : Nat) : Prop :=
  ∀ us, us.length < N →
    Agrees ts e (fun n => read ts n .expression) us (readExpression (peek ts e).line us)

lemma agrees_items (ih : AgreesBelow ts e N) (close : Lexeme) (hc : close ≠ .endOfInput)
    (x : Expectation) (hn : us.length < N) :
    Agrees ts e (fun n => read ts n (.items close x)) us (readItems (peek ts e).line close x us) := by
  induction hk : us.length using Nat.strongRecOn generalizing us with
  | ind k ihk =>
    refine Agrees.round ?_
    rw [readItems_eq]
    refine (ih us hn).bind fun a rest ha => ?_
    have hl := readExpression_length ha
    dsimp only
    by_cases hf : front rest = some .comma
    · obtain ⟨line, vs, rfl⟩ := front_eq_some_iff.1 hf
      rw [List.length_cons] at hl
      rw [if_pos hf]
      refine (agrees_eat .comma line vs).next ?_
      exact (ihk vs.length (by omega) (by omega) rfl).bind fun as rest _ => agrees_value (a :: as) rest
    · rw [if_neg hf]
      refine (agrees_eat_of_front_ne .comma (by decide) hf).next ?_
      exact (agrees_expect close hc x rest).bind fun _ rest _ => agrees_value [a] rest

lemma agrees_list (ih : AgreesBelow ts e N) (close : Lexeme) (hc : close ≠ .endOfInput)
    (x : Expectation) (hn : us.length < N) :
    Agrees ts e (fun n => read ts n (.list close x)) us (readList (peek ts e).line close x us) := by
  refine Agrees.round ?_
  by_cases hf : front us = some close
  · obtain ⟨line, vs, rfl⟩ := front_eq_some_iff.1 hf
    rw [readList, if_pos hf]
    exact (agrees_eat close line vs).next (agrees_value [] vs)
  · rw [readList, if_neg hf]
    exact (agrees_eat_of_front_ne close hc hf).next (agrees_items ih close hc x hn)

lemma agrees_primary (ih : AgreesBelow ts e N) (hn : us.length ≤ N) :
    Agrees ts e (fun n => read ts n .primary) us (readPrimary (peek ts e).line us) := by
  refine Agrees.round ?_
  rcases us with _ | ⟨⟨l, line⟩, us⟩
  · refine Agrees.current_nil fun t ht _ => ?_
    obtain ⟨l, line⟩ := t
    cases ht
    exact agrees_refuse ts e .expression []
  · refine Agrees.current_cons fun _ => ?_
    cases l with
    | integer k => exact (agrees_advance _ us).next (agrees_value _ us)
    | boolean b => exact (agrees_advance _ us).next (agrees_value _ us)
    | identifier x => exact (agrees_advance _ us).next (agrees_value _ us)
    | leftParen =>
      refine (agrees_advance _ us).next ?_
      refine (ih us hn).bind fun a rest _ => ?_
      exact (agrees_expect .rightParen (by decide) .closingParen rest).bind fun _ rest _ => agrees_value a rest
    | leftBracket =>
      refine (agrees_advance _ us).next ?_
      exact (agrees_list ih .rightBracket (by decide) .closingBracket hn).bind fun as rest _ => agrees_value _ rest
    | _ => exact agrees_refuse ts e .expression _

lemma agrees_trailers (ih : AgreesBelow ts e N) (hn : us.length ≤ N) (a : Expr) :
    Agrees ts e (fun n => read ts n (.trailers a)) us (readTrailers (peek ts e).line a us) := by
  induction hk : us.length using Nat.strongRecOn generalizing us a with
  | ind k ihk =>
    refine Agrees.round ?_
    rcases us with _ | ⟨⟨l, line⟩, us⟩
    · refine Agrees.current_nil fun t ht _ => ?_
      have hs : readTrailers (peek ts e).line a [] = .ok (a, []) := readTrailers_stop a nofun nofun
      simp only [ht, hs, reduceCtorEq, if_false]
      exact agrees_value a []
    · rw [List.length_cons] at hn hk
      refine Agrees.current_cons fun _ => ?_
      by_cases hp : l = .leftParen
      · subst hp
        rw [readTrailers_paren]
        refine (agrees_advance _ us).next ?_
        refine (agrees_list ih .rightParen (by decide) .closingParen hn).bind fun as rest has => ?_
        have hl := readList_length has
        exact ihk rest.length (by omega) (by omega) _ rfl
      · by_cases hb : l = .leftBracket
        · subst hb
          rw [readTrailers_bracket]
          refine (agrees_advance _ us).next ?_
          refine (ih us hn).bind fun i rest hi => ?_
          have hl := readExpression_length hi
          refine (agrees_expect .rightBracket (by decide) .closingBracketAfterIndex rest).bind fun _ rest ht => ?_
          have hl' := take_length ht
          exact ihk rest.length (by omega) (by omega) _ rfl
        · rw [readTrailers_stop a (by simpa using hp) (by simpa using hb)]
          simp only [hp, hb, if_false]
          exact agrees_value a _

lemma agrees_unary (ih : AgreesBelow ts e N) (hn : us.length ≤ N) :
    Agrees ts e (fun n => read ts n .unary) us (readUnary (peek ts e).line us) := by
  have plain {us : List Token} (hn : us.length ≤ N) (hm : front us ≠ some .minus) :
      Agrees ts e (fun n => do let a ← read ts n .primary; read ts n (.trailers a)) us
        (readUnary (peek ts e).line us) := by
    rw [readUnary_of_front_ne hm]
    refine (agrees_primary ih hn).bind fun a rest ha => ?_
    exact agrees_trailers ih (Nat.le_of_lt (Nat.lt_of_lt_of_le (readPrimary_length ha) hn)) a
  induction us with
  | nil =>
    refine Agrees.round (Agrees.current_nil fun t ht _ => ?_)
    simp only [ht, reduceCtorEq, if_false]
    exact plain hn nofun
  | cons t us ihu =>
    refine Agrees.round (Agrees.current_cons fun _ => ?_)
    by_cases hm : t.lexeme = .minus
    · obtain ⟨l, line⟩ := t
      cases hm
      rw [readUnary_minus]
      refine (agrees_advance _ us).next ?_
      exact (ihu (Nat.le_of_succ_le hn)).bind fun a rest _ => agrees_value _ rest
    · simp only [hm, if_false]
      exact plain hn (by simpa using hm)

lemma agrees_chain
    (hb : ∀ us, us.length ≤ N →
      Agrees ts e (fun n => read ts n (.below level)) us (readBelow (peek ts e).line level us))
    (hn : us.length ≤ N) (left : Expr) :
    Agrees ts e (fun n => read ts n (.chain level left)) us (readChain (peek ts e).line level left us) := by
  induction hk : us.length using Nat.strongRecOn generalizing us left with
  | ind k ihk =>
    refine Agrees.round ?_
    rw [readChain_eq]
    rcases us with _ | ⟨⟨l, line⟩, us⟩
    · refine Agrees.current_nil fun t ht _ => ?_
      rw [ht]
      exact agrees_value left []
    · rw [List.length_cons] at hn hk
      refine Agrees.current_cons fun _ => ?_
      rw [chainStep]
      cases operatorAt? level l with
      | none => exact agrees_value left _
      | some op =>
        refine (agrees_advance _ us).next ?_
        refine (hb us (Nat.le_of_succ_le hn)).bind fun right rest hr => ?_
        have hl := readBelow_length hr
        exact ihk rest.length (by omega) (by omega) _ rfl

lemma agrees_below (ih : AgreesBelow ts e N) (level : Nat) (hn : us.length ≤ N) :
    Agrees ts e (fun n => read ts n (.below level)) us (readBelow (peek ts e).line level us) := by
  induction level generalizing us with
  | zero => exact Agrees.round (agrees_unary ih hn)
  | succ level ihl =>
    refine Agrees.round ?_
    rw [readBelow_succ]
    refine (ihl hn).bind fun left rest hl => ?_
    exact agrees_chain (fun _ => ihl) (Nat.le_of_lt (Nat.lt_of_lt_of_le (readBelow_length hl) hn)) left

theorem agrees_expression (ts : List Token) (e : Nat) (us : List Token) :
    Agrees ts e (fun n => read ts n .expression) us (readExpression (peek ts e).line us) := by
  -- What an expression holds in brackets is read from fewer tokens.
  have h (N : Nat) : AgreesBelow ts e N := by
    induction N with
    | zero => exact nofun
    | succ N ih =>
      intro us hn
      rw [readExpression_eq]
      exact Agrees.round (agrees_below ih _ (Nat.le_of_lt_succ hn))
  exact h (us.length + 1) us (Nat.lt_succ_self _)

end Expression

end ExprLang.Walk
