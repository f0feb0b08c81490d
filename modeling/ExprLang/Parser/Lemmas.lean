import ExprLang.Parser.Program

namespace ExprLang.Parser

abbrev Failure := ParseError × List Token

variable {α β : Type} {ts us all : List Token}

def Parsed.plain : Parsed ts α → Except Failure (α × List Token)
  | .ok a rest _ => .ok (a, rest)
  | .fail e rest _ => .error (e, rest)

@[simp] theorem ok_bind (a : α) (f : α → Except Failure β) : (Except.ok a >>= f) = f a := rfl

@[simp] theorem error_bind (e : Failure) (f : α → Except Failure β) :
    (Except.error e >>= f) = .error e := rfl

theorem plain_follow {part : Unit → Deferred (Parsed us α)} (hu : us.length ≤ ts.length)
    {next : (a : α) → (rest : List Token) → rest.length < us.length → Deferred (Parsed ts β)}
    {f : α × List Token → Except Failure (β × List Token)}
    (h : ∀ a rest hr, (next a rest hr).run.plain = f (a, rest)) :
    (follow part hu next).run.plain = (part ()).run.plain >>= f := by
  cases hp : (part ()).run with
  | ok a rest hr => rw [follow_run_ok hp]; exact h a rest hr
  | fail e rest hr => rw [follow_run_fail hp]; rfl

theorem bind_eq_ok_iff {x : Except Failure α} {f : α → Except Failure β} {b : β} :
    x >>= f = .ok b ↔ ∃ a, x = .ok a ∧ f a = .ok b := by
  cases x with
  | ok a => simp
  | error e => simp

theorem bind_eq_error_iff {x : Except Failure α} {f : α → Except Failure β} {e : Failure} :
    x >>= f = .error e ↔ x = .error e ∨ ∃ a, x = .ok a ∧ f a = .error e := by
  cases x with
  | ok a => simp
  | error e => simp

def front (ts : List Token) : Option Lexeme := ts.head?.map (·.lexeme)

@[simp] theorem front_nil : front [] = none := rfl

@[simp] theorem front_cons (t : Token) (ts : List Token) : front (t :: ts) = some t.lexeme := rfl

theorem front_eq_some_iff {l : Lexeme} : front ts = some l ↔ ∃ line rest, ts = ⟨l, line⟩ :: rest := by
  cases ts with
  | nil => simp
  | cons t ts =>
    obtain ⟨m, line⟩ := t
    simp only [front_cons, Option.some.injEq, List.cons.injEq, Token.mk.injEq]
    exact ⟨fun h => ⟨line, ts, ⟨h, rfl⟩, rfl⟩, fun ⟨_, _, ⟨h, _⟩, _⟩ => h⟩

theorem front_append {l : Lexeme} (h : front ts = some l) (us : List Token) :
    front (ts ++ us) = some l := by
  obtain ⟨line, rest, rfl⟩ := front_eq_some_iff.1 h
  rfl

def take (last : Nat) (l : Lexeme) (x : Expectation) (ts : List Token) :
    Except Failure (Unit × List Token) :=
  (expect last l x ts).plain

@[simp] theorem take_cons_self (last : Nat) (l : Lexeme) (x : Expectation) (line : Nat)
    (ts : List Token) : take last l x (⟨l, line⟩ :: ts) = .ok ((), ts) := by
  simp [take, expect, Parsed.plain]

theorem take_of_front_ne {last : Nat} {l : Lexeme} {x : Expectation} (h : front ts ≠ some l) :
    take last l x ts = .error (unexpected last x ts, ts) := by
  cases ts with
  | nil => rfl
  | cons t ts =>
    rw [front_cons, Ne, Option.some.injEq] at h
    simp [take, expect, h, Parsed.plain]

theorem take_eq_ok_iff {last : Nat} {l : Lexeme} {x : Expectation} {r : Unit × List Token} :
    take last l x ts = .ok r ↔ ∃ line, ts = ⟨l, line⟩ :: r.2 := by
  by_cases h : front ts = some l
  · obtain ⟨line, rest, rfl⟩ := front_eq_some_iff.1 h
    rw [take_cons_self, Except.ok.injEq]
    exact ⟨fun hr => ⟨line, hr ▸ rfl⟩, fun ⟨_, hr⟩ => Prod.ext rfl (List.cons.inj hr).2⟩
  · rw [take_of_front_ne h]
    refine ⟨nofun, fun ⟨line, hr⟩ => (h ?_).elim⟩
    rw [hr, front_cons]

theorem take_eq_error_iff {last : Nat} {l : Lexeme} {x : Expectation} {f : Failure} :
    take last l x ts = .error f ↔ front ts ≠ some l ∧ f = (unexpected last x ts, ts) := by
  by_cases h : front ts = some l
  · obtain ⟨line, rest, rfl⟩ := front_eq_some_iff.1 h
    simp
  · rw [take_of_front_ne h, Except.error.injEq, eq_comm]
    exact ⟨fun hf => ⟨h, hf⟩, And.right⟩

def inner (last : Nat) (all : List Token) : InnerReader all Expr := fun ts _ => expression last ts

variable {last : Nat}

def readExpression (last : Nat) (ts : List Token) : Except Failure (Expr × List Token) :=
  (expression last ts).run.plain

def readItems (last : Nat) (close : Lexeme) (x : Expectation) (ts : List Token) :
    Except Failure (List Expr × List Token) :=
  (items last (inner last (⟨.comma, 0⟩ :: ts)) close x ts (lt_cons ts)).run.plain

theorem plain_items (close : Lexeme) (x : Expectation) (ts : List Token)
    (h : ts.length < all.length) :
    (items last (inner last all) close x ts h).run.plain = (do
      let (e, rest) ← readExpression last ts
      if front rest = some .comma then
        let (es, rest) ← readItems last close x rest.tail
        .ok (e :: es, rest)
      else
        let (_, rest) ← take last close x rest
        .ok ([e], rest)) := by
  induction hn : ts.length using Nat.strongRecOn generalizing ts all with
  | ind n ih =>
    rw [items]
    refine plain_follow _ fun e rest hr => ?_
    dsimp only
    by_cases hc : front rest = some .comma
    · obtain ⟨line, rest, rfl⟩ := front_eq_some_iff.1 hc
      have hl : rest.length < n := by simp at hr; omega
      have hi (h : rest.length < all.length) :
          (items last (inner last all) close x rest h).run.plain = readItems last close x rest := by
        rw [readItems, ih _ hl _ _ rfl, ih _ hl _ _ rfl]
      rw [if_pos hc, List.tail_cons, ← hi (by simp at hr; omega)]
      exact plain_follow _ fun es rest hs => rfl
    · rw [if_neg hc]
      split
      · exact (hc rfl).elim
      · simp only [take]
        cases expect last close x rest <;> rfl

theorem readItems_eq (close : Lexeme) (x : Expectation) (ts : List Token) :
    readItems last close x ts = (do
      let (e, rest) ← readExpression last ts
      if front rest = some .comma then
        let (es, rest) ← readItems last close x rest.tail
        .ok (e :: es, rest)
      else
        let (_, rest) ← take last close x rest
        .ok ([e], rest)) :=
  plain_items close x ts _

def readList (last : Nat) (close : Lexeme) (x : Expectation) (ts : List Token) :
    Except Failure (List Expr × List Token) :=
  if front ts = some close then .ok ([], ts.tail) else readItems last close x ts

theorem plain_list (close : Lexeme) (x : Expectation) (ts : List Token)
    (h : ts.length < all.length) :
    (list last (inner last all) close x ts h).run.plain = readList last close x ts := by
  have hi : (items last (inner last all) close x ts h).run.plain = readItems last close x ts := by
    rw [plain_items, readItems_eq]
  rw [list, readList, ← hi]
  cases ts with
  | nil => rfl
  | cons t ts =>
    by_cases hc : t.lexeme = close
    · simp [expect, hc, Parsed.plain]
    · simp [expect, hc]

def readPrimary (last : Nat) : List Token → Except Failure (Expr × List Token)
  | ⟨.integer k, line⟩ :: rest => .ok (.literal (.integer k) line, rest)
  | ⟨.boolean b, line⟩ :: rest => .ok (.literal (.boolean b) line, rest)
  | ⟨.identifier x, line⟩ :: rest => .ok (.identifier x line, rest)
  | ⟨.leftParen, _⟩ :: rest => do
    let (e, rest) ← readExpression last rest
    let (_, rest) ← take last .rightParen .closingParen rest
    .ok (e, rest)
  | ⟨.leftBracket, line⟩ :: rest => do
    let (es, rest) ← readList last .rightBracket .closingBracket rest
    .ok (.vector es.toArray line, rest)
  | ts => .error (unexpected last .expression ts, ts)

theorem plain_primary (ts : List Token) (h : ts.length ≤ all.length) :
    (primary last (inner last all) ts h).run.plain = readPrimary last ts := by
  rcases ts with _ | ⟨⟨l, line⟩, rest⟩
  · rfl
  · cases l with
    | leftParen =>
      refine plain_follow (Nat.le_succ _) fun e rest hr => ?_
      simp only [take]
      cases expect last .rightParen .closingParen rest <;> rfl
    | leftBracket =>
      have hl : rest.length < all.length := h
      rw [readPrimary, ← plain_list _ _ _ hl]
      exact plain_follow (Nat.le_succ _) fun es rest hr => rfl
    | _ => rfl

def readTrailers (last : Nat) (e : Expr) (ts : List Token) : Except Failure (Expr × List Token) :=
  (trailers last (inner last (⟨.comma, 0⟩ :: ts)) (le_self (⟨.comma, 0⟩ :: ts)) e ts (lt_cons ts)).run.plain

def trailersStep (last : Nat) (e : Expr) : List Token → Except Failure (Expr × List Token)
  | ⟨.leftParen, line⟩ :: rest => do
    let (es, rest) ← readList last .rightParen .closingParen rest
    readTrailers last (.call e es line) rest
  | ⟨.leftBracket, line⟩ :: rest => do
    let (i, rest) ← readExpression last rest
    let (_, rest) ← take last .rightBracket .closingBracketAfterIndex rest
    readTrailers last (.index e i line) rest
  | ts => .ok (e, ts)

theorem plain_trailers (hu : us.length ≤ all.length) (e : Expr) (ts : List Token)
    (h : ts.length < us.length) :
    (trailers last (inner last all) hu e ts h).run.plain = trailersStep last e ts := by
  induction hn : ts.length using Nat.strongRecOn generalizing ts us all e with
  | ind n ih =>
    have hi (e : Expr) (rest : List Token) (hl : rest.length < n) (hr : rest.length < us.length) :
        (trailers last (inner last all) hu e rest hr).run.plain = readTrailers last e rest := by
      rw [readTrailers, ih _ hl _ _ _ _ rfl, ih _ hl _ _ _ _ rfl]
    rcases ts with _ | ⟨⟨l, line⟩, rest⟩
    · rw [trailers]
      · rfl
      all_goals simp
    · simp only [List.length_cons] at h hn
      cases l with
      | leftParen =>
        have hl : rest.length < all.length := by omega
        rw [trailers, trailersStep, ← plain_list _ _ _ hl]
        exact plain_follow _ fun es rest hr => hi _ _ (by omega) _
      | leftBracket =>
        rw [trailers, trailersStep]
        refine plain_follow _ fun i rest hr => ?_
        simp only [take]
        cases expect last .rightBracket .closingBracketAfterIndex rest with
        | ok _ rest hs => exact hi _ _ (by omega) _
        | fail err rest hs => rfl
      | _ =>
        rw [trailers]
        · rfl
        all_goals simp

@[simp] theorem readTrailers_paren (e : Expr) (line : Nat) (ts : List Token) :
    readTrailers last e (⟨.leftParen, line⟩ :: ts) = (do
      let (es, rest) ← readList last .rightParen .closingParen ts
      readTrailers last (.call e es line) rest) :=
  plain_trailers _ e _ _

@[simp] theorem readTrailers_bracket (e : Expr) (line : Nat) (ts : List Token) :
    readTrailers last e (⟨.leftBracket, line⟩ :: ts) = (do
      let (i, rest) ← readExpression last ts
      let (_, rest) ← take last .rightBracket .closingBracketAfterIndex rest
      readTrailers last (.index e i line) rest) :=
  plain_trailers _ e _ _

theorem readTrailers_stop (e : Expr) (hp : front ts ≠ some .leftParen)
    (hb : front ts ≠ some .leftBracket) : readTrailers last e ts = .ok (e, ts) := by
  rw [readTrailers, plain_trailers, trailersStep.eq_def]
  split
  · exact (hp rfl).elim
  · exact (hb rfl).elim
  · rfl

def readUnary (last : Nat) (ts : List Token) : Except Failure (Expr × List Token) :=
  (unary last (inner last ts) ts (le_self ts)).run.plain

def unaryStep (last : Nat) : List Token → Except Failure (Expr × List Token)
  | ⟨.minus, line⟩ :: rest => do
    let (e, rest) ← readUnary last rest
    .ok (.negate e line, rest)
  | ts => do
    let (e, rest) ← readPrimary last ts
    readTrailers last e rest

theorem plain_unary (ts : List Token) (h : ts.length ≤ all.length) :
    (unary last (inner last all) ts h).run.plain = unaryStep last ts := by
  induction hn : ts.length using Nat.strongRecOn generalizing ts all with
  | ind n ih =>
    by_cases hm : front ts = some .minus
    · obtain ⟨line, rest, rfl⟩ := front_eq_some_iff.1 hm
      have hl : rest.length < n := by simp at hn; omega
      have hi : (unary last (inner last all) rest (Nat.le_of_lt h)).run.plain =
          readUnary last rest := by
        rw [readUnary, ih _ hl _ _ rfl, ih _ hl _ _ rfl]
      rw [unary, unaryStep, ← hi]
      exact plain_follow _ fun e rest hr => rfl
    · have hs (line : Nat) (rest : List Token) (hr : ts = ⟨.minus, line⟩ :: rest) : False :=
        hm (front_eq_some_iff.2 ⟨line, rest, hr⟩)
      rw [unary, unaryStep, ← plain_primary _ h]
      · refine plain_follow _ fun e rest hr => ?_
        exact (plain_trailers _ _ _ _).trans (plain_trailers _ _ _ _).symm
      · exact hs
      · exact fun line rest _ hr _ => hs line rest hr

@[simp] theorem readUnary_minus (line : Nat) (ts : List Token) :
    readUnary last (⟨.minus, line⟩ :: ts) = (do
      let (e, rest) ← readUnary last ts
      .ok (.negate e line, rest)) :=
  plain_unary _ _

theorem readUnary_of_front_ne (h : front ts ≠ some .minus) :
    readUnary last ts = (do
      let (e, rest) ← readPrimary last ts
      readTrailers last e rest) := by
  rw [readUnary, plain_unary, unaryStep.eq_def]
  split
  · exact (h rfl).elim
  · rfl

def readBelow (last level : Nat) (ts : List Token) : Except Failure (Expr × List Token) :=
  (below (unary last (inner last ts)) level ts (le_self ts)).run.plain

def readChain (last level : Nat) (left : Expr) (ts : List Token) :
    Except Failure (Expr × List Token) :=
  (chain (below (unary last (inner last (⟨.comma, 0⟩ :: ts))) level) level
    (le_self (⟨.comma, 0⟩ :: ts)) left ts (lt_cons ts)).run.plain

def chainStep (last level : Nat) (left : Expr) : List Token → Except Failure (Expr × List Token)
  | [] => .ok (left, [])
  | t :: rest =>
    match operatorAt? level t.lexeme with
    | some op => do
      let (right, rest) ← readBelow last level rest
      readChain last level (.binary op left right t.line) rest
    | none => .ok (left, t :: rest)

theorem plain_chain (level : Nat)
    (hb : ∀ (all ts : List Token) (h : ts.length ≤ all.length),
      (below (unary last (inner last all)) level ts h).run.plain = readBelow last level ts)
    (hu : us.length ≤ all.length) (left : Expr) (ts : List Token) (h : ts.length < us.length) :
    (chain (below (unary last (inner last all)) level) level hu left ts h).run.plain =
      chainStep last level left ts := by
  induction hn : ts.length using Nat.strongRecOn generalizing ts us all left with
  | ind n ih =>
    cases ts with
    | nil =>
      rw [chain]
      rfl
    | cons t ts =>
      rw [chain, chainStep]
      simp only [List.length_cons] at hn h
      cases operatorAt? level t.lexeme with
      | none => rfl
      | some op =>
        have hl : ts.length ≤ all.length := by omega
        dsimp only
        rw [← hb all ts hl]
        refine plain_follow _ fun right rest hr => ?_
        have hl : rest.length < n := by omega
        have hi : readChain last level (.binary op left right t.line) rest =
            chainStep last level (.binary op left right t.line) rest := ih _ hl _ _ _ _ rfl
        exact (ih _ hl _ _ _ _ rfl).trans hi.symm

theorem plain_below (level : Nat) (ts : List Token) (h : ts.length ≤ all.length) :
    (below (unary last (inner last all)) level ts h).run.plain = readBelow last level ts := by
  induction level generalizing all ts with
  | zero => rw [readBelow, below, below, plain_unary, plain_unary]
  | succ level ih =>
    have hc (all : List Token) (h : ts.length ≤ all.length) :
        (below (unary last (inner last all)) (level + 1) ts h).run.plain = (do
          let (left, rest) ← readBelow last level ts
          readChain last level left rest) := by
      rw [below, ← ih ts h]
      refine plain_follow _ fun left rest hr => ?_
      have hi : readChain last level left rest = chainStep last level left rest :=
        plain_chain level (fun _ => ih) _ _ _ _
      exact (plain_chain level (fun _ => ih) _ _ _ _).trans hi.symm
    rw [readBelow, hc, hc]

@[simp] theorem readBelow_zero (ts : List Token) : readBelow last 0 ts = readUnary last ts := rfl

theorem readBelow_succ (level : Nat) (ts : List Token) :
    readBelow last (level + 1) ts = (do
      let (left, rest) ← readBelow last level ts
      readChain last level left rest) := by
  rw [readBelow, below, ← plain_below level ts (Nat.le_refl _)]
  refine plain_follow _ fun left rest hr => ?_
  exact (plain_chain level (fun _ => plain_below level) _ _ _ _).trans
    (plain_chain level (fun _ => plain_below level) _ _ _ _).symm

theorem readChain_eq (level : Nat) (left : Expr) (ts : List Token) :
    readChain last level left ts = chainStep last level left ts :=
  plain_chain level (fun _ => plain_below level) _ _ _ _

theorem readExpression_eq (ts : List Token) :
    readExpression last ts = readBelow last BinaryOp.levels ts := by
  rw [readExpression, expression]
  rfl

def readNames (last : Nat) (names : List String) (ts : List Token) :
    Except Failure (List String × List Token) :=
  (moreParameters last names ts (le_self ts)).plain

theorem plain_moreParameters_of_front_ne (names : List String) (x : String) (line : Nat)
    (h : (⟨.identifier x, line⟩ :: ts : List Token).length ≤ us.length)
    (hc : front ts ≠ some .comma) :
    (moreParameters last names (⟨.identifier x, line⟩ :: ts) h).plain = (do
      let (_, rest) ← take last .rightParen .closingParen ts
      .ok ((x :: names).reverse, rest)) := by
  rw [moreParameters, take]
  dsimp only
  split
  · exact (hc rfl).elim
  · cases expect last .rightParen .closingParen ts <;> rfl

theorem plain_moreParameters (names : List String) (ts : List Token) (h : ts.length ≤ us.length) :
    (moreParameters last names ts h).plain = readNames last names ts := by
  induction hn : ts.length using Nat.strongRecOn generalizing ts us names with
  | ind n ih =>
    rcases ts with _ | ⟨⟨l, line⟩, rest⟩
    · rfl
    · cases l with
      | identifier x =>
        by_cases hc : front rest = some .comma
        · obtain ⟨line, rest, rfl⟩ := front_eq_some_iff.1 hc
          simp only [List.length_cons] at hn
          rw [readNames, moreParameters, moreParameters]
          dsimp only
          rw [ih _ (by omega) _ _ _ rfl, ih _ (by omega) _ _ _ rfl]
        · rw [readNames, plain_moreParameters_of_front_ne _ _ _ _ hc,
            plain_moreParameters_of_front_ne _ _ _ _ hc]
      | _ => rfl

theorem readNames_comma (names : List String) (x : String) (line line' : Nat) (ts : List Token) :
    readNames last names (⟨.identifier x, line⟩ :: ⟨.comma, line'⟩ :: ts) =
      readNames last (x :: names) ts := by
  rw [readNames, moreParameters]
  exact plain_moreParameters _ _ _

theorem readNames_of_front_ne (names : List String) (x : String) (line : Nat)
    (hc : front ts ≠ some .comma) :
    readNames last names (⟨.identifier x, line⟩ :: ts) = (do
      let (_, rest) ← take last .rightParen .closingParen ts
      .ok ((x :: names).reverse, rest)) :=
  plain_moreParameters_of_front_ne _ _ _ _ hc

def readParameters (last : Nat) (ts : List Token) : Except Failure (List String × List Token) :=
  if front ts = some .rightParen then .ok ([], ts.tail) else readNames last [] ts

theorem plain_parameters (ts : List Token) :
    (parameters last ts).plain = readParameters last ts := by
  rw [parameters, readParameters]
  cases ts with
  | nil => rfl
  | cons t ts =>
    by_cases hc : t.lexeme = .rightParen
    · simp [expect, hc, Parsed.plain]
    · simp [expect, hc, readNames]

def readHeader (last : Nat) : List Token → Except Failure (Header × List Token)
  | ⟨.identifier f, line⟩ :: rest => do
    let (_, rest) ← take last .leftParen .openingParenAfterName rest
    let (params, rest) ← readParameters last rest
    let (_, rest) ← take last .equals .equalsAfterParameters rest
    .ok (⟨f, params, line⟩, rest)
  | ts => .error (unexpected last .functionName ts, ts)

theorem plain_header (ts : List Token) : (header last ts).plain = readHeader last ts := by
  rcases ts with _ | ⟨⟨l, line⟩, rest⟩
  · rfl
  · cases l with
    | identifier f =>
      rw [header, readHeader, take]
      cases expect last .leftParen .openingParenAfterName rest with
      | fail e rest h => rfl
      | ok _ rest h =>
        simp only [Parsed.plain, ok_bind]
        rw [← plain_parameters]
        cases parameters last rest with
        | fail e rest h => rfl
        | ok params rest h =>
          simp only [Parsed.plain, ok_bind, take]
          cases expect last .equals .equalsAfterParameters rest <;> rfl
    | _ => rfl

def readStatement (last : Nat) (ts : List Token) : Except Failure (Statement × List Token) :=
  if startsDefinition ts then do
    let (hd, rest) ← readHeader last ts
    let (body, rest) ← readExpression last rest
    .ok (.definition ⟨hd.name, hd.params, body, hd.line⟩, rest)
  else do
    let (e, rest) ← readExpression last ts
    .ok (.expression e (firstLine last ts), rest)

theorem plain_statement (ts : List Token) :
    (statement last ts).run.plain = readStatement last ts := by
  rw [statement, readStatement]
  split
  · rw [← plain_header]
    cases header last ts with
    | fail e rest h => rfl
    | ok hd rest h => exact plain_follow _ fun body rest hr => rfl
  · exact plain_follow _ fun e rest hr => rfl

theorem statements_cons (found : List Statement) (t : Token) (ts : List Token) :
    statements last found (t :: ts) = (do
      let (s, rest) ← readStatement last (t :: ts)
      statements last (s :: found) rest) := by
  rw [statements, Deferred.result_eq_run, ← plain_statement]
  cases (statement last (t :: ts)).run <;> rfl

section Lengths

variable {rest : List Token}

theorem Parsed.length_lt {p : Parsed ts α} {a : α} (h : p.plain = .ok (a, rest)) :
    rest.length < ts.length := by
  cases p with
  | ok a rest hr =>
    cases h
    exact hr
  | fail e rest hr => cases h

theorem take_length {l : Lexeme} {x : Expectation} {u : Unit} (h : take last l x ts = .ok (u, rest)) :
    rest.length < ts.length :=
  Parsed.length_lt h

theorem readExpression_length {e : Expr} (h : readExpression last ts = .ok (e, rest)) :
    rest.length < ts.length :=
  Parsed.length_lt h

theorem readList_length {close : Lexeme} {x : Expectation} {es : List Expr}
    (h : readList last close x ts = .ok (es, rest)) : rest.length < ts.length := by
  have hl : ts.length < (⟨.comma, 0⟩ :: ts : List Token).length := lt_cons ts
  rw [← plain_list close x ts hl] at h
  exact Parsed.length_lt h

theorem readPrimary_length {e : Expr} (h : readPrimary last ts = .ok (e, rest)) :
    rest.length < ts.length := by
  rw [← plain_primary ts (le_self ts)] at h
  exact Parsed.length_lt h

theorem readBelow_length {level : Nat} {e : Expr} (h : readBelow last level ts = .ok (e, rest)) :
    rest.length < ts.length :=
  Parsed.length_lt h

end Lengths

end ExprLang.Parser
