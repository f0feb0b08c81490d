import ExprLang.Proofs.Grammar.Failure
import ExprLang.Proofs.Walk.EndMarker
import ExprLang.Proofs.Walk.Rounds

namespace ExprLang.Walk

open ExprLang.Parser Grammar

variable {α : Type} {ts us : List Token} {b c k e : Nat} {m : Nat → Walk α} {post : Nat → Prop}
  {f : Nat → List Token → Except Failure (α × List Token)} {found : List Statement}

/-- Given `b` rounds or more, a walk from place `c` comes to what `f` reads there. -/
def Arrives (ts : List Token) (b : Nat) {α : Type} (m : Nat → Walk α)
    (f : Nat → List Token → Except Failure (α × List Token)) (c : Nat) (post : Nat → Prop) : Prop :=
  ∃ r k g, readFrom f ts c = (r, k) ∧ (∀ n, b ≤ n → m n ⟨c, c⟩ = some (r, ⟨k, g⟩)) ∧
    c ≤ k ∧ k ≤ finish ts c ∧ ∀ a, r = .ok a → post k

/-- All but what may follow an operand take a token at least. -/
structure Advances (ts : List Token) (c : Nat) : Prop where
  statement : Arrives ts (rounds ts .statement c) (fun n => read ts n .statement) readStatement c (c < ·)
  header : Arrives ts (rounds ts (.names []) c) (fun n => header ts (read ts n)) readHeader c (c < ·)
  expression : Arrives ts (rounds ts .expression c) (fun n => read ts n .expression) readExpression c (c < ·)
  below (level : Nat) : Arrives ts (rounds ts (.below level) c) (fun n => read ts n (.below level))
    (fun last => readBelow last level) c (c < ·)
  chain (level : Nat) (a : Expr) : Arrives ts (rounds ts (.chain level a) c)
    (fun n => read ts n (.chain level a)) (fun last => readChain last level a) c (c ≤ ·)
  unary : Arrives ts (rounds ts .unary c) (fun n => read ts n .unary) readUnary c (c < ·)
  primary : Arrives ts (rounds ts .primary c) (fun n => read ts n .primary) readPrimary c (c < ·)
  trailers (a : Expr) : Arrives ts (rounds ts (.trailers a) c) (fun n => read ts n (.trailers a))
    (fun last => readTrailers last a) c (c ≤ ·)
  list (close : Lexeme) (x : Expectation) : close ≠ .endOfInput →
    Arrives ts (rounds ts (.list close x) c) (fun n => read ts n (.list close x))
      (fun last => readList last close x) c fun k => c < k ∧ (peek ts (k - 1)).lexeme = close
  parameters : Arrives ts (rounds ts (.names []) c) (fun n => parameters ts (read ts n)) readParameters c
    fun k => c < k ∧ (peek ts (k - 1)).lexeme = .rightParen

inductive Turns (ts : List Token) : List Statement → Nat → Prop
  | start : Turns ts [] 0
  | next {found : List Statement} {c k : Nat} {s : Statement} : Turns ts found c →
      (peek ts c).lexeme ≠ .endOfInput → readFrom readStatement ts c = (.ok s, k) → Turns ts (s :: found) k

lemma readFrom_value (f : Nat → List Token → Except Failure (α × List Token)) (ts : List Token) (c : Nat) :
    readFrom f ts c = (value (f (peek ts (finish ts c)).line (body (ts.drop c))),
      finish ts c - (left (f (peek ts (finish ts c)).line (body (ts.drop c)))).length) := by
  rw [readFrom]
  cases f (peek ts (finish ts c)).line (body (ts.drop c)) <;> rfl

lemma Agrees.halts {x : Except Failure (α × List Token)} {c : Cursor} {post : α → Nat → Prop}
    (ha : Agrees ts e m us x) (hh : Halts ts b m c post) (hc : At ts e c us) :
    ∃ c', (∀ n, b ≤ n → m n c = some (value x, c')) ∧ At ts e c' (left x) ∧ c.place ≤ c'.place ∧
      ∀ a, value x = .ok a → post a c'.place := by
  obtain ⟨c', hm, hc'⟩ := ha c hc
  obtain ⟨N, hN⟩ := Filter.eventually_atTop.1 hm
  obtain ⟨r, c'', hr, ho, hp⟩ := hh
  have h := (hr (max N b) (Nat.le_max_right N b)).symm.trans (hN (max N b) (Nat.le_max_left N b))
  rw [Option.some.injEq, Prod.mk.injEq] at h
  obtain ⟨rfl, rfl⟩ := h
  exact ⟨c'', hr, hc', ho.le, hp⟩

lemma Agrees.lands {c : Cursor} (hc : At ts (finish ts c.place) c (body (ts.drop c.place)))
    (ha : Agrees ts (finish ts c.place) m (body (ts.drop c.place))
      (f (peek ts (finish ts c.place)).line (body (ts.drop c.place))))
    (hh : Halts ts b m c fun _ k => post k) :
    ∃ r k g, readFrom f ts c.place = (r, k) ∧ (∀ n, b ≤ n → m n c = some (r, ⟨k, g⟩)) ∧
      At ts (finish ts c.place) ⟨k, g⟩ (body (ts.drop k)) ∧ c.place ≤ k ∧ ∀ a, r = .ok a → post k := by
  obtain ⟨⟨k, g⟩, hm, hk, hle, hp⟩ := ha.halts hh hc
  refine ⟨_, k, g, (readFrom_value f ts _).trans (congrArg (Prod.mk _) ?_), hm, ?_, hle, hp⟩
  · exact Nat.sub_eq_of_eq_add hk.total.symm
  · exact hk.ahead ▸ hk

lemma Agrees.arrives
    (ha : Agrees ts (finish ts c) m (body (ts.drop c)) (f (peek ts (finish ts c)).line (body (ts.drop c))))
    (hh : Halts ts b m ⟨c, c⟩ fun _ k => post k) : Arrives ts b m f c post := by
  have hc : At ts (finish ts c) ⟨c, c⟩ (body (ts.drop c)) :=
    ⟨rfl, rfl, Nat.le_refl c, Nat.le_add_right _ _⟩
  obtain ⟨r, k, g, hr, hm, hk, hle, hp⟩ := Agrees.lands (c := ⟨c, c⟩) hc ha hh
  exact ⟨r, k, g, hr, hm, hle, Nat.le_trans hk.passed hk.within, hp⟩

lemma advances (ts : List Token) (c : Nat) : Advances ts c := by
  have hl : (body (ts.drop c)).length < (body (ts.drop c)).length + 1 := Nat.lt_succ_self _
  have ih : AgreesBelow ts (finish ts c) ((body (ts.drop c)).length + 1) :=
    fun us _ => agrees_expression ts _ us
  have hb (level : Nat) (us : List Token) (hn : us.length ≤ (body (ts.drop c)).length + 1) :
      Agrees ts (finish ts c) (fun n => read ts n (.below level)) us
        (readBelow (peek ts (finish ts c)).line level us) := agrees_below ih level hn
  have halts ⦃α : Type⦄ (r : Reading α) :
      Halts ts (rounds ts r c) (fun n => read ts n r) ⟨c, c⟩ fun _ k => Moves ts r c k :=
    read_halts ts _ r ⟨c, c⟩ (Nat.le_refl _)
  have within : HaltsWithin ts (rounds ts (.names []) c) := read_halts ts _
  refine ⟨?_, ?_, ?_, fun level => ?_, fun level a => ?_, ?_, ?_, fun a => ?_, fun close x hc => ?_, ?_⟩
  · exact (agrees_statement ts _ _).arrives (halts .statement)
  · exact (agrees_header ts _ _).arrives (halts_header within (Nat.le_refl _))
  · exact (agrees_expression ts _ _).arrives (halts .expression)
  · exact (hb level _ (Nat.le_of_lt hl)).arrives (halts (.below level))
  · refine (agrees_chain (hb level) (Nat.le_of_lt hl) a).arrives ?_
    exact (halts (.chain level a)).mono fun _ _ o _ => o.le
  · exact (agrees_unary ih (Nat.le_of_lt hl)).arrives (halts .unary)
  · exact (agrees_primary ih (Nat.le_of_lt hl)).arrives (halts .primary)
  · exact (agrees_trailers ih (Nat.le_of_lt hl) a).arrives ((halts (.trailers a)).mono fun _ _ o _ => o.le)
  · exact (agrees_list ih close hc x hl).arrives ((halts (.list close x)).mono fun _ _ _ h => h hc)
  · have hp := halts_parameters (c := ⟨c, c⟩) within (Nat.le_refl _)
    exact (agrees_parameters ts _ _).arrives (hp.mono fun _ _ _ h => h (by decide))

lemma statement_lt {s : Statement} (h : readFrom readStatement ts c = (.ok s, k)) : c < k := by
  obtain ⟨r, k', g, hr, -, -, -, hp⟩ := (advances ts c).statement
  rw [h, Prod.mk.injEq] at hr
  obtain ⟨rfl, rfl⟩ := hr
  exact hp s rfl

lemma Turns.reaches (h : Turns ts found c) : Reaches ts c := by
  induction h with
  | start => exact .start
  | next _ _ hs ih => exact .next ih hs

lemma Turns.length_le (h : Turns ts found c) : found.length ≤ c := by
  induction h with
  | start => exact Nat.le_refl 0
  | next _ _ hs ih => exact Nat.lt_of_le_of_lt ih (statement_lt hs)

lemma readStatement_of_readFrom {s : Statement} (h : readFrom readStatement ts c = (.ok s, k)) :
    readStatement (peek ts (finish ts c)).line (body (ts.drop c)) = .ok (s, body (ts.drop k)) ∧
      finish ts k = finish ts c := by
  rw [readFrom] at h
  split at h
  · rename_i s rest hr
    cases h
    obtain ⟨t, w, hw, -⟩ := readStatement_eq_ok hr
    have hf := finish_append hw
    have hk : finish ts c - rest.length = c + (t :: w).length := by rw [hf, Nat.add_sub_cancel]
    rw [hk, hr, finish, ← body_drop_append hw, hf]
    exact ⟨rfl, rfl⟩
  · cases h

lemma Turns.parse_eq (h : Turns ts found c) :
    parse ts = (Parser.statements (lastLine ts) found (body (ts.drop c))).mapError (·.1) := by
  induction h with
  | start => rfl
  | next h he hs ih =>
    obtain ⟨hr, -⟩ := readStatement_of_readFrom hs
    rw [line_finish h.reaches.le] at hr
    rw [ih, body_drop_of_ne he, statements_cons, ← body_drop_of_ne he, hr]
    rfl

lemma Turns.exists_last (h : Turns ts found c) :
    ∃ found c, Turns ts found c ∧
      ((peek ts c).lexeme = .endOfInput ∧ parse ts = .ok found.reverse ∨
        (peek ts c).lexeme ≠ .endOfInput ∧
          ∃ e k, readFrom readStatement ts c = (.error e, k) ∧ parse ts = .error e) := by
  induction hn : finish ts c - c using Nat.strongRecOn generalizing found c with
  | ind n ih =>
    by_cases he : (peek ts c).lexeme = .endOfInput
    · refine ⟨found, c, h, .inl ⟨he, ?_⟩⟩
      rw [h.parse_eq, body_drop_of_end he, Parser.statements]
      rfl
    · rcases hs : readFrom readStatement ts c with ⟨e | s, k⟩
      · have hf : FailsAt ts c k e := ⟨h.reaches, he, hs⟩
        exact ⟨found, c, h, .inr ⟨he, e, k, hs, hf.parse_eq⟩⟩
      · -- The statement has taken a token, so less is left.
        refine ih (finish ts k - k) ?_ (h.next he hs) rfl
        have hk := statement_lt hs
        have hf := (readStatement_of_readFrom hs).2
        have hle : k ≤ finish ts k := Nat.le_add_right _ _
        omega

lemma Turns.read_eq (h : Turns ts found c) :
    ∃ g, At ts (finish ts c) ⟨c, g⟩ (body (ts.drop c)) ∧ Onward ts 0 c ∧
      ∀ n, rounds ts (.statements []) 0 ≤ n →
        read ts (n + found.length) (.statements []) ⟨0, 0⟩ = read ts n (.statements found) ⟨c, g⟩ := by
  induction h with
  | start => exact ⟨0, ⟨rfl, rfl, Nat.le_refl 0, Nat.zero_le _⟩, .refl ts 0, fun n _ => rfl⟩
  | @next found c k s h he hs ih =>
    obtain ⟨g, hg, ho, hn⟩ := ih
    have hh : Halts ts (rounds ts .statement c) (fun n => read ts n .statement) ⟨c, g⟩ fun _ k => c < k :=
      read_halts ts _ .statement ⟨c, g⟩ (Nat.le_refl _)
    obtain ⟨r, k', g', hr, hm, hk, hle, -⟩ := Agrees.lands (c := ⟨c, g⟩) hg (agrees_statement ts _ _) hh
    rw [hs, Prod.mk.injEq] at hr
    obtain ⟨rfl, rfl⟩ := hr
    have hf := (readStatement_of_readFrom hs).2
    refine ⟨g', hf ▸ hk, ho.trans ⟨hle, hf⟩, fun n hb => ?_⟩
    have hb' : rounds ts .statement c ≤ n := rounds_down (Nat.le_succ_of_le hb) ho (Nat.lt_succ_self _)
    have hl : n + (s :: found).length = n + 1 + found.length := by
      rw [List.length_cons]
      omega
    rw [hl, hn (n + 1) (Nat.le_succ_of_le hb)]
    change statements ts (read ts n) found ⟨c, g⟩ = _
    rw [statements, bind_of_ok (current_eq _ rfl), if_neg he, bind_of_ok (hm n hb')]

lemma Turns.length_lt (h : Turns ts found c) (he : (peek ts c).lexeme ≠ .endOfInput) :
    found.length < (body ts).length := by
  rcases Nat.lt_or_eq_of_le h.reaches.le with hc | hc
  · exact Nat.lt_of_le_of_lt h.length_le hc
  · have hb := body_drop_of_le h.reaches.le
    rw [body_drop_of_ne he, hc, List.drop_length] at hb
    cases hb

lemma read_parse (ts : List Token) :
    ∃ c, ∀ n, rounds ts (.statements []) 0 ≤ n → read ts n (.statements []) ⟨0, 0⟩ = some (parse ts, c) := by
  have hs : At ts (finish ts 0) ⟨0, 0⟩ (body ts) := ⟨rfl, rfl, Nat.le_refl 0, Nat.zero_le _⟩
  obtain ⟨c, hc, -⟩ := (agrees_statements ts (finish ts 0) [] (body ts)).halts
    (read_halts ts _ (.statements []) ⟨0, 0⟩ (Nat.le_refl _)) hs
  refine ⟨c, fun n hn => ?_⟩
  rw [hc n hn, value_map, line_finish (Nat.zero_le _), parse]

theorem reading_progress (ts : List Token) :
    (∀ c, Advances ts c) ∧
    (∃ c, ∀ n, rounds ts (.statements []) 0 ≤ n → read ts n (.statements []) ⟨0, 0⟩ = some (parse ts, c)) ∧
    (∀ found c, Turns ts found c →
      found.length ≤ c ∧ c ≤ (body ts).length ∧
        ((peek ts c).lexeme ≠ .endOfInput → found.length < (body ts).length) ∧
        ∃ g, ∀ n, rounds ts (.statements []) 0 ≤ n →
          read ts (n + found.length) (.statements []) ⟨0, 0⟩ = read ts n (.statements found) ⟨c, g⟩) ∧
    ∃ found c, Turns ts found c ∧
      ((peek ts c).lexeme = .endOfInput ∧ parse ts = .ok found.reverse ∨
        (peek ts c).lexeme ≠ .endOfInput ∧
          ∃ e k, readFrom readStatement ts c = (.error e, k) ∧ parse ts = .error e) := by
  refine ⟨advances ts, read_parse ts, fun found c h => ?_, Turns.start.exists_last⟩
  obtain ⟨g, -, -, hn⟩ := h.read_eq
  exact ⟨h.length_le, h.reaches.le, h.length_lt, g, hn⟩

def openTokens : List Token :=
  [⟨.integer 7, 1⟩, ⟨.identifier "f", 1⟩, ⟨.leftParen, 1⟩, ⟨.identifier "x", 1⟩, ⟨.rightParen, 1⟩, ⟨.equals, 1⟩,
    ⟨.integer 1, 1⟩, ⟨.identifier "g", 2⟩, ⟨.leftBracket, 2⟩, ⟨.minus, 2⟩, ⟨.endOfInput, 2⟩, ⟨.integer 3, 3⟩]

theorem reading_progress_open :
    let found := [.definition ⟨"f", ["x"], .literal (.integer 1) 1, 1⟩, .expression (.literal (.integer 7) 1) 1]
    Turns openTokens found 7 ∧ (peek openTokens 7).lexeme ≠ .endOfInput ∧
      found.length ≤ 7 ∧ 7 ≤ 10 ∧ found.length < 10 ∧
      (∃ g, ∀ n, 132 ≤ n →
        read openTokens (n + 2) (.statements []) ⟨0, 0⟩ = read openTokens n (.statements found) ⟨7, g⟩) ∧
      ∃ g, ∀ n, 96 ≤ n → read openTokens n (.list .rightParen .closingParen) ⟨3, 3⟩ =
        some (.ok [.identifier "x" 1], ⟨5, g⟩) := by
  have h₀ : readFrom readStatement openTokens 0 = (.ok (.expression (.literal (.integer 7) 1) 1), 1) := by
    cbv
  have h₁ : readFrom readStatement openTokens 1 =
      (.ok (.definition ⟨"f", ["x"], .literal (.integer 1) 1, 1⟩), 7) := by
    cbv
  have h₃ : readFrom (fun last => readList last .rightParen .closingParen) openTokens 3 =
      (.ok [.identifier "x" 1], 5) := by
    cbv
  have he : (peek openTokens 7).lexeme ≠ .endOfInput := by decide
  have ht := (Turns.start.next (by decide) h₀).next (by decide) h₁
  obtain ⟨ha, -, hl, -⟩ := reading_progress openTokens
  obtain ⟨hc, hb, hlt, g, hn⟩ := hl _ 7 ht
  obtain ⟨r, k, g', hr, hm, -⟩ := (ha 3).list .rightParen .closingParen (by decide)
  rw [h₃, Prod.mk.injEq] at hr
  obtain ⟨rfl, rfl⟩ := hr
  exact ⟨ht, he, hc, hb, hlt he, ⟨g, hn⟩, g', hm⟩

end ExprLang.Walk
