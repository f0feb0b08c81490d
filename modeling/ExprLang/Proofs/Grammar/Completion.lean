import ExprLang.Proofs.Grammar.Cut
import Mathlib.Data.List.TakeWhile
import Mathlib.Data.Option.Basic

/-! Where the end comes too early, more tokens make a program. -/

namespace ExprLang.Grammar

open ExprLang.Parser

variable {α β : Type} {last N n : Nat} {ts us : List Token} {e : Failure} {l close : Lexeme}
  {x : Expectation}

def Unended (ts : List Token) : Prop := ∀ t ∈ ts, t.lexeme ≠ .endOfInput

lemma Unended.nil : Unended [] := nofun

lemma Unended.single (hl : l ≠ .endOfInput) (line : Nat) : Unended [⟨l, line⟩] := by
  intro t ht
  rwa [List.mem_singleton.1 ht]

lemma Unended.append (h : Unended ts) (hu : Unended us) : Unended (ts ++ us) :=
  fun t ht => (List.mem_append.1 ht).elim (h t) (hu t)

def Completable (R : List Token → α → Prop) (ts : List Token) : Prop :=
  ∃ v a, Unended v ∧ R (ts ++ v) a

variable {R : List Token → α → Prop} {S : List Token → β → Prop}

lemma Completable.of {a : α} (h : R ts a) : Completable R ts :=
  ⟨[], a, .nil, by rwa [List.append_nil]⟩

lemma Completable.map (h : Completable R ts) (f : ∀ v a, R (ts ++ v) a → ∃ b, S (us ++ v) b) :
    Completable S us := by
  obtain ⟨v, a, hv, ha⟩ := h
  obtain ⟨b, hb⟩ := f v a ha
  exact ⟨v, b, hv, hb⟩

lemma Completable.enclose (h : Completable R ts) (hc : close = .rightParen ∨ close = .rightBracket)
    (f : ∀ v a, R (ts ++ v) a → ∃ b, S (us ++ (v ++ [⟨close, 0⟩])) b) : Completable S us := by
  obtain ⟨v, a, hv, ha⟩ := h
  obtain ⟨b, hb⟩ := f v a ha
  have hl : close ≠ .endOfInput := by
    rcases hc with rfl | rfl <;> exact nofun
  exact ⟨v ++ [⟨close, 0⟩], b, hv.append (.single hl 0), hb⟩

lemma eq_nil_of_take (h : take last l x ts = .error e) (hs : Short e) : ts = [] := by
  obtain ⟨-, rfl⟩ := take_eq_error_iff.1 h
  cases ts with
  | nil => rfl
  | cons t ts =>
    obtain ⟨_, ⟨⟩⟩ := hs

def CompletableBelow (last N : Nat) : Prop :=
  ∀ ts e, ts.length < N → readExpression last ts = .error e → Short e → Completable (Binary 6) ts

variable (ih : CompletableBelow last N) (hs : Short e)

include ih hs

lemma items_completable (hn : ts.length < N) (h : readItems last close x ts = .error e) :
    Completable Sequence ts := by
  induction hk : ts.length using Nat.strongRecOn generalizing ts with
  | ind k ihk =>
    rw [readItems_eq, bind_eq_error_iff] at h
    rcases h with h | ⟨⟨a, us⟩, ha, h⟩
    · exact (ih ts e hn h hs).map fun v a hv => ⟨[a], .one hv⟩
    · obtain ⟨w, rfl, hw, -⟩ := expression_sound ha
      dsimp only at h
      split at h
      · rename_i hc
        obtain ⟨line, us, rfl⟩ := front_eq_some_iff.1 hc
        rw [bind_eq_error_iff] at h
        rcases h with h | ⟨_, _, ⟨⟩⟩
        rw [List.length_append, List.length_cons] at hn hk
        have hlt : us.length < k := by omega
        have hN : us.length < N := by omega
        have hu : Completable Sequence us := ihk _ hlt hN h rfl
        refine hu.map fun v es hv => ⟨a :: es, ?_⟩
        rw [List.append_assoc]
        exact .more hw hv
      · rw [bind_eq_error_iff] at h
        rcases h with h | ⟨_, _, ⟨⟩⟩
        rw [eq_nil_of_take h hs, List.append_nil]
        exact .of (.one hw)

lemma list_completable (hn : ts.length < N) (h : readList last close x ts = .error e) :
    Completable Arguments ts := by
  rw [readList] at h
  split at h
  · cases h
  · exact (items_completable ih hs hn h).map fun v es hv => ⟨es, .listed hv⟩

lemma bracketed_completable {f : Expr → List Token → Except Failure (β × List Token)}
    (hn : ts.length < N)
    (h : (do
      let (a, rest) ← readExpression last ts
      let (_, rest) ← take last close x rest
      f a rest) = .error e) :
    Completable (Binary 6) ts ∨
      ∃ a w line rest, ts = w ++ ⟨close, line⟩ :: rest ∧ Binary 6 w a ∧ f a rest = .error e := by
  rw [bind_eq_error_iff] at h
  rcases h with h | ⟨⟨a, us⟩, ha, h⟩
  · exact .inl (ih ts e hn h hs)
  · obtain ⟨w, rfl, hw, -⟩ := expression_sound ha
    rw [bind_eq_error_iff] at h
    rcases h with h | ⟨⟨_, rest⟩, ht, h⟩
    · rw [eq_nil_of_take h hs, List.append_nil]
      exact .inl (.of hw)
    · obtain ⟨line, rfl⟩ := take_eq_ok_iff.1 ht
      exact .inr ⟨a, w, line, rest, rfl, hw, h⟩

lemma primary_completable (hn : ts.length ≤ N) (h : readPrimary last ts = .error e) :
    Completable Primary ts := by
  rw [readPrimary.eq_def] at h
  split at h
  · cases h
  · cases h
  · cases h
  · rename_i line us
    have hc := bracketed_completable (f := fun a rest => .ok (a, rest)) ih hs hn h
    rcases hc with hu | ⟨_, _, _, _, _, _, ⟨⟩⟩
    refine hu.enclose (.inl rfl) fun v a hv => ⟨a, ?_⟩
    rw [List.cons_append, ← List.append_assoc]
    exact .group hv
  · rename_i line us
    rw [bind_eq_error_iff] at h
    rcases h with h | ⟨_, _, ⟨⟩⟩
    refine (list_completable ih hs hn h).enclose (.inr rfl) fun v es hv => ⟨.vector es.toArray line, ?_⟩
    rw [List.cons_append, ← List.append_assoc]
    exact .vector hv
  · cases ts with
    | nil =>
      have hl : Lexeme.integer 0 ≠ .endOfInput := nofun
      exact ⟨[⟨.integer 0, 0⟩], _, .single hl 0, .integer⟩
    | cons t ts =>
      cases h
      obtain ⟨_, ⟨⟩⟩ := hs

lemma trailers_completable {a : Expr} {u : List Token} (hn : ts.length ≤ N) (ha : Trailed u a)
    (h : readTrailers last a ts = .error e) : Completable Trailed (u ++ ts) := by
  induction hk : ts.length using Nat.strongRecOn generalizing ts u a with
  | ind k ihk =>
    by_cases hp : front ts = some .leftParen
    · obtain ⟨line, us, rfl⟩ := front_eq_some_iff.1 hp
      rw [readTrailers_paren, bind_eq_error_iff] at h
      rcases h with h | ⟨⟨es, rest⟩, hes, h⟩
      · refine (list_completable ih hs hn h).enclose (.inl rfl) fun v es hv => ⟨.call a es line, ?_⟩
        rw [List.append_assoc, List.cons_append, ← List.append_assoc us]
        exact ha.call hv
      · obtain ⟨w, close, rfl, hw⟩ := list_sound (soundBelow last _) (Nat.lt_succ_self _) hes
        simp only [List.length_append, List.length_cons] at hn hk
        have hlt : rest.length < k := by omega
        have hN : rest.length ≤ N := by omega
        simpa using ihk _ hlt hN (ha.call hw) h rfl
    · by_cases hb : front ts = some .leftBracket
      · obtain ⟨line, us, rfl⟩ := front_eq_some_iff.1 hb
        rw [readTrailers_bracket] at h
        have hc := bracketed_completable (f := fun i => readTrailers last (.index a i line)) ih hs hn h
        rcases hc with hu | ⟨i, w, close, rest, rfl, hw, h⟩
        · refine hu.enclose (.inr rfl) fun v i hv => ⟨.index a i line, ?_⟩
          rw [List.append_assoc, List.cons_append, ← List.append_assoc us]
          exact ha.index hv
        · simp only [List.length_append, List.length_cons] at hn hk
          have hlt : rest.length < k := by omega
          have hN : rest.length ≤ N := by omega
          simpa using ihk _ hlt hN (ha.index hw) h rfl
      · rw [readTrailers_stop _ hp hb] at h
        cases h

lemma unary_completable (hn : ts.length ≤ N) (h : readUnary last ts = .error e) :
    Completable Unary ts := by
  have plain {ts : List Token} (hn : ts.length ≤ N) (hm : front ts ≠ some .minus)
      (h : readUnary last ts = .error e) : Completable Unary ts := by
    rw [readUnary_of_front_ne hm, bind_eq_error_iff] at h
    rcases h with h | ⟨⟨a, us⟩, ha, h⟩
    · exact (primary_completable ih hs hn h).map fun v a hv => ⟨a, .trailed (.primary hv)⟩
    · obtain ⟨w, rfl, hw⟩ := primary_sound (soundBelow last _) (Nat.le_refl _) ha
      rw [List.length_append] at hn
      have hN : us.length ≤ N := by omega
      exact (trailers_completable ih hs hN (.primary hw) h).map fun v a hv => ⟨a, .trailed hv⟩
  induction ts with
  | nil => exact plain hn nofun h
  | cons t ts iht =>
    by_cases hm : t.lexeme = .minus
    · obtain ⟨l, line⟩ := t
      cases hm
      rw [readUnary_minus, bind_eq_error_iff] at h
      rcases h with h | ⟨_, _, ⟨⟩⟩
      exact (iht (Nat.le_of_succ_le hn) h).map fun v a hv => ⟨.negate a line, .negate hv⟩
    · have hf : front (t :: ts) ≠ some .minus := by simpa using hm
      exact plain hn hf h

omit ih hs

lemma chain_completable {left : Expr} {u : List Token} (hn : ts.length ≤ N)
    (hl : Binary (n + 1) u left)
    (hb : ∀ ts, ts.length ≤ N → readBelow last n ts = .error e → Completable (Binary n) ts)
    (h : readChain last n left ts = .error e) : Completable (Binary (n + 1)) (u ++ ts) := by
  induction hk : ts.length using Nat.strongRecOn generalizing ts u left with
  | ind k ihk =>
    rw [readChain_eq] at h
    cases ts with
    | nil => cases h
    | cons t us =>
      rw [chainStep] at h
      split at h
      · rename_i op ho
        have ho : Operator n t.lexeme op := operatorAt?_eq_some_iff.1 ho
        rw [List.length_cons] at hn hk
        rw [bind_eq_error_iff] at h
        rcases h with h | ⟨⟨right, rest⟩, hr, h⟩
        · refine (hb us (Nat.le_of_succ_le hn) h).map fun v b hv => ⟨.binary op left b t.line, ?_⟩
          rw [List.append_assoc]
          exact hl.apply ho hv
        · obtain ⟨w, rfl, hw, -⟩ := below_sound (soundBelow last _) (Nat.le_refl _) hr
          rw [List.length_append] at hn hk
          have hlt : rest.length < k := by omega
          have hN : rest.length ≤ N := by omega
          have hleft : Binary (n + 1) (u ++ t :: w) (.binary op left right t.line) := hl.apply ho hw
          simpa using ihk _ hlt hN hleft h rfl
      · cases h

include ih hs

lemma below_completable (hn : ts.length ≤ N) (h : readBelow last n ts = .error e) :
    Completable (Binary n) ts := by
  induction n generalizing ts with
  | zero => exact (unary_completable ih hs hn h).map fun v a hv => ⟨a, .unary hv⟩
  | succ n ihn =>
    rw [readBelow_succ, bind_eq_error_iff] at h
    rcases h with h | ⟨⟨left, us⟩, hl, h⟩
    · exact (ihn hn h).map fun v a hv => ⟨a, .operand hv⟩
    · obtain ⟨w, rfl, hw, -⟩ := below_sound (soundBelow last _) (Nat.le_refl _) hl
      rw [List.length_append] at hn
      have hN : us.length ≤ N := by omega
      exact chain_completable hN (.operand hw) (fun _ => ihn) h

omit ih hs

lemma completableBelow (last N : Nat) : CompletableBelow last N := by
  -- As for soundness: what is read inside an expression has fewer tokens than the expression.
  induction N with
  | zero => exact fun ts e hn => absurd hn (Nat.not_lt_zero _)
  | succ N ih =>
    intro ts e hn h hs
    rw [readExpression_eq] at h
    exact below_completable ih hs (Nat.le_of_lt_succ hn) h

include hs

lemma expression_completable (h : readExpression last ts = .error e) : Completable (Binary 6) ts :=
  completableBelow last _ ts e (Nat.lt_succ_self _) h hs

lemma ordinary_of_names {found : List String} (h : readNames last found ts = .error e) :
    ∀ t ∈ ts, t.lexeme ≠ .equals := by
  induction hk : ts.length using Nat.strongRecOn generalizing ts found with
  | ind k ihk =>
    rcases ts with _ | ⟨⟨l, line⟩, us⟩
    · exact nofun
    · cases l with
      | identifier y =>
        by_cases hc : front us = some .comma
        · obtain ⟨line', us, rfl⟩ := front_eq_some_iff.1 hc
          rw [readNames_comma] at h
          have hlt : us.length < k := by
            simp only [List.length_cons] at hk
            omega
          simpa using ihk _ hlt h rfl
        · rw [readNames_of_front_ne _ _ _ hc, bind_eq_error_iff] at h
          rcases h with h | ⟨_, _, ⟨⟩⟩
          rw [eq_nil_of_take h hs]
          simp
      | _ =>
        cases h
        obtain ⟨_, ⟨⟩⟩ := hs

lemma ordinary_of_header (h : readHeader last ts = .error e) : ∀ t ∈ ts, t.lexeme ≠ .equals := by
  rw [readHeader.eq_def] at h
  split at h
  · rename_i f line us
    rw [bind_eq_error_iff] at h
    rcases h with h | ⟨⟨_, us'⟩, hl, h⟩
    · rw [eq_nil_of_take h hs]
      simp
    · obtain ⟨line₁, rfl⟩ := take_eq_ok_iff.1 hl
      rw [bind_eq_error_iff] at h
      rcases h with h | ⟨⟨params, us⟩, hp, h⟩
      · rw [readParameters] at h
        split at h
        · cases h
        · simpa using ordinary_of_names hs h
      · rw [bind_eq_error_iff] at h
        rcases h with h | ⟨_, _, ⟨⟩⟩
        obtain ⟨w, line₂, rfl, hw⟩ := parameters_sound hp
        rw [eq_nil_of_take h hs]
        have ho : ∀ t ∈ w, t.lexeme ≠ .equals := fun t ht => (hw.neutral t ht).1
        simpa [or_imp, forall_and] using ho
  · cases h
    cases ts with
    | nil => simp
    | cons t ts => obtain ⟨_, ⟨⟩⟩ := hs

lemma sentence_completable {t : Token} (h : readStatement last (t :: ts) = .error e) :
    Completable Sentence (t :: ts) := by
  rw [readStatement] at h
  split at h
  · rename_i hd
    rw [bind_eq_error_iff] at h
    rcases h with h | ⟨⟨hdr, us⟩, hh, h⟩
    · rw [startsDefinition_eq_false (ordinary_of_header hs h)] at hd
      cases hd
    · rw [bind_eq_error_iff] at h
      rcases h with h | ⟨_, _, ⟨⟩⟩
      obtain ⟨line₁, w, line₂, line₃, hw, hp⟩ := header_sound hh
      rw [hw]
      refine (expression_completable hs h).map fun v a hv => ?_
      refine ⟨.definition ⟨hdr.name, hdr.params, a, hdr.line⟩, ?_⟩
      simp only [List.cons_append, List.append_assoc]
      exact .definition hp hv
  · rw [bind_eq_error_iff] at h
    rcases h with h | ⟨_, _, ⟨⟩⟩
    exact (expression_completable hs h).map fun v a hv => ⟨.expression a t.line, .expression hv⟩

lemma following_completable {found : List Statement} (hts : Stops 6 ts)
    (h : statements last found ts = .error e) : Completable Following ts := by
  induction hk : ts.length using Nat.strongRecOn generalizing ts found with
  | ind k ihk =>
    cases ts with
    | nil =>
      rw [statements] at h
      cases h
    | cons t ts =>
      rw [statements_cons, bind_eq_error_iff] at h
      rcases h with h | ⟨⟨s, us⟩, hr, h⟩
      · refine (sentence_completable hs h).map fun v s hv => ⟨[s], ?_⟩
        obtain ⟨_, ⟨⟩, hb⟩ := hv.front
        have hr : t.lexeme.resumes := hts.resumes hb
        simpa using Following.cons hr hv .nil
      · obtain ⟨u, w, hw, hd, hb, hus⟩ := sentence_sound hr
        rw [hw, List.length_append, List.length_cons] at hk
        have hlt : us.length < k := by omega
        cases hw
        have hr : t.lexeme.resumes := hts.resumes hb
        refine (ihk _ hlt hus h rfl).map fun v q hv => ⟨s :: q, ?_⟩
        simpa using Following.cons hr hd hv

lemma derives_completable (h : statements last [] ts = .error e) : Completable Derives ts := by
  cases ts with
  | nil =>
    rw [statements] at h
    cases h
  | cons t ts =>
    rw [statements_cons, bind_eq_error_iff] at h
    rcases h with h | ⟨⟨s, us⟩, hr, h⟩
    · refine (sentence_completable hs h).map fun v s hv => ⟨[s], ?_⟩
      simpa using Derives.cons hv .nil
    · obtain ⟨u, w, hw, hd, -, hus⟩ := sentence_sound hr
      rw [hw]
      refine (following_completable hs hus h).map fun v q hv => ⟨s :: q, ?_⟩
      rw [List.append_assoc]
      exact .cons hd hv

omit hs

lemma unended_body (ts : List Token) : Unended (body ts) := fun t ht => by
  simpa using List.mem_takeWhile_imp ht

lemma Unended.body_append (h : Unended ts) (us : List Token) : body (ts ++ us) = ts ++ body us := by
  rw [body, List.takeWhile_append_of_pos]
  · rfl
  · intro t ht
    exact bne_iff_ne.2 (h t ht)

lemma Unended.body_eq (h : Unended ts) : body ts = ts := by
  simpa [body] using h.body_append []

lemma fresh_body {l : Lexeme} (h : front ts = some l) (hl : l.resumes) : Fresh (body ts) := by
  obtain ⟨us, hu⟩ : body ts <+: ts := List.takeWhile_prefix _
  intro m hm
  rw [← hu, front_append hm] at h
  cases h
  exact hl

lemma parse_eq_error_iff {c : ParseCause} :
    (∃ line, parse ts = .error ⟨c, line⟩) ↔
      ∃ e, statements (lastLine ts) [] (body ts) = .error e ∧ e.1.cause = c := by
  rw [parse]
  cases statements (lastLine ts) [] (body ts) with
  | ok p =>
    constructor
    · rintro ⟨_, ⟨⟩⟩
    · rintro ⟨_, ⟨⟩, _⟩
  | error e =>
    obtain ⟨⟨cause, line⟩, rest⟩ := e
    constructor
    · rintro ⟨_, ⟨⟩⟩
      exact ⟨_, rfl, rfl⟩
    · rintro ⟨_, ⟨⟩, rfl⟩
      exact ⟨line, rfl⟩

theorem parse_unexpectedEnd_iff (w : List Token) (h : ∀ t ∈ w, t.lexeme ≠ .endOfInput) :
    (∃ x line, parse w = .error ⟨.unexpectedEnd x, line⟩) ↔
      (∀ p, parse w ≠ .ok p) ∧ ∃ v p, parse (w ++ v) = .ok p := by
  have hw : Unended w := h
  constructor
  · rintro ⟨x, line, hx⟩
    refine ⟨fun p hp => (nomatch hp.symm.trans hx), ?_⟩
    obtain ⟨e, he, hc⟩ := parse_eq_error_iff.1 ⟨line, hx⟩
    rw [hw.body_eq] at he
    obtain ⟨v, p, hv, hd⟩ := derives_completable ⟨x, hc⟩ he
    refine ⟨v, p, parse_eq_ok_iff.2 ?_⟩
    rwa [(hw.append hv).body_eq]
  · rintro ⟨hn, v, p, hp⟩
    have hd : Derives (w ++ body v) p := by
      rw [← hw.body_append]
      exact parse_eq_ok_iff.1 hp
    cases he : statements (lastLine w) [] (body w) with
    | ok q => exact (hn q (parse_eq_ok_iff.2 (derives_sound he))).elim
    | error e =>
      have he' : statements (lastLine w) [] w = .error e := by rwa [hw.body_eq] at he
      obtain ⟨x, hx⟩ := hd.cuttable w [] e (List.prefix_append _ _) he'
      exact ⟨x, parse_eq_error_iff.2 ⟨e, he, hx⟩⟩

def openBody : List Token :=
  [⟨.identifier "f", 1⟩, ⟨.leftParen, 1⟩, ⟨.identifier "x", 1⟩, ⟨.rightParen, 1⟩, ⟨.equals, 2⟩,
    ⟨.leftBracket, 2⟩, ⟨.identifier "x", 2⟩, ⟨.leftParen, 3⟩, ⟨.minus, 3⟩]

theorem parse_openBody :
    (∀ t ∈ openBody, t.lexeme ≠ .endOfInput) ∧
      (∃ x line, parse openBody = .error ⟨.unexpectedEnd x, line⟩) ∧
      (∀ p, parse openBody ≠ .ok p) ∧ ∃ v p, parse (openBody ++ v) = .ok p := by
  have hw : ∀ t ∈ openBody, t.lexeme ≠ .endOfInput := by decide
  have he : ∃ x line, parse openBody = .error ⟨.unexpectedEnd x, line⟩ := by
    refine ⟨.expression, 3, ?_⟩
    cbv
  exact ⟨hw, he, (parse_unexpectedEnd_iff openBody hw).1 he⟩

end ExprLang.Grammar
