import ExprLang.Proofs.Grammar.Cursor
import Mathlib.Data.List.Basic

/-! A token that does not fit is refused at the earliest place. -/

namespace ExprLang.Grammar

open ExprLang.Parser

variable {last opened : Nat} {w rest ts us : List Token} {hd : Header} {s : Statement} {e : ParseError}

lemma closesBeforeEquals_append {w : List Token} (h : closesBeforeEquals opened w = true)
    (us : List Token) : closesBeforeEquals opened (w ++ us) = true := by
  induction w generalizing opened with
  | nil => cases opened <;> cases h
  | cons t w ih =>
    cases opened with
    | zero => exact h
    | succ opened =>
      rw [List.cons_append, closesBeforeEquals]
      rw [closesBeforeEquals] at h
      split at h <;> exact ih h

lemma startsDefinition_append {w : List Token} (h : startsDefinition w = true) (us : List Token) :
    startsDefinition (w ++ us) = true := by
  rw [startsDefinition.eq_def] at h
  split at h
  · exact closesBeforeEquals_append h us
  · cases h

lemma closesBeforeEquals_resembles (hu : Resembles us rest)
    (hc : w.countP (·.lexeme = .leftParen) + opened ≤ w.countP (·.lexeme = .rightParen))
    (h : closesBeforeEquals opened (w ++ rest) = false) :
    closesBeforeEquals opened (w ++ us) = false := by
  induction w generalizing opened with
  | nil =>
    -- All that was open is closed by now: the look-ahead is over one token further on.
    obtain rfl : opened = 0 := by simpa using hc
    rcases us with _ | ⟨t, us⟩
    · rfl
    · obtain ⟨line, rest, rfl⟩ := front_eq_some_iff.1 (hu _ rfl)
      exact h
  | cons t w ih =>
    cases opened with
    | zero => exact h
    | succ opened =>
      rw [List.cons_append, closesBeforeEquals] at h ⊢
      split at h
      · exact ih (by simp_all; omega) h
      · exact ih (by simp_all; omega) h
      · exact ih (by simp_all) h

lemma Binary.startsDefinition_resembles {n : Nat} {a : Expr} (hb : Binary n w a) (hr : Stops 0 rest)
    (hu : Resembles us rest) (h : Parser.startsDefinition (w ++ rest) = false) :
    Parser.startsDefinition (w ++ us) = false := by
  rcases hb.startsDefinition_cases with hp | ⟨v, -, hc, hv⟩
  · exact hp us (hu.front_ne fun hl => (hr _ hl).1 rfl)
  · rw [hv] at h ⊢
    exact closesBeforeEquals_resembles hu (Nat.le_of_eq hc) h

lemma header_steady (h : readHeader last ts = .ok (hd, rest)) :
    ∃ t w, ts = t :: w ++ rest ∧ ∀ us, startsDefinition (t :: w ++ us) = true ∧
      ∀ last, readHeader last (t :: w ++ us) = .ok (hd, us) := by
  obtain ⟨line₁, v, line₂, line₃, rfl, hv⟩ := header_sound h
  refine ⟨⟨.identifier hd.name, hd.line⟩, ⟨.leftParen, line₁⟩ ::
    (v ++ [⟨.rightParen, line₂⟩, ⟨.equals, line₃⟩]), by simp, fun us => ?_⟩
  simp only [List.cons_append, List.append_assoc, List.nil_append]
  exact ⟨hv.startsDefinition _ _ _ _ _ _, fun last => hv.header last _ _ _ _ _ us⟩

lemma header_call (h : readHeader last ts = .ok (hd, rest)) :
    ∃ a us, readExpression last ts = .ok (a, us) := by
  obtain ⟨line₁, v, line₂, line₃, rfl, hv⟩ := header_sound h
  obtain ⟨es, ha⟩ := hv.arguments
  have hf : Trailed [⟨.identifier hd.name, hd.line⟩] (.identifier hd.name hd.line) := .primary .identifier
  have hc : Trailed
      ([⟨.identifier hd.name, hd.line⟩] ++ ⟨.leftParen, line₁⟩ :: (v ++ [⟨.rightParen, line₂⟩]))
      (.call (.identifier hd.name hd.line) es line₁) := hf.call ha
  have hs : Stops 6 (⟨.equals, line₃⟩ :: rest) := by
    rintro _ ⟨⟩
    exact ⟨nofun, nofun, nofun⟩
  have hr : readExpression last _ = _ := (hc.binary 6).leads.readExpression hs
  simp only [List.cons_append, List.append_assoc, List.nil_append] at hr
  exact ⟨_, _, hr⟩

lemma readExpression_eq_ok {a : Expr} (h : readExpression last ts = .ok (a, rest)) :
    ∃ w, ts = w ++ rest ∧ Binary 6 w a ∧ Stops 6 rest ∧
      ∀ last us, Resembles us rest → readExpression last (w ++ us) = .ok (a, us) := by
  obtain ⟨w, rfl, hb, hs⟩ := expression_sound h
  refine ⟨w, rfl, hb, hs, fun last us hu => ?_⟩
  exact hb.leads.readExpression fun l hl => hs l (hu l hl)

lemma readExpression_eq_error (h : readExpression last ts = .error (e, rest)) :
    ∃ w x, ts = w ++ rest ∧ x.ofExpression ∧ e = unexpected last x rest ∧
      ∀ last us, Resembles us rest → readExpression last (w ++ us) = .error (unexpected last x us, us) := by
  obtain ⟨w, us, r, rfl, hx, hr⟩ := steady_expression ts
  have hs := hr last us (.refl us)
  rw [h] at hs
  cases r with
  | ok a => cases hs
  | error x =>
    cases hs
    exact ⟨w, x, rfl, hx x rfl, rfl, hr⟩

lemma readStatement_eq_ok (h : readStatement last ts = .ok (s, rest)) :
    ∃ t w, ts = t :: w ++ rest ∧
      ∀ last us, Resembles us rest → readStatement last (t :: w ++ us) = .ok (s, us) := by
  rw [readStatement] at h
  split at h
  · rw [bind_eq_ok_iff] at h
    obtain ⟨⟨hd, us⟩, hh, h⟩ := h
    rw [bind_eq_ok_iff] at h
    obtain ⟨⟨a, us'⟩, ha, h⟩ := h
    cases h
    obtain ⟨t, v, rfl, hv⟩ := header_steady hh
    obtain ⟨w, rfl, -, -, hw⟩ := readExpression_eq_ok ha
    refine ⟨t, v ++ w, by simp, fun last us hu => ?_⟩
    obtain ⟨hd, hh⟩ := hv (w ++ us)
    rw [← List.cons_append, List.append_assoc, readStatement, if_pos hd, hh]
    simp only [ok_bind, hw last us hu]
  · rename_i hd
    rw [bind_eq_ok_iff] at h
    obtain ⟨⟨a, us⟩, ha, h⟩ := h
    cases h
    obtain ⟨w, rfl, hb, hs, hw⟩ := readExpression_eq_ok ha
    obtain ⟨l, hl, -⟩ := hb.front
    obtain ⟨line, w, rfl⟩ := front_eq_some_iff.1 hl
    refine ⟨⟨l, line⟩, w, rfl, fun last us hu => ?_⟩
    have hd := hb.startsDefinition_resembles (hs.mono (Nat.zero_le 6)) hu (eq_false_of_ne_true hd)
    rw [readStatement, hd, if_neg Bool.false_ne_true, hw last us hu]
    rfl

lemma readStatement_eq_error (h : readStatement last ts = .error (e, rest))
    (hd : startsDefinition ts = false ∨ ∃ r, readHeader last ts = .ok r) :
    ∃ w x, ts = w ++ rest ∧ x.ofExpression ∧ e = unexpected last x rest ∧
      (∀ last, readStatement last w = .error (unexpected last x [], [])) ∧
      ∀ last us, Resembles us rest → ∃ f, readStatement last (w ++ us) = .error f := by
  have begun {v us : List Token} {hd : Header} {last : Nat} (hv : startsDefinition (v ++ us) = true)
      (hh : readHeader last (v ++ us) = .ok (hd, us)) {x : Expectation} {us' : List Token}
      (hu : readExpression last us = .error (unexpected last x us', us')) :
      readStatement last (v ++ us) = .error (unexpected last x us', us') := by
    rw [readStatement, if_pos hv, hh]
    simp only [ok_bind, hu, error_bind]
  rcases hd with hd | ⟨⟨hd, us⟩, hh⟩
  · rw [readStatement, hd, if_neg Bool.false_ne_true, bind_eq_error_iff] at h
    rcases h with h | ⟨_, -, ⟨⟩⟩
    obtain ⟨w, x, rfl, hx, rfl, hw⟩ := readExpression_eq_error h
    refine ⟨w, x, rfl, hx, rfl, fun last => ?_, fun last us hu => ?_⟩
    · have hn : startsDefinition w = false := by
        refine eq_false_of_ne_true fun hs => ?_
        rw [startsDefinition_append hs] at hd
        cases hd
      have hr := hw last [] (.nil rest)
      rw [List.append_nil] at hr
      rw [readStatement, hn, if_neg Bool.false_ne_true, hr]
      rfl
    · -- Were a definition taken to begin here, its header would read as a call.
      have hr := hw last us hu
      rw [readStatement]
      split
      · cases hh : readHeader last (w ++ us) with
        | error f => exact ⟨f, rfl⟩
        | ok r =>
          obtain ⟨a, vs, ha⟩ := header_call hh
          rw [hr] at ha
          cases ha
      · rw [hr]
        exact ⟨_, rfl⟩
  · obtain ⟨t, v, rfl, hv⟩ := header_steady hh
    rw [readStatement, if_pos (hv us).1, hh] at h
    simp only [ok_bind] at h
    rw [bind_eq_error_iff] at h
    rcases h with h | ⟨_, -, ⟨⟩⟩
    obtain ⟨w, x, rfl, hx, rfl, hw⟩ := readExpression_eq_error h
    refine ⟨t :: v ++ w, x, (List.append_assoc _ _ _).symm, hx, rfl, fun last => ?_, fun last us hu => ?_⟩
    · have hr := hw last [] (.nil rest)
      rw [List.append_nil] at hr
      exact begun (hv w).1 ((hv w).2 last) hr
    · rw [List.append_assoc]
      exact ⟨_, begun (hv _).1 ((hv _).2 last) (hw last us hu)⟩

inductive Reaches (ts : List Token) : Nat → Prop
  | start : Reaches ts 0
  | next {c k s} : Reaches ts c → readFrom readStatement ts c = (.ok s, k) → Reaches ts k

structure FailsAt (ts : List Token) (c k : Nat) (e : ParseError) : Prop where
  reached : Reaches ts c
  inside : (peek ts c).lexeme ≠ .endOfInput
  error : readFrom readStatement ts c = (.error e, k)

lemma Reaches.statements {c : Nat} (h : Reaches ts c) :
    ∃ v p, body ts = v ++ body (ts.drop c) ∧ v.length = c ∧
      ∀ last us found, Resembles us (body (ts.drop c)) →
        statements last found (v ++ us) = statements last (p ++ found) us := by
  induction h with
  | start => exact ⟨[], [], rfl, rfl, fun _ _ _ _ => rfl⟩
  | @next c k s _ hs ih =>
    obtain ⟨v, p, hb, rfl, hv⟩ := ih
    obtain ⟨last, rest, hr, rfl⟩ := readFrom_eq_ok hs
    obtain ⟨t, w, hw, hr⟩ := readStatement_eq_ok hr
    have hrest := body_drop_append hw
    rw [finish_append hw, Nat.add_sub_cancel]
    refine ⟨v ++ t :: w, s :: p, ?_, List.length_append, fun last us found hu => ?_⟩
    · rw [hb, hw, List.append_assoc, hrest]
    · rw [← hrest] at hu
      have hres := hu.append (t :: w)
      rw [← hw] at hres
      rw [List.append_assoc, hv last _ found hres, List.cons_append, statements_cons, ← List.cons_append,
        hr last us hu]
      rfl

lemma Reaches.le {c : Nat} (h : Reaches ts c) : c ≤ (body ts).length := by
  obtain ⟨v, p, hb, rfl, -⟩ := h.statements
  rw [hb, List.length_append]
  exact Nat.le_add_right _ _

lemma FailsAt.parse_eq {c k : Nat} {e : ParseError} (h : FailsAt ts c k e) : parse ts = .error e := by
  obtain ⟨v, p, hb, -, hv⟩ := h.reached.statements
  have he := h.error
  rw [readFrom, line_finish h.reached.le] at he
  rcases body_drop_cases ts c with ⟨hn, -⟩ | ⟨-, hc⟩
  · exact (h.inside hn).elim
  · rw [parse, hb, hv _ _ _ (.refl _), hc, statements_cons, ← hc]
    split at he
    · cases he
    · rename_i hr
      cases he
      rw [hr]
      rfl

lemma exists_failsAt {c : Nat} {found : List Statement} {f : Failure} (hc : Reaches ts c)
    (h : statements (lastLine ts) found (body (ts.drop c)) = .error f) : ∃ c k, FailsAt ts c k f.1 := by
  -- Each statement that is read moves the cursor on, up to the one that cannot be read.
  induction hn : (body (ts.drop c)).length using Nat.strongRecOn generalizing c found with
  | ind n ih =>
    rcases body_drop_cases ts c with ⟨-, hb⟩ | ⟨he, hb⟩
    · rw [hb, statements] at h
      cases h
    · rw [hb, statements_cons, ← hb, bind_eq_error_iff] at h
      rcases h with h | ⟨⟨s, rest⟩, hr, h⟩
      · refine ⟨c, finish ts c - f.2.length, hc, he, ?_⟩
        rw [readFrom, line_finish hc.le, h]
      · obtain ⟨t, w, hw, -⟩ := readStatement_eq_ok hr
        have hk : Reaches ts (c + (t :: w).length) := by
          refine hc.next (s := s) ?_
          rw [readFrom, line_finish hc.le, hr]
          exact congrArg (Prod.mk _) (by rw [finish_append hw, Nat.add_sub_cancel])
        rw [body_drop_append hw] at h
        refine ih _ ?_ hk h rfl
        rw [← hn, hw, ← body_drop_append hw, List.length_append, List.length_cons]
        omega

lemma parse_eq_error_iff_failsAt {e : ParseError} : parse ts = .error e ↔ ∃ c k, FailsAt ts c k e := by
  constructor
  · intro h
    rw [parse] at h
    cases hs : statements (lastLine ts) [] (body ts) with
    | ok p =>
      rw [hs] at h
      cases h
    | error f =>
      rw [hs] at h
      cases h
      exact exists_failsAt .start hs
  · rintro ⟨c, k, h⟩
    exact h.parse_eq

lemma readFrom_eq_error {α : Type} {f : Nat → List Token → Except Failure (α × List Token)} {c k : Nat}
    (h : readFrom f ts c = (.error e, k)) :
    ∃ last rest, f last (body (ts.drop c)) = .error (e, rest) ∧ k = finish ts c - rest.length := by
  rw [readFrom] at h
  split at h
  · cases h
  · rename_i rest hf
    cases h
    exact ⟨_, rest, hf, rfl⟩

lemma unended_prefix {v w : List Token} (h : body ts = v ++ w) : Unended v ∧ ts.take v.length = v := by
  obtain ⟨us, hu⟩ : body ts <+: ts := List.takeWhile_prefix _
  have hb := unended_body ts
  rw [h] at hu hb
  refine ⟨fun t ht => hb t (List.mem_append_left w ht), ?_⟩
  rw [← hu, List.append_assoc, List.take_left]

lemma FailsAt.refused {c k line : Nat} {l : Lexeme} {x : Expectation}
    (h : FailsAt ts c k ⟨.unexpectedToken l x, line⟩)
    (hd : startsDefinition (body (ts.drop c)) = false ∨ ∃ hd m, readFrom readHeader ts c = (.ok hd, m)) :
    ∃ u us, body ts = u ++ ⟨l, line⟩ :: us ∧ u.length = k ∧
      (∀ last, (∃ p, statements last [] u = .ok p) ∨
        statements last [] u = .error (unexpected last x [], [])) ∧
      ∀ last us, ∃ f, statements last [] (u ++ ⟨l, line⟩ :: us) = .error f := by
  obtain ⟨v, p, hb, rfl, hv⟩ := h.reached.statements
  obtain ⟨last, rest, hr, rfl⟩ := readFrom_eq_error h.error
  have hd : startsDefinition (body (ts.drop v.length)) = false ∨
      ∃ r, readHeader last (body (ts.drop v.length)) = .ok r := by
    refine hd.imp_right fun ⟨hd, m, hm⟩ => ?_
    obtain ⟨last', us, hh, -⟩ := readFrom_eq_ok hm
    obtain ⟨t, u, hu, hs⟩ := header_steady hh
    exact ⟨(hd, us), hu ▸ (hs us).2 last⟩
  obtain ⟨w, y, hw, -, he, hn, hf⟩ := readStatement_eq_error hr hd
  rcases rest with _ | ⟨t, ts'⟩
  · cases he
  · cases he
    rw [hw] at hb hv
    refine ⟨v ++ w, ts', by rw [hb, List.append_assoc], ?_, fun last => ?_, fun last us => ?_⟩
    · rw [finish_append hw, List.length_append, Nat.add_sub_cancel]
    · have hr : Resembles (w ++ []) (w ++ t :: ts') := by
        apply Resembles.append
        exact .nil _
      rw [List.append_nil] at hr
      rw [hv last w [] hr]
      cases w with
      | nil => exact .inl ⟨_, statements.eq_1 _ _⟩
      | cons t w =>
        rw [statements_cons, hn]
        exact .inr rfl
    · obtain ⟨f, hf⟩ := hf last (t :: us) fun _ hl => hl
      have hr : Resembles (w ++ t :: us) (w ++ t :: ts') := by
        apply Resembles.append
        exact fun _ hl => hl
      rw [List.append_assoc, hv last _ [] hr]
      generalize hq : w ++ t :: us = q at hf ⊢
      cases q with
      | nil => simp at hq
      | cons t q =>
        rw [statements_cons, hf]
        exact ⟨f, rfl⟩

theorem parse_unexpectedToken_earliest (ts : List Token) (l : Lexeme) (x : Expectation) (line : Nat) :
    (parse ts = .error ⟨.unexpectedToken l x, line⟩ ↔
      ∃ c k, FailsAt ts c k ⟨.unexpectedToken l x, line⟩) ∧
    ∀ c k, FailsAt ts c k ⟨.unexpectedToken l x, line⟩ →
      startsDefinition (body (ts.drop c)) = false ∨
        (∃ hd m, readFrom readHeader ts c = (.ok hd, m)) →
      (∃ v p, parse (ts.take k ++ v) = .ok p) ∧
        ((∃ p, parse (ts.take k) = .ok p) ∨
          ∃ y last, parse (ts.take k) = .error ⟨.unexpectedEnd y, last⟩) ∧
        (∀ v p, parse (ts.take (k + 1) ++ v) ≠ .ok p) ∧ ts[k]? = some ⟨l, line⟩ := by
  refine ⟨parse_eq_error_iff_failsAt, fun c k h hd => ?_⟩
  obtain ⟨u, us, hb, rfl, hs, hf⟩ := h.refused hd
  obtain ⟨hu, ht⟩ := unended_prefix hb
  have hb' : body ts = (u ++ [⟨l, line⟩]) ++ us := by simpa using hb
  obtain ⟨hu', ht'⟩ := unended_prefix hb'
  rw [List.length_append, List.length_singleton] at ht'
  have hk : ts[u.length]? = some ⟨l, line⟩ := by
    have hg := congrArg (·[u.length]?) ht'
    simpa using hg
  rw [ht, ht']
  refine ⟨?_, ?_, fun v p hp => ?_, hk⟩
  · rcases hs (lastLine u) with ⟨p, hp⟩ | hp
    · refine ⟨[], p, parse_eq_ok_iff.2 ?_⟩
      rw [List.append_nil, hu.body_eq]
      exact derives_sound hp
    · obtain ⟨v, p, hv, hd⟩ := derives_completable ⟨x, rfl⟩ hp
      refine ⟨v, p, parse_eq_ok_iff.2 ?_⟩
      rwa [(hu.append hv).body_eq]
  · rw [parse, hu.body_eq]
    rcases hs (lastLine u) with ⟨p, hp⟩ | hp
    · exact .inl ⟨p, congrArg (Except.mapError _) hp⟩
    · exact .inr ⟨x, lastLine u, congrArg (Except.mapError _) hp⟩
  · obtain ⟨f, hf⟩ := hf (lastLine (u ++ [⟨l, line⟩] ++ v)) (body v)
    rw [parse, hu'.body_append, ← List.append_cons u _ (body v), hf] at hp
    cases hp

def openCall : List Token :=
  [⟨.identifier "g", 1⟩, ⟨.leftParen, 1⟩, ⟨.identifier "x", 1⟩, ⟨.rightParen, 1⟩, ⟨.equals, 1⟩,
    ⟨.identifier "x", 1⟩, ⟨.identifier "f", 2⟩, ⟨.leftParen, 2⟩, ⟨.integer 1, 2⟩, ⟨.integer 2, 3⟩,
    ⟨.rightBracket, 3⟩]

theorem parse_unexpectedToken_earliest_openCall :
    parse openCall = .error ⟨.unexpectedToken (.integer 2) .closingParen, 3⟩ ∧
      FailsAt openCall 6 9 ⟨.unexpectedToken (.integer 2) .closingParen, 3⟩ ∧
        startsDefinition (body (openCall.drop 6)) = false ∧
          (∃ v p, parse (openCall.take 9 ++ v) = .ok p) ∧
            ((∃ p, parse (openCall.take 9) = .ok p) ∨
              ∃ y last, parse (openCall.take 9) = .error ⟨.unexpectedEnd y, last⟩) ∧
            (∀ v p, parse (openCall.take 10 ++ v) ≠ .ok p) ∧ openCall[9]? = some ⟨.integer 2, 3⟩ := by
  have hs : readFrom readStatement openCall 0 =
      (.ok (.definition ⟨"g", ["x"], .identifier "x" 1, 1⟩), 6) := by cbv
  have he : readFrom readStatement openCall 6 =
      (.error ⟨.unexpectedToken (.integer 2) .closingParen, 3⟩, 9) := by cbv
  have hd : startsDefinition (body (openCall.drop 6)) = false := by cbv
  have hi : (peek openCall 6).lexeme ≠ .endOfInput := by decide
  have hf : FailsAt openCall 6 9 ⟨.unexpectedToken (.integer 2) .closingParen, 3⟩ :=
    ⟨.next .start hs, hi, he⟩
  obtain ⟨hp, hc⟩ := parse_unexpectedToken_earliest openCall (.integer 2) .closingParen 3
  exact ⟨hp.2 ⟨6, 9, hf⟩, hf, hd, hc 6 9 hf (.inl hd)⟩

end ExprLang.Grammar
