import ExprLang.Proofs.Grammar.Completion

namespace ExprLang.Grammar

open ExprLang.Parser

variable {last : Nat} {w v ts us : List Token} {p : Program}

lemma statements_found (last : Nat) (found : List Statement) (ts : List Token) :
    statements last found ts = (statements last [] ts).map (found.reverse ++ ·) := by
  induction hk : ts.length using Nat.strongRecOn generalizing ts found with
  | ind k ih =>
    cases ts with
    | nil =>
      rw [statements, statements]
      simp [Except.map]
    | cons t ts =>
      rw [statements_cons, statements_cons]
      cases hr : readStatement last (t :: ts) with
      | error f => rfl
      | ok r =>
        obtain ⟨s, rest⟩ := r
        obtain ⟨u, w, hw, -⟩ := sentence_sound hr
        have hlt : rest.length < k := by
          rw [← hk, hw, List.length_append, List.length_cons]
          omega
        simp only [ok_bind]
        rw [ih _ hlt (s :: found) rest rfl, ih _ hlt [s] rest rfl]
        cases statements last [] rest with
        | error f => rfl
        | ok q => simp [Except.map]

lemma Fresh.append (h : Fresh w) (hv : Fresh v) : Fresh (w ++ v) := by
  cases w with
  | nil => exact hv
  | cons t w => exact fun l hl => h l hl

lemma Sentence.statements_append {s : Statement} (h : Sentence w s) (hv : Fresh v)
    (found : List Statement) : statements last found (w ++ v) = statements last (s :: found) v := by
  have hr : readStatement last (w ++ v) = .ok (s, v) := h.read hv
  obtain ⟨t, w, rfl⟩ := h.exists_cons
  rw [List.cons_append, statements_cons, ← List.cons_append, hr]
  rfl

lemma Following.statements_append (h : Following w p) (hv : Fresh v) (found : List Statement) :
    statements last found (w ++ v) = statements last (p.reverse ++ found) v := by
  induction h generalizing found with
  | nil => rfl
  | cons _ hs hf ih =>
    rw [List.append_assoc, hs.statements_append (hf.fresh.append hv), ih, List.reverse_cons,
      List.append_assoc, List.singleton_append]

lemma Derives.statements_append (h : Derives w p) (hv : w = [] ∨ Fresh v) :
    statements last [] (w ++ v) = (statements last [] v).map (p ++ ·) := by
  have hs : statements last [] (w ++ v) = statements last p.reverse v := by
    cases h with
    | nil => rfl
    | cons hs hf =>
      obtain ⟨t, w, rfl⟩ := hs.exists_cons
      have hv : Fresh v := hv.resolve_left nofun
      rw [List.append_assoc, hs.statements_append (hf.fresh.append hv), hf.statements_append hv,
        List.reverse_cons]
  rw [hs, statements_found, List.reverse_reverse]

lemma lastLine_append (h : Unended ts) (hu : us ≠ []) : lastLine (ts ++ us) = lastLine us := by
  have hd : (ts ++ us).dropWhile (·.lexeme != .endOfInput) = us.dropWhile (·.lexeme != .endOfInput) :=
    List.dropWhile_append_of_pos fun t ht => bne_iff_ne.2 (h t ht)
  have hl : (ts ++ us).getLast? = us.getLast? := by
    rw [List.getLast?_append, List.getLast?_eq_some_getLast hu, Option.some_or]
  rw [lastLine, lastLine, hd, hl]

theorem parse_append {ts us : List Token} {p : Program} (hts : ∀ t ∈ ts, t.lexeme ≠ .endOfInput)
    (hp : parse ts = .ok p) (hs : ts = [] ∨ ∃ l, front us = some l ∧ l.resumes) :
    parse (ts ++ us) = (parse us).map (p ++ ·) := by
  have hu : Unended ts := hts
  have hd : Derives ts p := by
    have hd := parse_eq_ok_iff.1 hp
    rwa [hu.body_eq] at hd
  have hv : ts = [] ∨ Fresh (body us) := hs.imp_right fun ⟨l, hl, hr⟩ => fresh_body hl hr
  have hl : lastLine (ts ++ us) = lastLine us := by
    rcases hs with rfl | ⟨l, hl, -⟩
    · rfl
    · refine lastLine_append hu ?_
      rintro rfl
      cases hl
  rw [parse, parse, hl, hu.body_append, hd.statements_append hv]
  cases statements (lastLine us) [] (body us) <;> rfl

def functionTokens : List Token :=
  [⟨.identifier "f", 1⟩, ⟨.leftParen, 1⟩, ⟨.identifier "x", 1⟩, ⟨.rightParen, 1⟩, ⟨.equals, 1⟩,
    ⟨.identifier "x", 2⟩]

def cutCallTokens : List Token :=
  [⟨.identifier "f", 3⟩, ⟨.leftParen, 3⟩, ⟨.integer 2, 4⟩]

theorem parse_append_cutCall :
    (∀ t ∈ functionTokens, t.lexeme ≠ .endOfInput) ∧
      parse functionTokens = .ok [.definition ⟨"f", ["x"], .identifier "x" 2, 1⟩] ∧
      (∃ l, front cutCallTokens = some l ∧ l.resumes) ∧
      parse cutCallTokens = .error ⟨.unexpectedEnd .closingParen, 4⟩ ∧
      parse (functionTokens ++ cutCallTokens) = .error ⟨.unexpectedEnd .closingParen, 4⟩ := by
  have ht : ∀ t ∈ functionTokens, t.lexeme ≠ .endOfInput := by decide
  have hp : parse functionTokens = .ok [.definition ⟨"f", ["x"], .identifier "x" 2, 1⟩] := by cbv
  have hs : ∃ l, front cutCallTokens = some l ∧ l.resumes := ⟨_, rfl, rfl⟩
  have he : parse cutCallTokens = .error ⟨.unexpectedEnd .closingParen, 4⟩ := by cbv
  refine ⟨ht, hp, hs, he, ?_⟩
  rw [parse_append ht hp (.inr hs), he]
  rfl

end ExprLang.Grammar
