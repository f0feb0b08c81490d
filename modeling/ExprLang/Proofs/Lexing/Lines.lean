import ExprLang.Proofs.Lexing.LongestMatch
import Mathlib

namespace ExprLang.Lexing

variable {before text rest : List Char} {ps : List Piece} {line : Nat} {t : Token}

def lineAfter (before : List Char) : Nat := 1 + before.count '\n'

def placed (before : List Char) : List Piece → List (List Char × Piece)
  | [] => []
  | p :: ps => (before, p) :: placed (before ++ p.word) ps

def Piece.token? (before : List Char) (p : Piece) : Option Token :=
  p.lexeme?.map (⟨·, lineAfter before⟩)

lemma tokens_lineAfter (before : List Char) (ps : List Piece) :
    tokens (lineAfter before) ps = (placed before ps).filterMap fun q => q.2.token? q.1 := by
  induction ps generalizing before with
  | nil => rfl
  | cons p ps ih =>
    have hl : lineAfter before + p.word.count '\n' = lineAfter (before ++ p.word) := by
      rw [lineAfter, lineAfter, List.count_append, Nat.add_assoc]
    rw [tokens, placed, hl, ih, List.filterMap_cons, Piece.token?]
    cases p.lexeme? <;> rfl

lemma Munches.of_mem_placed (h : Munches text ps rest) {q : List Char × Piece} (hq : q ∈ placed before ps) :
    ∃ after, before ++ text = q.1 ++ (q.2.word ++ after) ∧ q.2.Longest (q.2.word ++ after) := by
  induction h generalizing before with
  | stop => cases hq
  | @take p text ps rest hp _ ih =>
    rcases List.mem_cons.1 hq with rfl | hq
    · exact ⟨text, rfl, hp⟩
    · obtain ⟨after, ht, hl⟩ := ih hq
      exact ⟨after, by rw [← ht, List.append_assoc], hl⟩

lemma newlines_cons (p : Piece) (ps : List Piece) : newlines (p :: ps) = p.word.count '\n' + newlines ps := by
  simp [newlines]

lemma line_of_mem_tokens (h : t ∈ tokens line ps) : line ≤ t.line ∧ t.line ≤ line + newlines ps := by
  induction ps generalizing line with
  | nil => cases h
  | cons p ps ih =>
    rw [newlines_cons]
    rcases List.mem_append.1 h with h | h
    · obtain ⟨l, -, rfl⟩ := List.mem_map.1 h
      exact ⟨Nat.le_refl line, Nat.le_add_right line _⟩
    · have := ih h
      omega

lemma pairwise_tokens (line : Nat) (ps : List Piece) :
    (tokens line ps).Pairwise fun t u => t.line ≤ u.line := by
  induction ps generalizing line with
  | nil => exact .nil
  | cons p ps ih =>
    refine List.pairwise_append.2 ⟨?_, ih _, fun t ht u hu => ?_⟩
    · cases p.lexeme? with
      | none => exact .nil
      | some l => exact List.pairwise_singleton _ _
    · obtain ⟨l, -, rfl⟩ := List.mem_map.1 ht
      exact Nat.le_trans (Nat.le_add_right line _) (line_of_mem_tokens hu).1

lemma tokenize_cases (source : String) :
    (∃ ps, Munches source.toList ps [] ∧ (∀ p ∈ ps, p.Fits) ∧
      tokenize source = .ok (tokens 1 ps ++ [⟨.endOfInput, 1 + newlines ps⟩])) ∨
    ∃ ps rest cause, Munches source.toList ps rest ∧ (∀ p ∈ ps, p.Fits) ∧ Fails rest cause ∧
      tokenize source = .error ⟨cause, 1 + newlines ps⟩ := by
  obtain ⟨ps, rest, hm, hf, hr⟩ := exists_munches source.toList
  have ht : tokenize source = tokensFrom (1 + newlines ps) ((tokens 1 ps).reverse ++ []) rest :=
    tokensFrom_munches hm hf 1 []
  rcases hr with rfl | ⟨cause, hc⟩
  · refine .inl ⟨ps, hm, hf, ?_⟩
    rw [ht, tokensFrom]
    simp
  · refine .inr ⟨ps, rest, cause, hm, hf, hc, ?_⟩
    obtain ⟨c, cs, rfl⟩ := hc.exists_cons
    rw [ht, tokensFrom, found_of_fails hc]

lemma Fails.quote (h : Fails rest .unterminatedComment) : ∃ inside, rest = '\'' :: inside ∧ '\'' ∉ inside := by
  cases h with
  | unterminated hq => exact ⟨_, rfl, hq⟩

theorem tokenize_lines (source : String) :
    (∀ ts, tokenize source = .ok ts → ∃ ps, Munches source.toList ps [] ∧ (∀ p ∈ ps, p.Fits) ∧
      (∀ q ∈ placed [] ps, ∃ after, source.toList = q.1 ++ (q.2.word ++ after) ∧
        q.2.Longest (q.2.word ++ after)) ∧
      ts = (placed [] ps).filterMap (fun q => q.2.token? q.1) ++
        [⟨.endOfInput, lineAfter source.toList⟩] ∧
      ts.Pairwise fun t u => t.line ≤ u.line) ∧
    ∀ cause line, tokenize source = .error ⟨cause, line⟩ → ∃ ps rest, Munches source.toList ps rest ∧
      (∀ p ∈ ps, p.Fits) ∧ Fails rest cause ∧ source.toList = ps.flatMap (·.word) ++ rest ∧
      line = lineAfter (ps.flatMap (·.word)) ∧
      (cause = .unterminatedComment → ∃ inside, rest = '\'' :: inside ∧ '\'' ∉ inside) := by
  rcases tokenize_cases source with ⟨ps, hm, hf, ht⟩ | ⟨ps, rest, cause, hm, hf, hc, ht⟩
  · refine ⟨fun ts hts => ⟨ps, hm, hf, fun q hq => hm.of_mem_placed hq, ?_, ?_⟩, fun _ _ he => ?_⟩
    · have hn : lineAfter source.toList = 1 + newlines ps := by
        rw [lineAfter, ← hm.text, List.append_nil, newlines]
      rw [← Except.ok.inj (ht.symm.trans hts), hn, ← tokens_lineAfter]
      rfl
    · rw [← Except.ok.inj (ht.symm.trans hts)]
      refine List.pairwise_append.2 ⟨pairwise_tokens 1 ps, List.pairwise_singleton _ _, ?_⟩
      intro t hp u hu
      rw [List.mem_singleton.1 hu]
      exact (line_of_mem_tokens hp).2
    · rw [ht] at he
      cases he
  · refine ⟨fun ts hts => ?_, fun _ _ he => ?_⟩
    · rw [ht] at hts
      cases hts
    · rw [ht] at he
      cases he
      refine ⟨ps, rest, hm, hf, hc, hm.text.symm, rfl, ?_⟩
      rintro rfl
      exact hc.quote

theorem tokenize_lines_comment :
    (tokenize "7\n'one\ntwo'\n 8" =
        .ok [⟨.integer 7, 1⟩, ⟨.integer 8, 4⟩, ⟨.endOfInput, 4⟩] ∧
      tokenize "1\n'never\nclosed" = .error ⟨.unterminatedComment, 2⟩) ∧
    (∃ ps, Munches "7\n'one\ntwo'\n 8".toList ps [] ∧
      [⟨.integer 7, 1⟩, ⟨.integer 8, 4⟩, ⟨.endOfInput, 4⟩] =
        (placed [] ps).filterMap (fun q => q.2.token? q.1) ++
          [⟨.endOfInput, lineAfter "7\n'one\ntwo'\n 8".toList⟩]) ∧
    ∃ ps rest, Munches "1\n'never\nclosed".toList ps rest ∧ 2 = lineAfter (ps.flatMap (·.word)) ∧
      ∃ inside, rest = '\'' :: inside ∧ '\'' ∉ inside := by
  have ht : tokenize "7\n'one\ntwo'\n 8" =
      .ok [⟨.integer 7, 1⟩, ⟨.integer 8, 4⟩, ⟨.endOfInput, 4⟩] := by cbv
  have he : tokenize "1\n'never\nclosed" = .error ⟨.unterminatedComment, 2⟩ := by cbv
  obtain ⟨ps, hm, -, -, hts, -⟩ := (tokenize_lines "7\n'one\ntwo'\n 8").1 _ ht
  obtain ⟨qs, rest, hqs, -, -, -, hl, hq⟩ := (tokenize_lines "1\n'never\nclosed").2 _ _ he
  exact ⟨⟨ht, he⟩, ⟨ps, hm, hts⟩, qs, rest, hqs, hl, hq rfl⟩

end ExprLang.Lexing
