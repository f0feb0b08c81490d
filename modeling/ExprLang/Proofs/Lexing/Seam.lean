import ExprLang.Proofs.Lexing.LongestMatch
import ExprLang.Proofs.Spelling.Reading
import Mathlib

/-! Texts with blanks or comments between them. -/

namespace ExprLang

def LexError.renumber (g : Nat → Nat) (e : LexError) : LexError := ⟨e.cause, g e.line⟩

namespace Lexing

variable {c : Char} {cs ds w : List Char} {l : Lexeme} {cause : LexCause} {line : Nat}
  {found ts : List Token} {e : LexError}

theorem lexeme_induction {P : List Char → Prop} (nil : P [])
    (error : ∀ c cs cause, (scan c cs).found = .error cause → P (c :: cs))
    (ok : ∀ c cs l, (scan c cs).found = .ok l → P (scan c cs).rest → P (c :: cs)) : ∀ cs, P cs
  | [] => nil
  | c :: cs =>
    match h : (scan c cs).found with
    | .error cause => error c cs cause h
    | .ok l => ok c cs l h (lexeme_induction nil error ok (scan c cs).rest)
termination_by cs => cs.length
decreasing_by exact scan_length_lt c cs

lemma tokensFrom_error (h : (scan c cs).found = .error cause) :
    tokensFrom line found (c :: cs) = .error ⟨cause, line⟩ := by
  rw [tokensFrom, h]

lemma tokensFrom_ok (h : (scan c cs).found = .ok l) :
    tokensFrom line found (c :: cs) = tokensFrom (line + (scan c cs).chars.count '\n')
      (if l.isTrivia then found else ⟨l, line⟩ :: found) (scan c cs).rest := by
  rw [tokensFrom, h]

lemma of_scan (h : (scan c cs).found = .ok l) :
    (scan c cs).chars ++ (scan c cs).rest = c :: cs ∧ l ≠ .endOfInput := by
  have hs := scan_agrees c cs
  generalize scan c cs = s at hs h
  cases hs with
  | failure _ => cases h
  | @piece p l rest _ _ ht hl =>
    cases h
    refine ⟨ht, ?_⟩
    rintro rfl
    have he : ∀ s ∈ symbols, s.2 ≠ .endOfInput := by decide
    obtain ⟨kind, w⟩ := p
    change Piece.lexeme? ⟨kind, w⟩ = some .endOfInput at hl
    rw [Piece.lexeme?.eq_def] at hl
    split at hl
    · cases hl
    · cases hl
    · rename_i d _
      obtain ⟨l₁, l₂, hm, -⟩ := List.lookup_eq_some_iff.1 hl
      have hd : (d, Lexeme.endOfInput) ∈ symbols := by simp [hm]
      exact he _ hd rfl
    · cases hl

lemma tokensFrom_found (line : Nat) (found : List Token) (cs : List Char) :
    tokensFrom line found cs = (tokensFrom line [] cs).map (found.reverse ++ ·) := by
  induction cs using lexeme_induction generalizing line found with
  | nil =>
    rw [tokensFrom, tokensFrom]
    simp [Except.map]
  | error c cs cause h =>
    rw [tokensFrom_error h, tokensFrom_error h]
    rfl
  | ok c cs l h ih =>
    rw [tokensFrom_ok h, tokensFrom_ok h, ih, ih _ (if l.isTrivia then [] else _)]
    cases tokensFrom (line + (scan c cs).chars.count '\n') [] (scan c cs).rest with
    | error e => rfl
    | ok ts => cases l.isTrivia <;> simp [Except.map]

def lowered (k : Nat) (r : Except LexError (List Token)) : Except LexError (List Token) :=
  (r.map (List.map (.renumber (· + k)))).mapError (.renumber (· + k))

lemma tokensFrom_add (line k : Nat) (found : List Token) (cs : List Char) :
    tokensFrom (line + k) (found.map (.renumber (· + k))) cs = lowered k (tokensFrom line found cs) := by
  induction cs using lexeme_induction generalizing line found with
  | nil =>
    rw [tokensFrom, tokensFrom, lowered, Except.map, Except.mapError, List.map_reverse]
    rfl
  | error c cs cause h =>
    rw [tokensFrom_error h, tokensFrom_error h]
    rfl
  | ok c cs l h ih =>
    rw [tokensFrom_ok h, tokensFrom_ok h, ← ih, Nat.add_right_comm]
    cases l.isTrivia <;> rfl

lemma scan_blank (hc : Text.isBlank c) (cs : List Char) :
    scan c cs = Scan.run Text.isBlank c cs fun _ => .ok .blank := by
  have hn : ∀ s ∈ symbols, Text.isBlank s.1 = false := by decide
  have hs : Lexeme.ofSymbol? c = none := by
    rw [← lookup_symbols, List.lookup_eq_none_iff]
    intro s hs
    refine bne_iff_ne.2 ?_
    rintro rfl
    rw [hn s hs] at hc
    cases hc
  have hq : c ≠ '\'' := by
    rintro rfl
    cases hc
  rw [scan, hs]
  dsimp only
  rw [if_neg hq, if_pos hc]

lemma tokensFrom_blank (hc : Text.isBlank c) (cs : List Char) :
    tokensFrom line found (c :: cs) = tokensFrom (line + [c].count '\n') found cs := by
  have hb (line : Nat) {c : Char} (hc : Text.isBlank c) (cs : List Char) :
      tokensFrom line found (c :: cs) =
        tokensFrom (line + (c :: cs.takeWhile Text.isBlank).count '\n') found
          (cs.dropWhile Text.isBlank) := by
    rw [tokensFrom, scan_blank hc]
    rfl
  rw [hb line hc]
  cases cs with
  | nil => rfl
  | cons d ds =>
    by_cases hd : Text.isBlank d
    · rw [hb _ hd, List.takeWhile_cons_of_pos hd, List.dropWhile_cons_of_pos hd, Nat.add_assoc,
        ← List.count_append, List.singleton_append]
    · rw [List.takeWhile_cons_of_neg hd, List.dropWhile_cons_of_neg hd]

lemma tokensFrom_blanks (hw : ∀ d ∈ w, Text.isBlank d) (ds : List Char) :
    tokensFrom line found (w ++ ds) = tokensFrom (line + w.count '\n') found ds := by
  induction w generalizing line with
  | nil => rfl
  | cons c w ih =>
    obtain ⟨hc, hw⟩ := List.forall_mem_cons.1 hw
    rw [List.cons_append, tokensFrom_blank hc, ih hw, Nat.add_assoc, ← List.count_append,
      List.singleton_append]

lemma tokensFrom_comment (hw : '\'' ∉ w) (ds : List Char) :
    tokensFrom line found ('\'' :: (w ++ '\'' :: ds)) =
      tokensFrom (line + ('\'' :: (w ++ ['\''])).count '\n') found ds := by
  have hs : scan '\'' (w ++ '\'' :: ds) = ⟨.ok .comment, '\'' :: (w ++ ['\'']), ds⟩ := by
    change Scan.comment (w ++ '\'' :: ds) = _
    rw [Scan.comment, (span_quote hw ds).1, (span_quote hw ds).2]
  rw [tokensFrom, hs]
  rfl

def Detached (ds : List Char) : Prop := ∀ d, ds.head? = some d → Text.isBlank d ∨ d = '\''

lemma span_detached {p : Char → Bool} (hp : ∀ d, Text.isBlank d ∨ d = '\'' → p d = false)
    (hd : Detached ds) (cs : List Char) :
    (cs ++ ds).takeWhile p = cs.takeWhile p ∧ (cs ++ ds).dropWhile p = cs.dropWhile p ++ ds := by
  induction cs with
  | nil =>
    cases ds with
    | nil => exact ⟨rfl, rfl⟩
    | cons d ds =>
      have hn := hp d (hd d rfl)
      simp [hn]
  | cons c cs ih =>
    obtain ⟨ht, hd⟩ := ih
    by_cases hc : p c <;> simp [hc, ht, hd]

lemma not_isLetter_of_gap (d : Char) (h : Text.isBlank d ∨ d = '\'') : Text.isLetter d = false := by
  rw [← Bool.not_eq_true]
  intro hl
  rcases h with h | rfl
  · rw [not_isBlank_of_startsIdentifier (startsIdentifier_iff.2 (.inr hl))] at h
    cases h
  · cases hl

lemma not_isDigit_of_gap (d : Char) (h : Text.isBlank d ∨ d = '\'') : d.isDigit = false := by
  rw [← Bool.not_eq_true]
  intro hn
  rcases h with h | rfl
  · rw [not_isBlank_of_isDigit hn] at h
    cases h
  · cases hn

lemma scanRun_append {p : Char → Bool} (hp : ∀ d, Text.isBlank d ∨ d = '\'' → p d = false)
    (found : List Char → Except LexCause Lexeme) (hd : Detached ds) :
    Scan.run p c (cs ++ ds) found =
      { Scan.run p c cs found with rest := (Scan.run p c cs found).rest ++ ds } := by
  rw [Scan.run, Scan.run, (span_detached hp hd cs).1, (span_detached hp hd cs).2]

lemma scanComment_append (h : (Scan.comment cs).found ≠ .error .unterminatedComment) (ds : List Char) :
    Scan.comment (cs ++ ds) = { Scan.comment cs with rest := (Scan.comment cs).rest ++ ds } := by
  by_cases hm : '\'' ∈ cs
  · obtain ⟨w, rest, rfl, hw⟩ := List.eq_append_cons_of_mem hm
    rw [Scan.comment, Scan.comment, List.append_assoc, List.cons_append, (span_quote hw _).1,
      (span_quote hw _).2, (span_quote hw _).1, (span_quote hw _).2]
  · have hn : cs.dropWhile (· != '\'') = [] := by
      rw [List.dropWhile_eq_nil_iff]
      exact fun d hd => bne_iff_ne.2 (ne_of_mem_of_not_mem hd hm)
    rw [Scan.comment, hn] at h
    exact (h rfl).elim

lemma scan_append (hb : ¬ Text.isBlank c) (h : (scan c cs).found ≠ .error .unterminatedComment)
    (hd : Detached ds) :
    scan c (cs ++ ds) = { scan c cs with rest := (scan c cs).rest ++ ds } := by
  rw [scan] at h ⊢
  rw [scan]
  split
  · rfl
  · rename_i hs
    rw [hs] at h
    dsimp only at h
    split
    · rename_i hq
      rw [if_pos hq] at h
      exact scanComment_append h ds
    · split
      · exact scanRun_append not_isDigit_of_gap _ hd
      · split
        · exact scanRun_append not_isLetter_of_gap _ hd
        · rfl

lemma tokensFrom_ok_append (h : (scan c cs).found = .ok l) (hd : Detached ds) :
    tokensFrom line found (c :: (cs ++ ds)) = tokensFrom (line + (scan c cs).chars.count '\n')
      (if l.isTrivia then found else ⟨l, line⟩ :: found) ((scan c cs).rest ++ ds) := by
  by_cases hb : Text.isBlank c
  · -- A run of blanks may go on into what is detached, so its blanks are passed one by one.
    rw [scan_blank hb] at h ⊢
    cases h
    have hc : c :: (cs ++ ds) = c :: cs.takeWhile Text.isBlank ++ (cs.dropWhile Text.isBlank ++ ds) := by
      rw [← List.append_assoc, List.cons_append, List.takeWhile_append_dropWhile, List.cons_append]
    rw [hc, tokensFrom_blanks (of_mem_run hb cs)]
    rfl
  · have hs := scan_append hb (by rw [h]; exact nofun) hd
    have hf : (scan c (cs ++ ds)).found = .ok l := by rw [hs, h]
    rw [tokensFrom_ok hf, hs]

lemma tokensFrom_append (h : tokensFrom line found cs = .ok ts) :
    ∃ us, ts = us ++ [⟨.endOfInput, line + cs.count '\n'⟩] ∧
      ((∀ t ∈ found, t.lexeme ≠ .endOfInput) → ∀ t ∈ us, t.lexeme ≠ .endOfInput) ∧
      ∀ ds, Detached ds →
        tokensFrom line found (cs ++ ds) = tokensFrom (line + cs.count '\n') us.reverse ds := by
  induction cs using lexeme_induction generalizing line found with
  | nil =>
    rw [tokensFrom] at h
    cases h
    refine ⟨found.reverse, by simp, fun hf t ht => hf t (List.mem_reverse.1 ht), fun ds _ => ?_⟩
    rw [List.reverse_reverse]
    rfl
  | error c cs cause hs =>
    rw [tokensFrom_error hs] at h
    cases h
  | ok c cs l hs ih =>
    rw [tokensFrom_ok hs] at h
    obtain ⟨us, rfl, hu, hd⟩ := ih h
    obtain ⟨hc, hl⟩ := of_scan hs
    have hn : (scan c cs).chars.count '\n' + (scan c cs).rest.count '\n' = (c :: cs).count '\n' := by
      rw [← List.count_append, hc]
    refine ⟨us, by rw [Nat.add_assoc, hn], fun hf => hu ?_, fun ds hds => ?_⟩
    · split
      · exact hf
      · exact List.forall_mem_cons.2 ⟨hl, hf⟩
    · rw [List.cons_append, tokensFrom_ok_append hs hds, hd ds hds, Nat.add_assoc, hn]

lemma tokensFrom_append_error (h : tokensFrom line found cs = .error e) (he : e.cause ≠ .unterminatedComment)
    (hd : Detached ds) : tokensFrom line found (cs ++ ds) = .error e := by
  induction cs using lexeme_induction generalizing line found with
  | nil =>
    rw [tokensFrom] at h
    cases h
  | error c cs cause hs =>
    rw [tokensFrom_error hs] at h
    cases h
    have hb : ¬ Text.isBlank c := by
      intro hb
      rw [scan_blank hb] at hs
      cases hs
    have ha := scan_append hb (by rw [hs]; exact fun hc => he (Except.error.inj hc)) hd
    have hf : (scan c (cs ++ ds)).found = .error cause := by rw [ha, hs]
    exact tokensFrom_error hf
  | ok c cs l hs ih =>
    rw [tokensFrom_ok hs] at h
    rw [List.cons_append, tokensFrom_ok_append hs hd]
    exact ih h

structure IsGap (ws : List String) : Prop where
  ne_nil : ws ≠ []
  isWord : ∀ w ∈ ws, Word .blank w.toList ∨ Word .comment w.toList

lemma tokensFrom_gap {ws : List String} (hw : ∀ w ∈ ws, Word .blank w.toList ∨ Word .comment w.toList)
    (line : Nat) (ds : List Char) :
    tokensFrom line found ((String.join ws).toList ++ ds) =
      tokensFrom (line + (String.join ws).toList.count '\n') found ds := by
  rw [String.toList_join]
  induction ws generalizing line with
  | nil => rfl
  | cons w ws ih =>
    obtain ⟨hw, hws⟩ := List.forall_mem_cons.1 hw
    have hc (v : List Char) : tokensFrom line found (w.toList ++ v) =
        tokensFrom (line + w.toList.count '\n') found v := by
      generalize w.toList = u at hw
      rcases hw with hw | hw
      · cases hw with
        | blank hb => exact tokensFrom_blanks hb v
      · cases hw with
        | @comment u hq =>
          have hu : '\'' ∉ u := fun hm => hq _ hm rfl
          rw [List.cons_append, List.append_assoc, List.singleton_append]
          exact tokensFrom_comment hu v
    rw [List.flatMap_cons, List.append_assoc, hc, ih hws, Nat.add_assoc, ← List.count_append]

lemma IsGap.detached {ws : List String} (h : IsGap ws) (ds : List Char) :
    Detached ((String.join ws).toList ++ ds) := by
  obtain ⟨w, ws, rfl⟩ := List.exists_cons_of_ne_nil h.ne_nil
  have hw := h.isWord w List.mem_cons_self
  rw [String.toList_join, List.flatMap_cons]
  generalize w.toList = u at hw
  rintro d hd
  rcases hw with hw | hw
  · cases hw with
    | @blank c u hb =>
      cases hd
      exact .inl (hb _ List.mem_cons_self)
  · cases hw with
    | comment hq =>
      cases hd
      exact .inr rfl

def unlined (r : Except LexError (List Token)) : Except LexCause (List Lexeme) :=
  (r.map (List.map Token.lexeme)).mapError LexError.cause

lemma unlined_lowered (k : Nat) (us : List Token) (r : Except LexError (List Token)) :
    unlined ((lowered k r).map (us ++ ·)) = unlined (r.map (us ++ ·)) := by
  cases r with
  | error e => rfl
  | ok ts => simp [unlined, lowered, Except.map, Except.mapError, Function.comp_def, Token.renumber]

section Gap

variable {a : String}

lemma toList_gap (a b : String) (ws : List String) :
    (a ++ String.join ws ++ b).toList = a.toList ++ ((String.join ws).toList ++ b.toList) := by
  rw [String.toList_append, String.toList_append, List.append_assoc]

lemma tokenize_append_gap (h : tokenize a = .ok ts) :
    ∃ us line, ts = us ++ [⟨.endOfInput, line⟩] ∧ (∀ t ∈ us, t.lexeme ≠ .endOfInput) ∧
      ∀ ws b, IsGap ws → tokenize (a ++ String.join ws ++ b) =
        (lowered ((a ++ String.join ws).toList.count '\n') (tokenize b)).map (us ++ ·) := by
  obtain ⟨us, hts, hu, hd⟩ := tokensFrom_append h
  refine ⟨us, _, hts, hu nofun, fun ws b hws => ?_⟩
  have hl := tokensFrom_add 1 ((a ++ String.join ws).toList.count '\n') [] b.toList
  rw [tokenize, toList_gap, hd _ (hws.detached _), tokensFrom_gap hws.isWord, tokensFrom_found,
    List.reverse_reverse, Nat.add_assoc, ← List.count_append, ← String.toList_append]
  exact congrArg (Except.map (us ++ ·)) hl

lemma tokenize_append_gap_error (h : tokenize a = .error e) (he : e.cause ≠ .unterminatedComment)
    {ws : List String} (hws : IsGap ws) (b : String) :
    tokenize (a ++ String.join ws ++ b) = .error e := by
  rw [tokenize, toList_gap]
  exact tokensFrom_append_error h he (hws.detached _)

end Gap

theorem tokenize_gap (a b : String) (ws : List String) (hws : IsGap ws) :
    (∀ ts, tokenize a = .ok ts → ∃ us line, ts = us ++ [⟨.endOfInput, line⟩] ∧
      (∀ t ∈ us, t.lexeme ≠ .endOfInput) ∧
      tokenize (a ++ String.join ws ++ b) =
        (lowered ((a ++ String.join ws).toList.count '\n') (tokenize b)).map (us ++ ·)) ∧
    (∀ e, tokenize a = .error e → e.cause ≠ .unterminatedComment →
      tokenize (a ++ String.join ws ++ b) = .error e) ∧
    ((∀ e, tokenize a = .error e → e.cause ≠ .unterminatedComment) → ∀ vs, IsGap vs →
      unlined (tokenize (a ++ String.join vs ++ b)) = unlined (tokenize (a ++ String.join ws ++ b))) := by
  refine ⟨fun ts ht => ?_, fun e ht he => tokenize_append_gap_error ht he hws b, fun hn vs hvs => ?_⟩
  · obtain ⟨us, line, hts, hu, h⟩ := tokenize_append_gap ht
    exact ⟨us, line, hts, hu, h ws b hws⟩
  · cases ha : tokenize a with
    | error e =>
      have he := hn e ha
      rw [tokenize_append_gap_error ha he hvs b, tokenize_append_gap_error ha he hws b]
    | ok ts =>
      obtain ⟨us, -, -, -, h⟩ := tokenize_append_gap ha
      rw [h vs b hvs, h ws b hws, unlined_lowered, unlined_lowered]

def tooLarge : String := "9223372036854775808"

theorem tokenize_gap_comments :
    (IsGap ["\n ", "'a'", "'b\n'"] ∧ tokenize "7 " = .ok [⟨.integer 7, 1⟩, ⟨.endOfInput, 1⟩] ∧
      tokenize tooLarge = .error ⟨.integerTooLarge tooLarge.toList, 1⟩) ∧
    tokenize ("7 " ++ String.join ["\n ", "'a'", "'b\n'"] ++ " (\n8") =
      .ok [⟨.integer 7, 1⟩, ⟨.leftParen, 3⟩, ⟨.integer 8, 4⟩, ⟨.endOfInput, 4⟩] ∧
    tokenize ("7 " ++ String.join ["\n ", "'a'", "'b\n'"] ++ tooLarge) =
      .error ⟨.integerTooLarge tooLarge.toList, 3⟩ ∧
    tokenize (tooLarge ++ String.join ["\n ", "'a'", "'b\n'"] ++ "8") =
      .error ⟨.integerTooLarge tooLarge.toList, 1⟩ := by
  have hw : IsGap ["\n ", "'a'", "'b\n'"] := by
    have hn : Word .blank ['\n', ' '] :=
      .blank (List.forall_mem_cons.2 ⟨rfl, List.forall_mem_singleton.2 rfl⟩)
    have hc : Word .comment ['\'', 'a', '\''] := .comment (w := ['a']) (by simp)
    have hd : Word .comment ['\'', 'b', '\n', '\''] := .comment (w := ['b', '\n']) (by simp)
    refine ⟨List.cons_ne_nil _ _, ?_⟩
    simp only [List.forall_mem_cons]
    exact ⟨.inl hn, .inr hc, .inr hd, List.forall_mem_nil _⟩
  have ha : tokenize "7 " = .ok [⟨.integer 7, 1⟩, ⟨.endOfInput, 1⟩] := by cbv
  have hb : tokenize " (\n8" = .ok [⟨.leftParen, 1⟩, ⟨.integer 8, 2⟩, ⟨.endOfInput, 2⟩] := by cbv
  have he : tokenize tooLarge = .error ⟨.integerTooLarge tooLarge.toList, 1⟩ := by cbv
  have hone {us : List Token} {line : Nat}
      (h : [⟨.integer 7, 1⟩, ⟨.endOfInput, 1⟩] = us ++ [⟨.endOfInput, line⟩]) :
      us = [⟨.integer 7, 1⟩] := by
    simpa using congrArg List.dropLast h.symm
  obtain ⟨us, line, hus, -, hu⟩ := (tokenize_gap "7 " " (\n8" _ hw).1 _ ha
  obtain ⟨vs, line', hvs, -, hv⟩ := (tokenize_gap "7 " tooLarge _ hw).1 _ ha
  rw [hone hus, hb] at hu
  rw [hone hvs, he] at hv
  exact ⟨⟨hw, ha, he⟩, hu, hv, (tokenize_gap tooLarge "8" _ hw).2.1 _ he (by simp)⟩

end Lexing
end ExprLang
