import ExprLang.Proofs.Lexing.Basic
import Mathlib.Data.List.TakeWhile

namespace ExprLang.Lexing

variable {c : Char} {cs text rest : List Char} {k : Kind} {w : List Char}

lemma lookup_symbols (c : Char) : symbols.lookup c = Lexeme.ofSymbol? c := by
  rw [Lexeme.ofSymbol?.eq_def]
  split
  case h_18 =>
    rw [List.lookup_eq_none_iff]
    simp only [symbols, List.forall_mem_cons, bne_iff_ne]
    and_intros <;> first | assumption | nofun
  all_goals rfl

lemma longest_run {p : Char → Bool} (hw : Word k (c :: cs.takeWhile p))
    (hk : ∀ v, Word k (c :: v) → ∀ d ∈ v, p d) :
    Piece.Longest ⟨k, c :: cs.takeWhile p⟩ (c :: cs) := by
  refine ⟨hw, ?_, fun k' v hv hi => ?_⟩
  · exact List.cons_prefix_cons.2 ⟨rfl, List.takeWhile_prefix p⟩
  · obtain ⟨d, v, rfl⟩ := hv.exists_cons
    obtain ⟨rfl, t, rfl⟩ := List.cons_prefix_cons.1 hi
    obtain rfl : k = k' := hw.kind_unique hv
    rw [List.takeWhile_append_of_pos (hk v hv)]
    simp

lemma longest_symbol {l : Lexeme} (h : (c, l) ∈ symbols) (cs : List Char) :
    Piece.Longest ⟨.symbol, [c]⟩ (c :: cs) := by
  have hw : Word .symbol [c] := .symbol h
  refine ⟨hw, ⟨cs, rfl⟩, fun k v hv hi => ?_⟩
  obtain ⟨d, v, rfl⟩ := hv.exists_cons
  obtain ⟨rfl, -⟩ := List.cons_prefix_cons.1 hi
  obtain rfl : .symbol = k := hw.kind_unique hv
  cases hv
  exact Nat.le_refl _

lemma span_quote (hw : '\'' ∉ w) (rest : List Char) :
    (w ++ '\'' :: rest).takeWhile (· != '\'') = w ∧
      (w ++ '\'' :: rest).dropWhile (· != '\'') = '\'' :: rest := by
  have hp : ∀ d ∈ w, (d != '\'') = true := fun d hd => bne_iff_ne.2 (ne_of_mem_of_not_mem hd hw)
  rw [List.takeWhile_append_of_pos hp, List.dropWhile_append_of_pos hp]
  simp

lemma longest_comment (hw : '\'' ∉ w) (rest : List Char) :
    Piece.Longest ⟨.comment, '\'' :: (w ++ ['\''])⟩ ('\'' :: (w ++ '\'' :: rest)) := by
  have hc : Word .comment ('\'' :: (w ++ ['\''])) := .comment fun d hd => ne_of_mem_of_not_mem hd hw
  refine ⟨hc, ⟨rest, by simp⟩, fun k v hv hi => ?_⟩
  obtain ⟨d, v, rfl⟩ := hv.exists_cons
  obtain ⟨rfl, t, ht⟩ := List.cons_prefix_cons.1 hi
  obtain rfl : .comment = k := hc.kind_unique hv
  cases hv with
  | @comment u hu =>
    have hu : '\'' ∉ u := fun hq => hu _ hq rfl
    rw [List.append_assoc, List.singleton_append] at ht
    -- The first quote of the text closes both.
    have hs : u = w := by
      rw [← (span_quote hu t).1, ht, (span_quote hw rest).1]
    rw [hs]

inductive Agrees (text : List Char) : Scan → Prop
  | piece {p : Piece} {l rest} : p.Longest text → p.Fits → p.word ++ rest = text →
      (p.lexeme? = if l.isTrivia then none else some l) → Agrees text ⟨.ok l, p.word, rest⟩
  | failure {cause chars rest} : Fails text cause → Agrees text ⟨.error cause, chars, rest⟩

lemma agrees_symbol {l : Lexeme} (hl : Lexeme.ofSymbol? c = some l) (cs : List Char) :
    Agrees (c :: cs) ⟨.ok l, [c], cs⟩ := by
  rw [← lookup_symbols] at hl
  obtain ⟨l₁, l₂, hs, -⟩ := List.lookup_eq_some_iff.1 hl
  have hm : (c, l) ∈ symbols := by simp [hs]
  have ht : ∀ s ∈ symbols, s.2.isTrivia = false := by decide
  refine .piece (longest_symbol hm cs) nofun rfl ?_
  rw [ht _ hm]
  exact hl

lemma agrees_comment (cs : List Char) : Agrees ('\'' :: cs) (Scan.comment cs) := by
  by_cases hq : '\'' ∈ cs
  · obtain ⟨w, rest, rfl, hw⟩ := List.eq_append_cons_of_mem hq
    rw [Scan.comment, (span_quote hw rest).1, (span_quote hw rest).2]
    exact .piece (longest_comment hw rest) nofun (by simp) rfl
  · have hd : cs.dropWhile (· != '\'') = [] := by
      rw [List.dropWhile_eq_nil_iff]
      exact fun d hd => bne_iff_ne.2 (ne_of_mem_of_not_mem hd hq)
    rw [Scan.comment, hd]
    exact .failure (.unterminated hq)

lemma agrees_run {p : Char → Bool} {found : List Char → Except LexCause Lexeme} {l : Lexeme}
    (hp : Piece.Longest ⟨k, c :: cs.takeWhile p⟩ (c :: cs)) (hf : Piece.Fits ⟨k, c :: cs.takeWhile p⟩)
    (hl : found (c :: cs.takeWhile p) = .ok l)
    (hi : Piece.lexeme? ⟨k, c :: cs.takeWhile p⟩ = if l.isTrivia then none else some l) :
    Agrees (c :: cs) (Scan.run p c cs found) := by
  rw [Scan.run, hl]
  refine .piece hp hf ?_ hi
  rw [List.cons_append, List.takeWhile_append_dropWhile]

lemma of_mem_run {p : Char → Bool} (hc : p c) (cs : List Char) : ∀ d ∈ c :: cs.takeWhile p, p d :=
  List.forall_mem_cons.2 ⟨hc, fun _ hd => List.mem_takeWhile_imp hd⟩

lemma agrees_blank (hc : Text.isBlank c) (cs : List Char) :
    Agrees (c :: cs) (Scan.run Text.isBlank c cs fun _ => .ok .blank) := by
  have hw : Word .blank (c :: cs.takeWhile Text.isBlank) := .blank (of_mem_run hc cs)
  have hk : ∀ v, Word .blank (c :: v) → ∀ d ∈ v, Text.isBlank d := by
    intro v hv d hd
    cases hv with
    | blank h => exact h d (List.mem_cons_of_mem c hd)
  exact agrees_run (longest_run hw hk) nofun rfl rfl

lemma agrees_identifier (hc : startsIdentifier c) (cs : List Char) :
    Agrees (c :: cs)
      (Scan.run Text.isLetter c cs fun cs => .ok (.identifier (String.ofList cs))) := by
  have hw : Word .identifier (c :: cs.takeWhile Text.isLetter) :=
    .identifier (startsIdentifier_iff.1 hc) fun d hd => List.mem_takeWhile_imp hd
  have hk : ∀ v, Word .identifier (c :: v) → ∀ d ∈ v, Text.isLetter d := by
    intro v hv
    cases hv with
    | identifier _ h => exact h
  exact agrees_run (longest_run hw hk) nofun rfl rfl

lemma fits_iff : Piece.Fits ⟨.number, w⟩ ↔ Text.readDigits w < Int64.size / 2 := by
  have hm : Int64.maxValue.toInt = (Int64.size / 2 : Nat) - 1 := by decide
  rw [Piece.Fits, hm]
  constructor
  · intro h
    have hr : (Text.readDigits w : Int) ≤ (Int64.size / 2 : Nat) - 1 := h rfl
    omega
  · intro h _
    change (Text.readDigits w : Int) ≤ (Int64.size / 2 : Nat) - 1
    omega

lemma agrees_number (hc : c.isDigit) (cs : List Char) :
    Agrees (c :: cs) (Scan.run Char.isDigit c cs Scan.integer) := by
  have hw : Word .number (c :: cs.takeWhile Char.isDigit) := .number (of_mem_run hc cs)
  have hk : ∀ v, Word .number (c :: v) → ∀ d ∈ v, d.isDigit := by
    intro v hv d hd
    cases hv with
    | number h => exact h d (List.mem_cons_of_mem c hd)
  have hp := longest_run hw hk
  have hs : 0 < Int64.size / 2 := by decide
  have hr := Text.readBelow?_eq (Int64.size / 2) (c :: cs.takeWhile Char.isDigit) hs
  by_cases hf : Piece.Fits ⟨.number, c :: cs.takeWhile Char.isDigit⟩
  · rw [if_pos (fits_iff.1 hf)] at hr
    have hl : Scan.integer (c :: cs.takeWhile Char.isDigit) =
        .ok (.integer (Int64.ofNat (Text.readDigits (c :: cs.takeWhile Char.isDigit)))) := by
      rw [Scan.integer, hr]
    exact agrees_run hp hf hl rfl
  · rw [if_neg (fun h => hf (fits_iff.2 h))] at hr
    rw [Scan.run, Scan.integer, hr]
    exact .failure (.tooLarge hp hf)

lemma scan_agrees (c : Char) (cs : List Char) : Agrees (c :: cs) (scan c cs) := by
  rw [scan]
  split
  · exact agrees_symbol ‹_› cs
  · rename_i hs
    split
    · rename_i hq
      rw [hq]
      exact agrees_comment cs
    · rename_i hq
      split
      · exact agrees_blank ‹_› cs
      · rename_i hb
        split
        · exact agrees_number ‹_› cs
        · rename_i hd
          split
          · exact agrees_identifier ‹_› cs
          · rename_i hi
            refine .failure (.unexpected fun k w hw => ?_)
            have hk := hw.of?_eq
            simp [Kind.of?, lookup_symbols, hs, hq, hb, hd, hi] at hk

lemma scan_of_longest {p : Piece} {text : List Char} (hp : p.Longest (c :: cs)) (hf : p.Fits)
    (ht : p.word ++ text = c :: cs) :
    ∃ l, scan c cs = ⟨.ok l, p.word, text⟩ ∧ p.lexeme? = if l.isTrivia then none else some l := by
  have hs := scan_agrees c cs
  generalize scan c cs = s at hs
  cases hs with
  | piece hq _ hr hl =>
    cases hq.unique hp
    rw [← ht] at hr
    rw [List.append_cancel_left hr]
    exact ⟨_, rfl, hl⟩
  | failure hc => exact ((hc.of_longest hp).1 hf).elim

lemma found_of_fails {cause : LexCause} (h : Fails (c :: cs) cause) :
    (scan c cs).found = .error cause := by
  have hs := scan_agrees c cs
  generalize scan c cs = s at hs
  cases hs with
  | piece hp hf _ _ => exact ((h.of_longest hp).1 hf).elim
  | failure hc => rw [hc.unique h]

lemma tokensFrom_munches {ps : List Piece} (h : Munches text ps rest) (hf : ∀ p ∈ ps, p.Fits)
    (line : Nat) (found : List Token) :
    tokensFrom line found text =
      tokensFrom (line + newlines ps) ((tokens line ps).reverse ++ found) rest := by
  induction h generalizing line found with
  | stop => rfl
  | @take p text ps rest hp _ ih =>
    obtain ⟨hpf, hf⟩ := List.forall_mem_cons.1 hf
    obtain ⟨c, w, hw⟩ := hp.isWord.exists_cons
    have hc : p.word ++ text = c :: (w ++ text) := by
      rw [hw]
      rfl
    rw [hc] at hp ⊢
    obtain ⟨l, hs, hl⟩ := scan_of_longest hp hpf hc
    have hn : newlines (p :: ps) = p.word.count '\n' + newlines ps := by simp [newlines]
    rw [tokensFrom, hs]
    dsimp only
    rw [ih hf, hn, Nat.add_assoc, tokens, hl]
    cases l.isTrivia <;> simp

lemma exists_munches (text : List Char) :
    ∃ ps rest, Munches text ps rest ∧ (∀ p ∈ ps, p.Fits) ∧
      (rest = [] ∨ ∃ cause, Fails rest cause) := by
  induction hn : text.length using Nat.strongRecOn generalizing text with
  | ind n ih =>
    cases text with
    | nil => exact ⟨[], [], .stop, nofun, .inl rfl⟩
    | cons c cs =>
      have hs := scan_agrees c cs
      generalize scan c cs = s at hs
      cases hs with
      | failure hc => exact ⟨[], c :: cs, .stop, nofun, .inr ⟨_, hc⟩⟩
      | @piece p l text hp hf ht _ =>
        obtain ⟨d, w, hw⟩ := hp.isWord.exists_cons
        have hlt : text.length < n := by
          rw [← hn, ← ht, hw, List.length_append, List.length_cons]
          omega
        obtain ⟨ps, rest, hm, hps, hr⟩ := ih _ hlt text rfl
        rw [← ht] at hp ⊢
        exact ⟨p :: ps, rest, .take hp hm, List.forall_mem_cons.2 ⟨hf, hps⟩, hr⟩

theorem tokenize_eq_munch (source : String) :
    (∀ ts, tokenize source = .ok ts ↔
      ∃ ps, Munches source.toList ps [] ∧ (∀ p ∈ ps, p.Fits) ∧
        ts = tokens 1 ps ++ [⟨.endOfInput, 1 + newlines ps⟩]) ∧
    (∀ cause line, tokenize source = .error ⟨cause, line⟩ ↔
      ∃ ps rest, Munches source.toList ps rest ∧ (∀ p ∈ ps, p.Fits) ∧ Fails rest cause ∧
        line = 1 + newlines ps) ∧
    ∀ ps rest, Munches source.toList ps rest → ps.flatMap (·.word) ++ rest = source.toList := by
  have done {ps : List Piece} (h : Munches source.toList ps []) (hf : ∀ p ∈ ps, p.Fits) :
      tokenize source = .ok (tokens 1 ps ++ [⟨.endOfInput, 1 + newlines ps⟩]) := by
    rw [tokenize, tokensFrom_munches h hf, tokensFrom]
    simp
  have fail {ps : List Piece} {rest : List Char} {cause : LexCause}
      (h : Munches source.toList ps rest) (hf : ∀ p ∈ ps, p.Fits) (hc : Fails rest cause) :
      tokenize source = .error ⟨cause, 1 + newlines ps⟩ := by
    rw [tokenize, tokensFrom_munches h hf]
    obtain ⟨c, cs, rfl⟩ := hc.exists_cons
    rw [tokensFrom, found_of_fails hc]
  obtain ⟨ps, rest, hm, hf, hr⟩ := exists_munches source.toList
  refine ⟨fun ts => ⟨fun h => ?_, ?_⟩, fun cause line => ⟨fun h => ?_, ?_⟩, fun ps rest => Munches.text⟩
  · rcases hr with rfl | ⟨cause, hc⟩
    · rw [done hm hf] at h
      exact ⟨ps, hm, hf, (Except.ok.inj h).symm⟩
    · rw [fail hm hf hc] at h
      cases h
  · rintro ⟨ps, hm, hf, rfl⟩
    exact done hm hf
  · rcases hr with rfl | ⟨cause', hc⟩
    · rw [done hm hf] at h
      cases h
    · rw [fail hm hf hc] at h
      cases h
      exact ⟨ps, rest, hm, hf, hc, rfl⟩
  · rintro ⟨ps, rest, hm, hf, hc, rfl⟩
    exact fail hm hf hc

end ExprLang.Lexing
