import ExprLang.Proofs.Walk.Agreement
import Mathlib.Algebra.BigOperators.Intervals

namespace ExprLang.Walk

open ExprLang.Parser

variable {ts : List Token} {c i m n f : Nat} {d : Int}

def turn : Lexeme → Int
  | .leftParen => 1
  | .rightParen => -1
  | _ => 0

def balance (ts : List Token) (c i : Nat) : Int := ∑ j ∈ Finset.Ico c i, turn (peek ts j).lexeme

/-- The first place after `c` where all parentheses opened from `c` on are closed. -/
structure ClosedAt (ts : List Token) (c m : Nat) : Prop where
  after : c < m
  within : m < finish ts c
  closed : balance ts c (m + 1) = 0
  first : ∀ i, c ≤ i → i < m → balance ts c (i + 1) ≠ 0

/-- The look ahead from place `c` has come to place `i` and counts `d` open parentheses. -/
inductive Counting (ts : List Token) (c : Nat) : Nat → Int → Prop
  | start {x : String} : (peek ts c).lexeme = .identifier x → (peek ts (c + 1)).lexeme = .leftParen →
      Counting ts c (c + 2) 1
  | next {i : Nat} {d : Int} : Counting ts c i d → d ≠ 0 → (peek ts i).lexeme ≠ .endOfInput →
      Counting ts c (i + 1) (d + turn (peek ts i).lexeme)

lemma neg_one_le_turn (l : Lexeme) : -1 ≤ turn l := by
  cases l <;> simp [turn]

lemma balance_succ (h : c ≤ i) : balance ts c (i + 1) = balance ts c i + turn (peek ts i).lexeme :=
  Finset.sum_Ico_succ_top h _

lemma balance_one (h : (peek ts c).lexeme = .leftParen) : balance ts c (c + 1) = 1 := by
  rw [balance_succ (Nat.le_refl c), h, balance, Finset.Ico_self, Finset.sum_empty]
  rfl

lemma Counting.le (h : Counting ts c i d) : c + 2 ≤ i := by
  induction h with
  | start => exact Nat.le_refl _
  | next _ _ _ ih => exact Nat.le_succ_of_le ih

lemma Counting.nonneg (h : Counting ts c i d) : 0 ≤ d := by
  induction h with
  | start => exact Int.zero_le_ofNat 1
  | @next i d _ hd _ ih =>
    have ht := neg_one_le_turn (peek ts i).lexeme
    omega

lemma Counting.eq_balance (h : Counting ts c i d) : d = balance ts (c + 1) i := by
  induction h with
  | start _ hp => exact (balance_one hp).symm
  | next h _ _ ih => rw [balance_succ (Nat.le_of_succ_le h.le), ← ih]

lemma Counting.finish_eq (h : Counting ts c i d) : finish ts i = finish ts c := by
  induction h with
  | start hx hp => rw [finish_succ (by simp [hp]), finish_succ (by simp [hx])]
  | next _ _ he ih => rw [finish_succ he, ih]

lemma Counting.le_finish (h : Counting ts c i d) : i ≤ finish ts c :=
  h.finish_eq ▸ Nat.le_add_right _ _

lemma Counting.balance_ne (h : Counting ts c i d) {j : Nat} (hc : c + 1 ≤ j) (hj : j + 1 < i) :
    balance ts (c + 1) (j + 1) ≠ 0 := by
  induction h with
  | start => omega
  | @next i d h hd _ ih =>
    rcases Nat.lt_or_eq_of_le (Nat.le_of_lt_succ hj) with hj | rfl
    · exact ih hj
    · rwa [← h.eq_balance]

lemma toNat_turn_rightParen (k : Nat) : ((k : Int) + 1 + turn .rightParen).toNat = k := by
  rw [turn, Int.add_neg_cancel_right, Int.toNat_natCast]

lemma closesBeforeEquals_cons (hd : 0 < d) (t : Token) (us : List Token) :
    closesBeforeEquals d.toNat (t :: us) = closesBeforeEquals (d + turn t.lexeme).toNat us := by
  obtain ⟨k, rfl⟩ := Int.eq_succ_of_zero_lt hd
  obtain ⟨l, line⟩ := t
  cases l with
  | rightParen => exact congrArg (closesBeforeEquals · us) (toNat_turn_rightParen k).symm
  | _ => rfl

lemma startsDefinition_cons {t u : Token} {x : String} (ht : t.lexeme = .identifier x)
    (hu : u.lexeme = .leftParen) (us : List Token) :
    Parser.startsDefinition (t :: u :: us) = closesBeforeEquals 1 us := by
  obtain ⟨l, line⟩ := t
  obtain ⟨m, line'⟩ := u
  cases ht
  cases hu
  rfl

lemma Counting.startsDefinition_eq (h : Counting ts c i d) :
    Parser.startsDefinition (body (ts.drop c)) = closesBeforeEquals d.toNat (body (ts.drop i)) := by
  induction h with
  | start hx hp =>
    rw [body_drop_of_ne (by simp [hx]), body_drop_of_ne (by simp [hp]), startsDefinition_cons hx hp]
    rfl
  | next h hd he ih => rw [ih, body_drop_of_ne he, closesBeforeEquals_cons (lt_of_le_of_ne h.nonneg hd.symm)]

lemma Counting.inside (h : Counting ts c i d) : (peek ts c).lexeme ≠ .endOfInput := by
  induction h with
  | start hx => simp [hx]
  | next _ _ _ ih => exact ih

lemma Counting.exists_last (h : Counting ts c i d) :
    ∃ k e, Counting ts c k e ∧ (e = 0 ∨ (peek ts k).lexeme = .endOfInput) := by
  induction hb : body (ts.drop i) generalizing i d with
  | nil =>
    refine ⟨i, d, h, .inr ?_⟩
    by_contra he
    rw [body_drop_of_ne he] at hb
    cases hb
  | cons t us ih =>
    -- One token is counted, and one less is left.
    obtain ⟨rfl, he, hu⟩ := body_drop_cons hb
    by_cases hd : d = 0
    · exact ⟨i, d, h, .inl hd⟩
    · exact ih (h.next hd he) hu.symm

lemma ClosedAt.counting {x : String} (h : ClosedAt ts (c + 1) m) (hx : (peek ts c).lexeme = .identifier x)
    (hp : (peek ts (c + 1)).lexeme = .leftParen) (hc : c + 2 ≤ i) (hi : i ≤ m + 1) :
    Counting ts c i (balance ts (c + 1) i) := by
  induction i, hc using Nat.le_induction with
  | base =>
    rw [balance_one hp]
    exact .start hx hp
  | succ i hc ih =>
    rw [balance_succ (Nat.le_of_succ_le hc)]
    obtain ⟨j, rfl⟩ : ∃ j, i = j + 1 := ⟨i - 1, by omega⟩
    refine (ih (Nat.le_of_succ_le hi)).next (h.first j (by omega) (by omega)) ?_
    exact peek_of_lt_finish (by omega) (Nat.lt_of_le_of_lt (Nat.le_of_succ_le_succ hi) h.within)

lemma start_of_startsDefinition (h : Parser.startsDefinition (body (ts.drop c)) = true) :
    (∃ x, (peek ts c).lexeme = .identifier x) ∧ (peek ts (c + 1)).lexeme = .leftParen := by
  rw [Parser.startsDefinition.eq_def] at h
  split at h
  · rename_i x line line' us hb
    obtain ⟨hx, -, hp⟩ := body_drop_cons hb
    obtain ⟨hp, -, -⟩ := body_drop_cons hp.symm
    exact ⟨⟨x, by rw [← hx]⟩, by rw [← hp]⟩
  · cases h

lemma Counting.closedAt (h : Counting ts c i 0) (hp : (peek ts (c + 1)).lexeme = .leftParen) :
    ∃ m, i = m + 1 ∧ ClosedAt ts (c + 1) m := by
  have hc := h.le
  have hz := h.eq_balance
  have hne : i ≠ c + 2 := by
    rintro rfl
    rw [balance_one hp] at hz
    cases hz
  -- The count goes to the place after the parenthesis that closes.
  obtain ⟨m, rfl⟩ : ∃ m, i = m + 1 := ⟨i - 1, by omega⟩
  refine ⟨m, rfl, ⟨by omega, ?_, hz.symm, fun j hj hm => h.balance_ne hj (Nat.succ_lt_succ hm)⟩⟩
  have hf := h.le_finish
  rwa [← finish_succ h.inside] at hf

lemma startsDefinition_iff (ts : List Token) (c : Nat) :
    Parser.startsDefinition (body (ts.drop c)) = true ↔
      (∃ x, (peek ts c).lexeme = .identifier x) ∧ (peek ts (c + 1)).lexeme = .leftParen ∧
        ∃ m, ClosedAt ts (c + 1) m ∧ (peek ts (m + 1)).lexeme = .equals := by
  constructor
  · intro h
    obtain ⟨⟨x, hx⟩, hp⟩ := start_of_startsDefinition h
    obtain ⟨k, e, hk, hl⟩ := (Counting.start hx hp).exists_last
    rw [hk.startsDefinition_eq] at h
    have he : (peek ts k).lexeme ≠ .endOfInput := by
      intro hl
      rw [body_drop_of_end hl] at h
      cases he : e.toNat <;> rw [he] at h <;> cases h
    obtain rfl : e = 0 := hl.resolve_right he
    rw [body_drop_of_ne he] at h
    obtain ⟨m, rfl, hm⟩ := hk.closedAt hp
    exact ⟨⟨x, hx⟩, hp, m, hm, eq_of_beq h⟩
  · rintro ⟨⟨x, hx⟩, hp, m, hm, he⟩
    have hc : Counting ts c (m + 1) 0 := by
      have hm₂ : c + 2 ≤ m + 1 := Nat.le_succ_of_le hm.after
      exact hm.closed ▸ hm.counting hx hp hm₂ (Nat.le_refl _)
    rw [hc.startsDefinition_eq, body_drop_of_ne (by simp [he])]
    exact beq_iff_eq.2 he

lemma read_closing_next (hd : 0 < d) (h : (peek ts i).lexeme ≠ .endOfInput) (n f : Nat) :
    read ts (n + 1) (.closing d.toNat) ⟨i, f⟩ =
      read ts n (.closing (d + turn (peek ts i).lexeme).toNat) ⟨i + 1, max f (i + 1)⟩ := by
  obtain ⟨k, rfl⟩ := Int.eq_succ_of_zero_lt hd
  change closing ts (read ts n) (k + 1) ⟨i, f⟩ = _
  rw [closing, bind_of_ok (current_eq _ rfl), bind_of_ok (advance_eq h f)]
  cases hl : (peek ts i).lexeme with
  | rightParen => exact congrArg (fun k => read ts n (.closing k) _) (toNat_turn_rightParen k).symm
  | endOfInput => exact (h hl).elim
  | _ => rfl

lemma read_closing_last {k : Nat} (h : k = 0 ∨ (peek ts i).lexeme = .endOfInput) (n f : Nat) :
    read ts (n + 1) (.closing k) ⟨i, f⟩ = some (.ok (closesBeforeEquals k (body (ts.drop i))), ⟨i, f⟩) := by
  change closing ts (read ts n) k ⟨i, f⟩ = _
  cases k with
  | zero =>
    rw [closing, bind_of_ok (current_eq _ rfl)]
    rcases body_drop_cases ts i with ⟨he, hb⟩ | ⟨-, hb⟩
    · rw [hb, he]
      rfl
    · rw [hb]
      rfl
  | succ k =>
    have he := h.resolve_left (Nat.succ_ne_zero k)
    have ha : advance ts ⟨i, f⟩ = some (.ok (), ⟨i, f⟩) := by
      rw [advance, bind_of_ok (current_eq _ rfl), if_pos he]
      rfl
    rw [closing, bind_of_ok (current_eq _ rfl), bind_of_ok ha, body_drop_of_end he, he]
    rfl

lemma probe_start {x : String} (hx : (peek ts c).lexeme = .identifier x)
    (hp : (peek ts (c + 1)).lexeme = .leftParen) (n f : Nat) :
    probe ts (read ts n) ⟨c, f⟩ = read ts n (.closing 1) ⟨c + 2, max f (c + 2)⟩ := by
  rw [probe, bind_of_ok (current_eq _ rfl), hx]
  dsimp only
  rw [bind_of_ok (advance_eq (by simp [hx]) f), bind_of_ok (eat_eq hp (by decide) _), if_pos rfl]
  congr 2
  omega

lemma Counting.probe_eq (h : Counting ts c i d) (n f : Nat) :
    probe ts (read ts (n + (i - (c + 2)))) ⟨c, f⟩ = read ts n (.closing d.toNat) ⟨i, max f i⟩ := by
  induction h generalizing n with
  | start hx hp =>
    rw [Nat.sub_self, Nat.add_zero]
    exact probe_start hx hp n f
  | @next i d h hd he ih =>
    have hn : n + (i + 1 - (c + 2)) = n + 1 + (i - (c + 2)) := by
      have := h.le
      omega
    have hf : max (max f i) (i + 1) = max f (i + 1) := by omega
    rw [hn, ih, read_closing_next (lt_of_le_of_ne h.nonneg hd.symm) he, hf]

lemma Counting.probe_last (h : Counting ts c i d) (hl : d = 0 ∨ (peek ts i).lexeme = .endOfInput) (f : Nat)
    (hn : (body (ts.drop c)).length ≤ n) :
    probe ts (read ts n) ⟨c, f⟩ =
      some (.ok (Parser.startsDefinition (body (ts.drop c))), ⟨i, max f i⟩) := by
  have hc := h.le
  have hi := h.le_finish
  rw [finish] at hi
  obtain ⟨k, rfl⟩ : ∃ k, n = k + 1 + (i - (c + 2)) := ⟨n - (i - (c + 2)) - 1, by omega⟩
  rw [h.probe_eq, h.startsDefinition_eq]
  refine read_closing_last (hl.imp_left fun hd => ?_) _ _
  rw [hd]
  rfl

lemma startsDefinition_of_probe {inner : ⦃α : Type⦄ → Reading α → Walk α} {b : Bool} {k g : Nat}
    (h : probe ts inner ⟨c, f⟩ = some (.ok b, ⟨k, g⟩)) :
    startsDefinition ts inner ⟨c, f⟩ = some (.ok b, ⟨c, max g c⟩) := by
  have hg : (get : Walk Cursor) ⟨c, f⟩ = some (.ok ⟨c, f⟩, ⟨c, f⟩) := rfl
  rw [startsDefinition, bind_of_ok hg, bind_of_ok h]
  rfl

lemma probe_ends (ts : List Token) (c : Nat) :
    ∃ g, c ≤ g ∧ g ≤ finish ts c ∧ ∀ f n, (body (ts.drop c)).length ≤ n → ∃ k h,
      probe ts (read ts n) ⟨c, f⟩ = some (.ok (Parser.startsDefinition (body (ts.drop c))), ⟨k, h⟩) ∧
        max h c = max f g := by
  have no (hs : ¬ ((∃ x, (peek ts c).lexeme = .identifier x) ∧ (peek ts (c + 1)).lexeme = .leftParen)) :
      Parser.startsDefinition (body (ts.drop c)) = false :=
    Bool.eq_false_iff.2 fun h => hs (start_of_startsDefinition h)
  by_cases hx : ∃ x, (peek ts c).lexeme = .identifier x
  · obtain ⟨x, hx⟩ := hx
    by_cases hp : (peek ts (c + 1)).lexeme = .leftParen
    · obtain ⟨k, e, hk, hl⟩ := (Counting.start hx hp).exists_last
      have hle := hk.le
      exact ⟨k, by omega, hk.le_finish, fun f n hn => ⟨k, max f k, hk.probe_last hl f hn, by omega⟩⟩
    · have hs : finish ts (c + 1) = finish ts c := finish_succ (by simp [hx])
      refine ⟨c + 1, Nat.le_succ c, hs ▸ Nat.le_add_right _ _, fun f n _ => ⟨c + 1, max f (c + 1), ?_, by omega⟩⟩
      rw [no fun hs => hp hs.2, probe, bind_of_ok (current_eq _ rfl), hx]
      dsimp only
      rw [bind_of_ok (advance_eq (by simp [hx]) f), bind_of_ok (eat_of_ne hp _)]
      rfl
  · refine ⟨c, Nat.le_refl c, Nat.le_add_right _ _, fun f n _ => ⟨c, f, ?_, rfl⟩⟩
    rw [no fun hs => hx hs.1, probe, bind_of_ok (current_eq _ rfl)]
    dsimp only
    cases hl : (peek ts c).lexeme with
    | identifier x => exact (hx ⟨x, hl⟩).elim
    | _ => rfl

lemma startsDefinition_ends (ts : List Token) (c : Nat) :
    ∃ g, c ≤ g ∧ g ≤ finish ts c ∧ ∀ f n, (body (ts.drop c)).length ≤ n →
      startsDefinition ts (read ts n) ⟨c, f⟩ =
        some (.ok (Parser.startsDefinition (body (ts.drop c))), ⟨c, max f g⟩) := by
  obtain ⟨g, hc, hg, h⟩ := probe_ends ts c
  refine ⟨g, hc, hg, fun f n hn => ?_⟩
  obtain ⟨k, j, hp, hj⟩ := h f n hn
  rw [startsDefinition_of_probe hp, hj]

theorem lookAhead_pattern (ts : List Token) (c : Nat) :
    (Parser.startsDefinition (body (ts.drop c)) = true ↔
      (∃ x, (peek ts c).lexeme = .identifier x) ∧ (peek ts (c + 1)).lexeme = .leftParen ∧
        ∃ m, ClosedAt ts (c + 1) m ∧ (peek ts (m + 1)).lexeme = .equals) ∧
    (∃ g, c ≤ g ∧ g ≤ finish ts c ∧ ∀ f n, (body (ts.drop c)).length ≤ n →
      startsDefinition ts (read ts n) ⟨c, f⟩ =
        some (.ok (Parser.startsDefinition (body (ts.drop c))), ⟨c, max f g⟩)) ∧
    ∀ i d, Counting ts c i d →
      0 ≤ d ∧ d = balance ts (c + 1) i ∧ i ≤ finish ts c ∧
        Parser.startsDefinition (body (ts.drop c)) = closesBeforeEquals d.toNat (body (ts.drop i)) ∧
        ∀ f n, probe ts (read ts (n + (i - (c + 2)))) ⟨c, f⟩ = read ts n (.closing d.toNat) ⟨i, max f i⟩ := by
  refine ⟨startsDefinition_iff ts c, startsDefinition_ends ts c, fun i d h => ?_⟩
  exact ⟨h.nonneg, h.eq_balance, h.le_finish, h.startsDefinition_eq, fun f n => h.probe_eq n f⟩

def unevenTokens : List Token :=
  [⟨.integer 1, 1⟩, ⟨.identifier "f", 1⟩, ⟨.leftParen, 1⟩, ⟨.identifier "x", 1⟩, ⟨.comma, 1⟩, ⟨.leftBracket, 1⟩,
    ⟨.leftParen, 1⟩, ⟨.identifier "y", 1⟩, ⟨.equals, 1⟩, ⟨.rightParen, 1⟩, ⟨.equals, 1⟩, ⟨.integer 2, 1⟩,
    ⟨.rightParen, 1⟩, ⟨.equals, 1⟩]

theorem lookAhead_pattern_uneven :
    ClosedAt unevenTokens 2 12 ∧ Parser.startsDefinition (body (unevenTokens.drop 1)) = true ∧
      (∃ g, 1 ≤ g ∧ g ≤ 14 ∧ ∀ f n, 13 ≤ n →
        startsDefinition unevenTokens (read unevenTokens n) ⟨1, f⟩ = some (.ok true, ⟨1, max f g⟩)) ∧
      Counting unevenTokens 1 8 2 ∧ 2 = balance unevenTokens 2 8 ∧
        closesBeforeEquals 2 (body (unevenTokens.drop 8)) = true := by
  obtain ⟨hp, hr, hc⟩ := lookAhead_pattern unevenTokens 1
  have hf : ∀ i < 12, 2 ≤ i → balance unevenTokens 2 (i + 1) ≠ 0 := by decide
  have hm : ClosedAt unevenTokens 2 12 := ⟨by decide, by decide, by decide, fun i h₂ h₁₂ => hf i h₁₂ h₂⟩
  have hs := hp.2 ⟨⟨"f", rfl⟩, rfl, 12, hm, rfl⟩
  have h₈ : Counting unevenTokens 1 8 2 := hm.counting (x := "f") rfl rfl (by decide) (by decide)
  obtain ⟨-, hb, -, he, -⟩ := hc 8 2 h₈
  rw [hs] at hr he
  exact ⟨hm, hs, hr, h₈, hb, he.symm⟩

end ExprLang.Walk
