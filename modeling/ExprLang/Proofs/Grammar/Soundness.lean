import ExprLang.Proofs.Grammar.Basic

namespace ExprLang.Grammar

open ExprLang.Parser

variable {last N n : Nat} {ts rest : List Token} {e : Expr} {es : List Expr}

def SoundBelow (last N : Nat) : Prop :=
  ∀ ts e rest, ts.length < N → readExpression last ts = .ok (e, rest) →
    ∃ w, ts = w ++ rest ∧ Binary 6 w e ∧ Stops 6 rest

lemma items_sound (ih : SoundBelow last N) {close : Lexeme} {x : Expectation} (hn : ts.length < N)
    (h : readItems last close x ts = .ok (es, rest)) :
    ∃ w line, ts = w ++ ⟨close, line⟩ :: rest ∧ Sequence w es := by
  induction hk : ts.length using Nat.strongRecOn generalizing ts es with
  | ind k ihk =>
    rw [readItems_eq, bind_eq_ok_iff] at h
    obtain ⟨⟨e, us⟩, he, h⟩ := h
    obtain ⟨w, rfl, hw, -⟩ := ih _ _ _ hn he
    dsimp only at h
    split at h
    · rename_i hc
      obtain ⟨line, us, rfl⟩ := front_eq_some_iff.1 hc
      rw [bind_eq_ok_iff] at h
      obtain ⟨⟨es, us'⟩, hes, h⟩ := h
      cases h
      rw [List.tail_cons] at hes
      simp only [List.length_append, List.length_cons] at hn hk
      have hlt : us.length < k := by omega
      have hN : us.length < N := by omega
      obtain ⟨v, close, rfl, hv⟩ := ihk _ hlt hN hes rfl
      have hs : Sequence (w ++ ⟨.comma, line⟩ :: v) (e :: es) := .more hw hv
      exact ⟨_, close, by simp, hs⟩
    · rw [bind_eq_ok_iff] at h
      obtain ⟨⟨_, us'⟩, ht, h⟩ := h
      cases h
      obtain ⟨line, rfl⟩ := take_eq_ok_iff.1 ht
      exact ⟨w, line, rfl, .one hw⟩

lemma list_sound (ih : SoundBelow last N) {close : Lexeme} {x : Expectation} (hn : ts.length < N)
    (h : readList last close x ts = .ok (es, rest)) :
    ∃ w line, ts = w ++ ⟨close, line⟩ :: rest ∧ Arguments w es := by
  rw [readList] at h
  split at h
  · rename_i hc
    obtain ⟨line, us, rfl⟩ := front_eq_some_iff.1 hc
    cases h
    exact ⟨[], line, rfl, .empty⟩
  · obtain ⟨w, line, hw, hs⟩ := items_sound ih hn h
    exact ⟨w, line, hw, .listed hs⟩

lemma primary_sound (ih : SoundBelow last N) (hn : ts.length ≤ N)
    (h : readPrimary last ts = .ok (e, rest)) : ∃ w, ts = w ++ rest ∧ Primary w e := by
  rw [readPrimary.eq_def] at h
  split at h
  · cases h
    exact ⟨_, rfl, .integer⟩
  · cases h
    exact ⟨_, rfl, .boolean⟩
  · cases h
    exact ⟨_, rfl, .identifier⟩
  · rename_i line us
    rw [bind_eq_ok_iff] at h
    obtain ⟨⟨e, us'⟩, he, h⟩ := h
    rw [bind_eq_ok_iff] at h
    obtain ⟨⟨_, us''⟩, ht, h⟩ := h
    cases h
    obtain ⟨w, rfl, hw, -⟩ := ih _ _ _ hn he
    obtain ⟨close, rfl⟩ := take_eq_ok_iff.1 ht
    exact ⟨⟨.leftParen, line⟩ :: (w ++ [⟨.rightParen, close⟩]), by simp, .group hw⟩
  · rename_i line us
    rw [bind_eq_ok_iff] at h
    obtain ⟨⟨es, us'⟩, he, h⟩ := h
    cases h
    obtain ⟨w, close, rfl, hw⟩ := list_sound ih hn he
    exact ⟨⟨.leftBracket, line⟩ :: (w ++ [⟨.rightBracket, close⟩]), by simp, .vector hw⟩
  · cases h

lemma trailers_sound (ih : SoundBelow last N) {a : Expr} {u : List Token} (hn : ts.length ≤ N)
    (ha : Trailed u a) (h : readTrailers last a ts = .ok (e, rest)) :
    ∃ w, ts = w ++ rest ∧ Trailed (u ++ w) e ∧ Stops 0 rest := by
  induction hk : ts.length using Nat.strongRecOn generalizing ts u a with
  | ind k ihk =>
    by_cases hp : front ts = some .leftParen
    · obtain ⟨line, us, rfl⟩ := front_eq_some_iff.1 hp
      rw [readTrailers_paren, bind_eq_ok_iff] at h
      obtain ⟨⟨es, us'⟩, hes, h⟩ := h
      obtain ⟨w, close, rfl, hw⟩ := list_sound ih hn hes
      simp only [List.length_append, List.length_cons] at hn hk
      have hlt : us'.length < k := by omega
      have hN : us'.length ≤ N := by omega
      obtain ⟨v, rfl, hv, hs⟩ := ihk _ hlt hN (ha.call hw) h rfl
      exact ⟨⟨.leftParen, line⟩ :: (w ++ ⟨.rightParen, close⟩ :: v), by simp, by simpa using hv, hs⟩
    · by_cases hb : front ts = some .leftBracket
      · obtain ⟨line, us, rfl⟩ := front_eq_some_iff.1 hb
        rw [readTrailers_bracket, bind_eq_ok_iff] at h
        obtain ⟨⟨i, us'⟩, hi, h⟩ := h
        rw [bind_eq_ok_iff] at h
        obtain ⟨⟨_, us''⟩, ht, h⟩ := h
        obtain ⟨w, rfl, hw, -⟩ := ih _ _ _ hn hi
        obtain ⟨close, rfl⟩ := take_eq_ok_iff.1 ht
        simp only [List.length_append, List.length_cons] at hn hk
        have hlt : us''.length < k := by omega
        have hN : us''.length ≤ N := by omega
        obtain ⟨v, rfl, hv, hs⟩ := ihk _ hlt hN (ha.index hw) h rfl
        exact ⟨⟨.leftBracket, line⟩ :: (w ++ ⟨.rightBracket, close⟩ :: v), by simp,
          by simpa using hv, hs⟩
      · rw [readTrailers_stop _ hp hb] at h
        cases h
        refine ⟨[], rfl, by rwa [List.append_nil], fun l hl => ⟨?_, ?_, fun m op _ => m.zero_le⟩⟩
        · rintro rfl
          exact hp hl
        · rintro rfl
          exact hb hl

lemma unary_sound (ih : SoundBelow last N) (hn : ts.length ≤ N)
    (h : readUnary last ts = .ok (e, rest)) : ∃ w, ts = w ++ rest ∧ Unary w e ∧ Stops 0 rest := by
  induction ts generalizing e with
  | nil =>
    have hf : front [] ≠ some .minus := nofun
    rw [readUnary_of_front_ne hf] at h
    cases h
  | cons t ts iht =>
    by_cases hm : t.lexeme = .minus
    · obtain ⟨l, line⟩ := t
      cases hm
      rw [readUnary_minus, bind_eq_ok_iff] at h
      obtain ⟨⟨a, us⟩, ha, h⟩ := h
      cases h
      obtain ⟨w, rfl, hw, hs⟩ := iht (Nat.le_of_succ_le hn) ha
      exact ⟨⟨.minus, line⟩ :: w, rfl, .negate hw, hs⟩
    · rw [readUnary_of_front_ne (by simpa using hm)] at h
      rw [bind_eq_ok_iff] at h
      obtain ⟨⟨a, us⟩, ha, h⟩ := h
      obtain ⟨w, hw, hp⟩ := primary_sound ih hn ha
      have hu : us.length ≤ N := by
        rw [hw, List.length_append] at hn
        omega
      obtain ⟨v, rfl, hv, hs⟩ := trailers_sound ih hu (.primary hp) h
      exact ⟨w ++ v, by rw [hw, List.append_assoc], .trailed hv, hs⟩

lemma chain_sound {left : Expr} {u : List Token} (hn : ts.length ≤ N) (hl : Binary (n + 1) u left)
    (hb : ∀ ts e rest, ts.length ≤ N → readBelow last n ts = .ok (e, rest) →
      ∃ w, ts = w ++ rest ∧ Binary n w e ∧ Stops n rest)
    (hs : Stops n ts) (h : readChain last n left ts = .ok (e, rest)) :
    ∃ w, ts = w ++ rest ∧ Binary (n + 1) (u ++ w) e ∧ Stops (n + 1) rest := by
  induction hk : ts.length using Nat.strongRecOn generalizing ts u left with
  | ind k ihk =>
    rw [readChain_eq] at h
    cases ts with
    | nil =>
      cases h
      exact ⟨[], rfl, by rwa [List.append_nil], nofun⟩
    | cons t us =>
      rw [chainStep] at h
      split at h
      · rename_i op ho
        rw [bind_eq_ok_iff] at h
        obtain ⟨⟨right, us'⟩, hr, h⟩ := h
        rw [List.length_cons] at hn hk
        obtain ⟨w, rfl, hw, hs⟩ := hb _ _ _ (Nat.le_of_succ_le hn) hr
        rw [List.length_append] at hn hk
        have hlt : us'.length < k := by omega
        have hN : us'.length ≤ N := by omega
        have hleft : Binary (n + 1) (u ++ t :: w) (.binary op left right t.line) :=
          hl.apply (operatorAt?_eq_some_iff.1 ho) hw
        obtain ⟨v, rfl, hv, hs⟩ := ihk _ hlt hN hleft hs h rfl
        exact ⟨t :: (w ++ v), by simp, by simpa using hv, hs⟩
      · rename_i ho
        cases h
        refine ⟨[], rfl, by rwa [List.append_nil], ?_⟩
        rintro _ ⟨⟩
        obtain ⟨hp, hb, hm⟩ := hs _ rfl
        refine ⟨hp, hb, fun m op hop => Nat.lt_of_le_of_ne (hm m op hop) ?_⟩
        rintro rfl
        rw [operatorAt?_eq_some_iff.2 hop] at ho
        cases ho

lemma below_sound (ih : SoundBelow last N) (hn : ts.length ≤ N)
    (h : readBelow last n ts = .ok (e, rest)) :
    ∃ w, ts = w ++ rest ∧ Binary n w e ∧ Stops n rest := by
  induction n generalizing ts e rest with
  | zero =>
    obtain ⟨w, hw, hu, hs⟩ := unary_sound ih hn h
    exact ⟨w, hw, .unary hu, hs⟩
  | succ n ihn =>
    rw [readBelow_succ, bind_eq_ok_iff] at h
    obtain ⟨⟨left, us⟩, hl, h⟩ := h
    obtain ⟨w, rfl, hw, hs⟩ := ihn hn hl
    rw [List.length_append] at hn
    have hN : us.length ≤ N := by omega
    obtain ⟨v, rfl, hv, hs⟩ := chain_sound hN (.operand hw) (fun _ _ _ => ihn) hs h
    exact ⟨w ++ v, (List.append_assoc _ _ _).symm, hv, hs⟩

lemma soundBelow (last N : Nat) : SoundBelow last N := by
  -- An expression inside another one is read after a bracket or an operator, hence from fewer tokens.
  induction N with
  | zero => exact fun ts e rest hn => absurd hn (Nat.not_lt_zero _)
  | succ N ih =>
    intro ts e rest hn h
    rw [readExpression_eq] at h
    exact below_sound ih (Nat.le_of_lt_succ hn) h

lemma expression_sound (h : readExpression last ts = .ok (e, rest)) :
    ∃ w, ts = w ++ rest ∧ Binary 6 w e ∧ Stops 6 rest :=
  soundBelow last _ ts e rest (Nat.lt_succ_self _) h

lemma names_sound {found xs : List String} (h : readNames last found ts = .ok (xs, rest)) :
    ∃ w line ys, ts = w ++ ⟨.rightParen, line⟩ :: rest ∧ Names w ys ∧ xs = found.reverse ++ ys := by
  induction hk : ts.length using Nat.strongRecOn generalizing ts found with
  | ind k ihk =>
    rcases ts with _ | ⟨⟨l, line⟩, us⟩
    · cases h
    · cases l with
      | identifier x =>
        by_cases hc : front us = some .comma
        · obtain ⟨line', us, rfl⟩ := front_eq_some_iff.1 hc
          rw [readNames_comma] at h
          have hlt : us.length < k := by
            simp only [List.length_cons] at hk
            omega
          obtain ⟨w, close, ys, rfl, hw, rfl⟩ := ihk _ hlt h rfl
          exact ⟨⟨.identifier x, line⟩ :: ⟨.comma, line'⟩ :: w, close, x :: ys, rfl, .more hw,
            by simp⟩
        · rw [readNames_of_front_ne _ _ _ hc, bind_eq_ok_iff] at h
          obtain ⟨⟨_, us'⟩, ht, h⟩ := h
          cases h
          obtain ⟨close, rfl⟩ := take_eq_ok_iff.1 ht
          exact ⟨[⟨.identifier x, line⟩], close, [x], rfl, .one, List.reverse_cons⟩
      | _ => cases h

lemma parameters_sound {xs : List String} (h : readParameters last ts = .ok (xs, rest)) :
    ∃ w line, ts = w ++ ⟨.rightParen, line⟩ :: rest ∧ Parameters w xs := by
  rw [readParameters] at h
  split at h
  · rename_i hc
    obtain ⟨line, us, rfl⟩ := front_eq_some_iff.1 hc
    cases h
    exact ⟨[], line, rfl, .empty⟩
  · obtain ⟨w, line, ys, hw, hy, rfl⟩ := names_sound h
    exact ⟨w, line, hw, .listed hy⟩

lemma header_sound {hd : Header} (h : readHeader last ts = .ok (hd, rest)) :
    ∃ line₁ w line₂ line₃,
      ts = ⟨.identifier hd.name, hd.line⟩ :: ⟨.leftParen, line₁⟩ ::
        (w ++ ⟨.rightParen, line₂⟩ :: ⟨.equals, line₃⟩ :: rest) ∧ Parameters w hd.params := by
  rw [readHeader.eq_def] at h
  split at h
  · rw [bind_eq_ok_iff] at h
    obtain ⟨⟨_, us⟩, hl, h⟩ := h
    rw [bind_eq_ok_iff] at h
    obtain ⟨⟨params, us'⟩, hp, h⟩ := h
    rw [bind_eq_ok_iff] at h
    obtain ⟨⟨_, us''⟩, hq, h⟩ := h
    cases h
    obtain ⟨line₁, rfl⟩ := take_eq_ok_iff.1 hl
    obtain ⟨w, line₂, rfl, hw⟩ := parameters_sound hp
    obtain ⟨line₃, rfl⟩ := take_eq_ok_iff.1 hq
    exact ⟨line₁, w, line₂, line₃, rfl, hw⟩
  · cases h

lemma sentence_sound {s : Statement} (h : readStatement last ts = .ok (s, rest)) :
    ∃ t w, ts = t :: w ++ rest ∧ Sentence (t :: w) s ∧ t.lexeme.begins ∧ Stops 6 rest := by
  rw [readStatement] at h
  split at h
  · rw [bind_eq_ok_iff] at h
    obtain ⟨⟨hd, us⟩, hh, h⟩ := h
    rw [bind_eq_ok_iff] at h
    obtain ⟨⟨e, us'⟩, he, h⟩ := h
    cases h
    obtain ⟨line₁, v, line₂, line₃, rfl, hv⟩ := header_sound hh
    obtain ⟨w, rfl, hw, hs⟩ := expression_sound he
    refine ⟨_, ⟨.leftParen, line₁⟩ :: (v ++ ⟨.rightParen, line₂⟩ :: ⟨.equals, line₃⟩ :: w), ?_,
      .definition hv hw, rfl, hs⟩
    simp
  · rw [bind_eq_ok_iff] at h
    obtain ⟨⟨e, us⟩, he, h⟩ := h
    cases h
    obtain ⟨w, rfl, hw, hs⟩ := expression_sound he
    obtain ⟨l, hl, hb⟩ := hw.front
    obtain ⟨line, v, rfl⟩ := front_eq_some_iff.1 hl
    exact ⟨_, _, rfl, .expression hw, hb, hs⟩

lemma Stops.resumes {t : Token} (hs : Stops 6 (t :: ts)) (hb : t.lexeme.begins) :
    t.lexeme.resumes := by
  obtain ⟨hp, hl, ho⟩ := hs _ rfl
  obtain ⟨l, line⟩ := t
  -- Of the tokens that begin an expression three would have been taken into the statement before.
  cases l with
  | leftParen => exact (hp rfl).elim
  | leftBracket => exact (hl rfl).elim
  | minus => exact absurd (ho 1 .sub .sub) (by decide)
  | _ => exact hb

lemma following_sound {found : List Statement} {p : Program} (hs : Stops 6 ts)
    (h : statements last found ts = .ok p) : ∃ q, p = found.reverse ++ q ∧ Following ts q := by
  induction hk : ts.length using Nat.strongRecOn generalizing ts found with
  | ind k ihk =>
    cases ts with
    | nil =>
      rw [statements] at h
      cases h
      exact ⟨[], (List.append_nil _).symm, .nil⟩
    | cons t ts =>
      rw [statements_cons, bind_eq_ok_iff] at h
      obtain ⟨⟨s, us⟩, hr, h⟩ := h
      obtain ⟨u, w, hw, hd, hb, hs'⟩ := sentence_sound hr
      rw [hw, List.length_append, List.length_cons] at hk
      have hlt : us.length < k := by omega
      obtain ⟨q, rfl, hq⟩ := ihk _ hlt hs' h rfl
      cases hw
      have hr : t.lexeme.resumes := hs.resumes hb
      exact ⟨s :: q, by simp, .cons hr hd hq⟩

lemma derives_sound {p : Program} (h : statements last [] ts = .ok p) : Derives ts p := by
  cases ts with
  | nil =>
    rw [statements] at h
    cases h
    exact .nil
  | cons t ts =>
    rw [statements_cons, bind_eq_ok_iff] at h
    obtain ⟨⟨s, us⟩, hr, h⟩ := h
    obtain ⟨u, w, hw, hd, -, hs⟩ := sentence_sound hr
    obtain ⟨q, rfl, hq⟩ := following_sound hs h
    rw [hw]
    exact .cons hd hq

end ExprLang.Grammar
