import ExprLang.Proofs.Walk.Program

namespace ExprLang

open ExprLang.Parser Grammar Walk

variable {ts w : List Token} {l : Nat}

/-- The input is over after the tokens `w`, on line `l`. -/
inductive Over : List Token → List Token → Nat → Prop
  | marked {w : List Token} (l : Nat) (rest : List Token) (hw : ∀ t ∈ w, t.lexeme ≠ .endOfInput) :
    Over (w ++ ⟨.endOfInput, l⟩ :: rest) w l
  | unmarked {w : List Token} (hw : ∀ t ∈ w, t.lexeme ≠ .endOfInput) :
    Over w w ((w.getLast?.map (·.line)).getD 1)

lemma over_body (ts : List Token) : Over ts (body ts) (lastLine ts) := by
  have ht : body ts ++ ts.dropWhile (·.lexeme != .endOfInput) = ts := List.takeWhile_append_dropWhile
  have hb := unended_body ts
  rw [lastLine]
  cases hd : ts.dropWhile (·.lexeme != .endOfInput) with
  | nil =>
    rw [hd, List.append_nil] at ht
    rw [ht] at hb ⊢
    exact .unmarked hb
  | cons t rest =>
    have hl : t.lexeme = .endOfInput := by
      have hn := List.head?_dropWhile_not (·.lexeme != Lexeme.endOfInput) ts
      rw [hd] at hn
      simpa using hn
    obtain ⟨l, line⟩ := t
    cases hl
    have ho := Over.marked line rest hb
    rw [hd] at ht
    rwa [ht] at ho

lemma Over.eq (h : Over ts w l) : body ts = w ∧ lastLine ts = l := by
  cases h with
  | marked l rest hw =>
    have hb : Unended w := hw
    refine ⟨(hb.body_append _).trans (by simp [body]), ?_⟩
    rw [lastLine, List.dropWhile_append_of_pos fun t ht => bne_iff_ne.2 (hw t ht)]
    simp
  | unmarked hw =>
    have hb : Unended ts := hw
    refine ⟨hb.body_eq, ?_⟩
    have hd : ts.dropWhile (·.lexeme != .endOfInput) = [] := by simpa using hw
    rw [lastLine, hd]

lemma Over.unended (h : Over ts w l) : Unended w := h.eq.1 ▸ unended_body ts

lemma Over.parse_eq (h : Over ts w l) : parse ts = (statements l [] w).mapError (·.1) := by
  rw [parse, h.eq.1, h.eq.2]

lemma value_map (r : Except Failure Program) : value (r.map (·, [])) = r.mapError (·.1) := by
  cases r <;> rfl

lemma left_map (r : Except Failure Program) {p : Program} (h : r.mapError (·.1) = .ok p) :
    left (r.map (·, [])) = [] := by
  cases r with
  | ok a => rfl
  | error f => cases h

theorem parse_over (ts : List Token) :
    (∃ w l, Over ts w l) ∧ ∀ w l, Over ts w l →
      parse ts = parse (w ++ [⟨.endOfInput, l⟩]) ∧
        ∃ c, Ends ts (.statements []) ⟨0, 0⟩ (parse ts) c ∧ c.place ≤ c.furthest ∧ c.furthest ≤ w.length ∧
          ∀ p, parse ts = .ok p → c.place = w.length := by
  refine ⟨⟨_, _, over_body ts⟩, fun w l h => ?_⟩
  have hm : Over (w ++ [⟨.endOfInput, l⟩]) w l := .marked l [] h.unended
  refine ⟨h.parse_eq.trans hm.parse_eq.symm, ?_⟩
  have hf : finish ts 0 = w.length := by rw [finish, List.drop_zero, h.eq.1, Nat.zero_add]
  have hl : (peek ts w.length).line = l := by rw [← hf, line_finish (Nat.zero_le _), h.eq.2]
  have hs : At ts w.length ⟨0, 0⟩ w := ⟨h.eq.1, Nat.zero_add _, Nat.le_refl _, Nat.zero_le _⟩
  obtain ⟨c, hr, hc⟩ := agrees_statements ts w.length [] w ⟨0, 0⟩ hs
  rw [hl] at hr hc
  rw [value_map, ← h.parse_eq] at hr
  refine ⟨c, Filter.eventually_atTop.1 hr, hc.passed, hc.within, fun p hp => ?_⟩
  have ht := hc.total
  rw [h.parse_eq] at hp
  rwa [left_map _ hp] at ht

def cutTokens : List Token :=
  [⟨.identifier "a", 1⟩, ⟨.identifier "f", 1⟩, ⟨.leftParen, 1⟩, ⟨.rightParen, 2⟩, ⟨.equals, 2⟩, ⟨.endOfInput, 3⟩,
    ⟨.rightParen, 4⟩, ⟨.integer 1, 4⟩]

theorem parse_over_cut :
    Over cutTokens (cutTokens.take 5) 3 ∧
      parse cutTokens = .error ⟨.unexpectedEnd .expression, 3⟩ ∧
        parse cutTokens = parse (cutTokens.take 5 ++ [⟨.endOfInput, 3⟩]) ∧
          ∃ c, Ends cutTokens (.statements []) ⟨0, 0⟩ (parse cutTokens) c ∧ c.place ≤ c.furthest ∧
            c.furthest ≤ 5 ∧ ∀ p, parse cutTokens = .ok p → c.place = 5 := by
  have ho : Over cutTokens (cutTokens.take 5) 3 :=
    .marked (w := cutTokens.take 5) 3 (cutTokens.drop 6) (by decide)
  exact ⟨ho, by cbv, (parse_over cutTokens).2 _ 3 ho⟩

end ExprLang
