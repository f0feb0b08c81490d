import ExprLang.Proofs.Walk.LookAhead

namespace ExprLang

/-- How many readings, one inside the other, may begin with this one before a token is taken. -/
def Reading.rank : ⦃α : Type⦄ → Reading α → Nat
  | _, .unary => 2
  | _, .below level => level + 3
  | _, .chain level _ => level + 1
  | _, .expression => BinaryOp.levels + 4
  | _, .items _ _ | _, .statement => BinaryOp.levels + 5
  | _, .list _ _ | _, .statements _ => BinaryOp.levels + 6
  | _, _ => 1

lemma Reading.rank_pos {α : Type} (r : Reading α) : 0 < r.rank := by
  cases r <;> exact Nat.succ_pos _

namespace Walk

open ExprLang.Parser

variable {ts : List Token} {b i k l : Nat} {c : Cursor}

def rounds (ts : List Token) {α : Type} (r : Reading α) (c : Nat) : Nat :=
  r.rank + (BinaryOp.levels + 6) * (finish ts c - c)

structure Onward (ts : List Token) (c k : Nat) : Prop where
  le : c ≤ k
  finish_eq : finish ts k = finish ts c

def Takes (ts : List Token) (l : Lexeme) (c k : Nat) : Prop :=
  l ≠ .endOfInput → c < k ∧ (peek ts (k - 1)).lexeme = l

def Moves (ts : List Token) : ⦃α : Type⦄ → Reading α → Nat → Nat → Prop
  | _, .chain _ _, _, _ | _, .trailers _, _, _ | _, .closing _, _, _ | _, .statements _, _, _ => True
  | _, .list close _, c, k | _, .items close _, c, k => Takes ts close c k
  | _, .names _, c, k => Takes ts .rightParen c k
  | _, _, c, k => c < k

/-- From a cursor a walk ends alike with any number of rounds from `b` on. -/
def Halts (ts : List Token) (b : Nat) {α : Type} (m : Nat → Walk α) (c : Cursor) (post : α → Nat → Prop) : Prop :=
  ∃ r c', (∀ n, b ≤ n → m n c = some (r, c')) ∧ Onward ts c.place c'.place ∧ ∀ a, r = .ok a → post a c'.place

def HaltsWithin (ts : List Token) (b : Nat) : Prop :=
  ∀ ⦃α : Type⦄ (r : Reading α) (c : Cursor), rounds ts r c.place ≤ b →
    Halts ts b (fun n => read ts n r) c fun _ k => Moves ts r c.place k

section Rounds

variable {α β : Type} {r : Reading α} {s : Reading β}

lemma Onward.refl (ts : List Token) (c : Nat) : Onward ts c c := ⟨Nat.le_refl c, rfl⟩

lemma Onward.trans (h : Onward ts i k) (h' : Onward ts k l) : Onward ts i l :=
  ⟨Nat.le_trans h.le h'.le, h'.finish_eq.trans h.finish_eq⟩

lemma onward_succ (h : (peek ts i).lexeme ≠ .endOfInput) : Onward ts i (i + 1) :=
  ⟨Nat.le_succ i, finish_succ h⟩

lemma Takes.of_le {x : Lexeme} (h : Takes ts x k l) (hi : i ≤ k) : Takes ts x i l := by
  intro hx
  obtain ⟨hk, ht⟩ := h hx
  exact ⟨Nat.lt_of_le_of_lt hi hk, ht⟩

lemma rounds_le (ho : Onward ts i k) : rounds ts r k ≤ rounds ts r i := by
  have hl : finish ts k - k ≤ finish ts i - i := by
    have hf := ho.finish_eq
    have hi := ho.le
    omega
  exact Nat.add_le_add_left (Nat.mul_le_mul_left _ hl) _

lemma rounds_down (h : rounds ts r i ≤ b + 1) (ho : Onward ts i k) (hr : s.rank < r.rank) :
    rounds ts s k ≤ b := by
  have hs := rounds_le (r := s) ho
  rw [rounds] at h
  rw [rounds.eq_def _ s i] at hs
  omega

lemma rounds_next (h : rounds ts r i ≤ b + 1) (ho : Onward ts i k) (hk : i < k)
    (hr : s.rank < r.rank + (BinaryOp.levels + 6)) : rounds ts s k ≤ b := by
  have hl : finish ts k - k + 1 ≤ finish ts i - i := by
    have hf := ho.finish_eq
    have hi : k ≤ finish ts k := Nat.le_add_right _ _
    omega
  have hm := Nat.mul_le_mul_left (BinaryOp.levels + 6) hl
  rw [rounds] at h ⊢
  rw [Nat.mul_add, Nat.mul_one] at hm
  omega

end Rounds

section Halts

variable {α β : Type} {m : Nat → Walk α} {post : α → Nat → Prop} {post' : β → Nat → Prop}

lemma Halts.bind {g : Nat → α → Walk β} (hm : Halts ts b m c post)
    (hg : ∀ a c', Onward ts c.place c'.place → post a c'.place → Halts ts b (fun n => g n a) c' post') :
    Halts ts b (fun n => m n >>= g n) c post' := by
  obtain ⟨r, c', hm, ho, hp⟩ := hm
  cases r with
  | error e => exact ⟨.error e, c', fun n hn => bind_of_error (hm n hn), ho, nofun⟩
  | ok a =>
    obtain ⟨r, c'', hr, ho', hp'⟩ := hg a c' ho (hp a rfl)
    exact ⟨r, c'', fun n hn => (bind_of_ok (hm n hn)).trans (hr n hn), ho.trans ho', hp'⟩

lemma Halts.mono {post' : α → Nat → Prop} (hm : Halts ts b m c post)
    (h : ∀ a k, Onward ts c.place k → post a k → post' a k) : Halts ts b m c post' := by
  obtain ⟨r, c', hm, ho, hp⟩ := hm
  exact ⟨r, c', hm, ho, fun a ha => h a _ ho (hp a ha)⟩

lemma halts_value {a : α} (h : post a c.place) : Halts ts b (fun _ => pure a) c post :=
  ⟨.ok a, c, fun _ _ => rfl, .refl ts c.place, fun _ ha => Except.ok.inj ha ▸ h⟩

lemma halts_error (e : ParseError) : Halts ts b (fun _ => throw e) c post :=
  ⟨.error e, c, fun _ _ => rfl, .refl ts c.place, nofun⟩

lemma Halts.current {g : Nat → Token → Walk α} (h : Halts ts b (fun n => g n (peek ts c.place)) c post) :
    Halts ts b (fun n => current ts >>= g n) c post := by
  obtain ⟨r, c', hr, ho, hp⟩ := h
  exact ⟨r, c', fun n hn => (bind_of_ok (current_eq _ rfl)).trans (hr n hn), ho, hp⟩

lemma Halts.round {r : Reading α} (h : Halts ts b (fun n => round ts (read ts n) r) c post) :
    Halts ts (b + 1) (fun n => read ts n r) c post := by
  obtain ⟨x, c', hx, ho, hp⟩ := h
  refine ⟨x, c', fun n hn => ?_, ho, hp⟩
  obtain ⟨n, rfl⟩ : ∃ k, n = k + 1 := ⟨n - 1, by omega⟩
  exact hx n (Nat.le_of_succ_le_succ hn)

lemma halts_advance (h : (peek ts c.place).lexeme ≠ .endOfInput) :
    Halts ts b (fun _ => advance ts) c fun _ k => k = c.place + 1 :=
  ⟨.ok (), ⟨c.place + 1, max c.furthest (c.place + 1)⟩, fun _ _ => advance_eq h c.furthest, onward_succ h,
    fun _ _ => rfl⟩

lemma halts_step (h : (peek ts c.place).lexeme ≠ .endOfInput) :
    Halts ts b (fun _ => advance ts) c fun _ k => c.place < k :=
  (halts_advance h).mono fun _ _ _ hk => hk ▸ Nat.lt_succ_self _

lemma halts_refuse (x : Expectation) : Halts ts b (fun _ => refuse ts x) c post :=
  Halts.current (halts_error _)

lemma halts_take (l : Lexeme) (h : (peek ts c.place).lexeme = l) :
    Halts ts b (fun _ => advance ts) c fun _ k => Takes ts l c.place k := by
  by_cases he : l = .endOfInput
  · subst he
    refine Halts.current ?_
    simp only [h, if_true]
    exact halts_value fun hn => (hn rfl).elim
  · refine (halts_advance (h ▸ he)).mono fun _ k _ hk _ => ?_
    subst hk
    exact ⟨Nat.lt_succ_self _, h⟩

lemma halts_eat (l : Lexeme) :
    Halts ts b (fun _ => eat ts l) c fun found k => found = true → Takes ts l c.place k := by
  refine Halts.current ?_
  by_cases h : (peek ts c.place).lexeme = l
  · simp only [h, if_true]
    exact (halts_take l h).bind fun _ c' _ ht => halts_value fun _ => ht
  · simp only [h, if_false]
    exact halts_value nofun

lemma halts_expect (l : Lexeme) (x : Expectation) :
    Halts ts b (fun _ => expect ts l x) c fun _ k => Takes ts l c.place k := by
  refine Halts.current ?_
  by_cases h : (peek ts c.place).lexeme = l
  · simp only [h, if_true]
    exact halts_take l h
  · simp only [h, if_false]
    exact halts_refuse x

lemma lexeme_of_leaf {t : Token} {e : Expr} (h : leaf? t = some e) : t.lexeme ≠ .endOfInput := by
  obtain ⟨l, line⟩ := t
  rintro rfl
  cases h

lemma halts_parameter : Halts ts b (fun _ => parameter ts) c fun _ k => c.place < k := by
  refine Halts.current ?_
  cases hl : (peek ts c.place).lexeme with
  | identifier x => exact (halts_step (by simp [hl])).bind fun _ c₁ _ h₁ => halts_value h₁
  | endOfInput => exact halts_refuse .parameterName
  | _ => exact halts_error _

lemma halts_startsDefinition (hb : finish ts c.place ≤ c.place + b) :
    Halts ts b (fun n => startsDefinition ts (read ts n)) c fun _ k => k = c.place := by
  obtain ⟨g, -, -, h⟩ := startsDefinition_ends ts c.place
  refine ⟨_, _, fun n hn => h c.furthest n ?_, .refl ts c.place, fun _ _ => rfl⟩
  exact Nat.le_trans (Nat.le_of_add_le_add_left hb) hn

end Halts

section Forms

variable (ih : HaltsWithin ts b)
include ih

lemma halts_chain {level : Nat} {left : Expr} (hb : rounds ts (.chain level left) c.place ≤ b + 1) :
    Halts ts b (fun n => chain ts (read ts n) level left) c fun _ _ => True := by
  refine Halts.current ?_
  cases ho : operatorAt? level (peek ts c.place).lexeme with
  | none => exact halts_value trivial
  | some op =>
    have he : (peek ts c.place).lexeme ≠ .endOfInput := by
      intro he
      rw [he] at ho
      cases ho
    refine (halts_step he).bind fun _ c₁ o₁ h₁ => ?_
    refine (ih (.below level) c₁ (rounds_next hb o₁ h₁ ?_)).bind fun right c₂ o₂ h₂ => ?_
    · simp only [Reading.rank]
      omega
    · refine ih (.chain level _) c₂ (rounds_next hb (o₁.trans o₂) (Nat.lt_trans h₁ h₂) ?_)
      exact Nat.lt_add_of_pos_right (Nat.succ_pos _)

lemma halts_below {level : Nat} (hb : rounds ts (.below (level + 1)) c.place ≤ b + 1) :
    Halts ts b (fun n => do let left ← read ts n (.below level); read ts n (.chain level left)) c
      fun _ k => c.place < k := by
  refine (ih (.below level) c (rounds_down hb (.refl _ _) (Nat.lt_succ_self _))).bind fun left c₁ o₁ h₁ => ?_
  refine Halts.mono (ih (.chain level left) c₁ (rounds_next hb o₁ h₁ ?_)) fun _ k o _ => ?_
  · simp only [Reading.rank]
    omega
  · exact Nat.lt_of_lt_of_le h₁ o.le

lemma halts_unary (hb : rounds ts .unary c.place ≤ b + 1) :
    Halts ts b (fun n => unary ts (read ts n)) c fun _ k => c.place < k := by
  refine Halts.current ?_
  by_cases hm : (peek ts c.place).lexeme = .minus
  · simp only [hm, if_true]
    refine (halts_step (by simp [hm])).bind fun _ c₁ o₁ h₁ => ?_
    refine (ih .unary c₁ (rounds_next hb o₁ h₁ ?_)).bind fun e c₂ o₂ h₂ => halts_value (Nat.lt_trans h₁ h₂)
    exact Nat.lt_add_of_pos_right (Nat.succ_pos _)
  · simp only [hm, if_false]
    refine (ih .primary c (rounds_down hb (.refl _ _) (Nat.lt_succ_self _))).bind fun e c₁ o₁ h₁ => ?_
    refine Halts.mono (ih (.trailers e) c₁ (rounds_next hb o₁ h₁ ?_)) fun _ k o _ => ?_
    · simp only [Reading.rank]
      omega
    · exact Nat.lt_of_lt_of_le h₁ o.le

lemma halts_primary (hb : rounds ts .primary c.place ≤ b + 1) :
    Halts ts b (fun n => primary ts (read ts n)) c fun _ k => c.place < k := by
  refine Halts.current ?_
  cases hl : leaf? (peek ts c.place) with
  | some e =>
    exact (halts_step (lexeme_of_leaf hl)).bind fun _ c₁ _ h₁ => halts_value h₁
  | none =>
    by_cases hp : (peek ts c.place).lexeme = .leftParen
    · simp only [hp, if_true]
      refine (halts_step (by simp [hp])).bind fun _ c₁ o₁ h₁ => ?_
      refine (ih .expression c₁ (rounds_next hb o₁ h₁ ?_)).bind fun e c₂ o₂ h₂ => ?_
      · simp only [Reading.rank]
        omega
      · refine (halts_expect .rightParen .closingParen).bind fun _ c₃ o₃ _ => halts_value ?_
        exact Nat.lt_of_lt_of_le h₁ (o₂.trans o₃).le
    · by_cases hq : (peek ts c.place).lexeme = .leftBracket
      · simp only [hq, if_true]
        refine (halts_step (by simp [hq])).bind fun _ c₁ o₁ h₁ => ?_
        refine (ih (.list .rightBracket .closingBracket) c₁ (rounds_next hb o₁ h₁ ?_)).bind fun es c₂ o₂ h₂ => ?_
        · simp only [Reading.rank]
          omega
        · exact halts_value (Nat.lt_of_lt_of_le h₁ o₂.le)
      · simp only [hp, hq, if_false]
        exact halts_refuse .expression

lemma halts_trailers {e : Expr} (hb : rounds ts (.trailers e) c.place ≤ b + 1) :
    Halts ts b (fun n => trailers ts (read ts n) e) c fun _ _ => True := by
  refine Halts.current ?_
  by_cases hp : (peek ts c.place).lexeme = .leftParen
  · simp only [hp, if_true]
    refine (halts_step (by simp [hp])).bind fun _ c₁ o₁ h₁ => ?_
    refine (ih (.list .rightParen .closingParen) c₁ (rounds_next hb o₁ h₁ ?_)).bind fun es c₂ o₂ _ => ?_
    · simp only [Reading.rank]
      omega
    · refine ih (.trailers _) c₂ (rounds_next hb (o₁.trans o₂) (Nat.lt_of_lt_of_le h₁ o₂.le) ?_)
      exact Nat.lt_add_of_pos_right (Nat.succ_pos _)
  · by_cases hq : (peek ts c.place).lexeme = .leftBracket
    · simp only [hq, if_true]
      refine (halts_step (by simp [hq])).bind fun _ c₁ o₁ h₁ => ?_
      refine (ih .expression c₁ (rounds_next hb o₁ h₁ ?_)).bind fun i c₂ o₂ _ => ?_
      · simp only [Reading.rank]
        omega
      · refine (halts_expect .rightBracket .closingBracketAfterIndex).bind fun _ c₃ o₃ _ => ?_
        have o := (o₁.trans o₂).trans o₃
        refine ih (.trailers _) c₃ (rounds_next hb o (Nat.lt_of_lt_of_le h₁ (o₂.trans o₃).le) ?_)
        exact Nat.lt_add_of_pos_right (Nat.succ_pos _)
    · simp only [hp, hq, if_false]
      exact halts_value trivial

lemma halts_list {close : Lexeme} {x : Expectation} (hb : rounds ts (.list close x) c.place ≤ b + 1) :
    Halts ts b (fun n => list ts (read ts n) close x) c fun _ k => Takes ts close c.place k := by
  refine (halts_eat close).bind fun closed c₁ o₁ h₁ => ?_
  cases closed with
  | true => exact halts_value (h₁ rfl)
  | false =>
    refine (ih (.items close x) c₁ (rounds_down hb o₁ ?_)).mono fun _ k _ h => h.of_le o₁.le
    simp only [Reading.rank]
    omega

lemma halts_items {close : Lexeme} {x : Expectation} (hb : rounds ts (.items close x) c.place ≤ b + 1) :
    Halts ts b (fun n => items ts (read ts n) close x) c fun _ k => Takes ts close c.place k := by
  refine (ih .expression c (rounds_down hb (.refl _ _) (Nat.lt_succ_self _))).bind fun e c₁ o₁ h₁ => ?_
  refine (halts_eat .comma).bind fun more c₂ o₂ _ => ?_
  have o := o₁.trans o₂
  cases more with
  | true =>
    have h₂ : c.place < c₂.place := Nat.lt_of_lt_of_le h₁ o₂.le
    refine (ih (.items close x) c₂ (rounds_next hb o h₂ ?_)).bind fun es c₃ _ h₃ => ?_
    · exact Nat.lt_add_of_pos_right (Nat.succ_pos _)
    · exact halts_value (h₃.of_le o.le)
  | false =>
    exact (halts_expect close x).bind fun _ c₃ _ h₃ => halts_value (h₃.of_le o.le)

lemma halts_closing {opened : Nat} (hb : rounds ts (.closing opened) c.place ≤ b + 1) :
    Halts ts b (fun n => closing ts (read ts n) opened) c fun _ _ => True := by
  cases opened with
  | zero => exact Halts.current (halts_value trivial)
  | succ opened =>
    refine Halts.current ?_
    by_cases he : (peek ts c.place).lexeme = .endOfInput
    · simp only [he]
      exact (halts_take .endOfInput he).bind fun _ c₁ _ _ => halts_value trivial
    · refine (halts_step he).bind fun _ c₁ o₁ h₁ => ?_
      have next (opened : Nat) : Halts ts b (fun n => read ts n (.closing opened)) c₁ fun _ _ => True :=
        ih (.closing opened) c₁ (rounds_next hb o₁ h₁ (Nat.lt_add_of_pos_right (Nat.succ_pos _)))
      cases hl : (peek ts c.place).lexeme with
      | endOfInput => exact (he hl).elim
      | _ => exact next _

lemma halts_names {found : List String} (hb : rounds ts (.names found) c.place ≤ b + 1) :
    Halts ts b (fun n => names ts (read ts n) found) c fun _ k => Takes ts .rightParen c.place k := by
  refine halts_parameter.bind fun x c₁ o₁ h₁ => ?_
  refine (halts_eat .comma).bind fun more c₂ o₂ _ => ?_
  have o := o₁.trans o₂
  cases more with
  | true =>
    have h₂ : c.place < c₂.place := Nat.lt_of_lt_of_le h₁ o₂.le
    refine (ih (.names (x :: found)) c₂ (rounds_next hb o h₂ ?_)).mono fun _ k _ h => h.of_le o.le
    exact Nat.lt_add_of_pos_right (Nat.succ_pos _)
  | false =>
    exact (halts_expect .rightParen .closingParen).bind fun _ c₃ _ h₃ => halts_value (h₃.of_le o.le)

lemma halts_parameters (hb : rounds ts (.names []) c.place ≤ b) :
    Halts ts b (fun n => parameters ts (read ts n)) c fun _ k => Takes ts .rightParen c.place k := by
  refine (halts_eat .rightParen).bind fun closed c₁ o₁ h₁ => ?_
  cases closed with
  | true => exact halts_value (h₁ rfl)
  | false => exact (ih (.names []) c₁ (Nat.le_trans (rounds_le o₁) hb)).mono fun _ k _ h => h.of_le o₁.le

lemma halts_header (hb : rounds ts (.names []) c.place ≤ b) :
    Halts ts b (fun n => header ts (read ts n)) c fun _ k => c.place < k := by
  refine Halts.current ?_
  cases hl : (peek ts c.place).lexeme with
  | identifier f =>
    refine (halts_step (by simp [hl])).bind fun _ c₁ o₁ h₁ => ?_
    refine (halts_expect .leftParen .openingParenAfterName).bind fun _ c₂ o₂ _ => ?_
    refine (halts_parameters ih (Nat.le_trans (rounds_le (o₁.trans o₂)) hb)).bind fun params c₃ o₃ _ => ?_
    refine (halts_expect .equals .equalsAfterParameters).bind fun _ c₄ o₄ _ => halts_value ?_
    exact Nat.lt_of_lt_of_le h₁ ((o₂.trans o₃).trans o₄).le
  | _ => exact halts_refuse .functionName

lemma halts_statement (hb : rounds ts .statement c.place ≤ b + 1) :
    Halts ts b (fun n => statement ts (read ts n)) c fun _ k => c.place < k := by
  have hd : finish ts c.place ≤ c.place + b := by
    have hr := Reading.rank_pos .statement
    have hk : 0 < BinaryOp.levels + 6 := Nat.succ_pos _
    have hm := Nat.le_mul_of_pos_left (finish ts c.place - c.place) hk
    rw [rounds] at hb
    omega
  -- The look ahead takes nothing, so what is read after it is measured from the same place.
  refine (halts_startsDefinition hd).bind fun definition c₁ o₁ h₁ => ?_
  rw [← h₁]
  cases definition with
  | true =>
    refine (halts_header ih (rounds_down hb o₁ ?_)).bind fun hd c₂ o₂ h₂ => ?_
    · simp only [Reading.rank]
      omega
    · refine (ih .expression c₂ (rounds_down hb (o₁.trans o₂) (Nat.lt_succ_self _))).bind fun body c₃ _ h₃ => ?_
      exact halts_value (Nat.lt_trans h₂ h₃)
  | false =>
    refine Halts.current ?_
    exact (ih .expression c₁ (rounds_down hb o₁ (Nat.lt_succ_self _))).bind fun e c₂ _ h₂ => halts_value h₂

lemma halts_statements {found : List Statement} (hb : rounds ts (.statements found) c.place ≤ b + 1) :
    Halts ts b (fun n => statements ts (read ts n) found) c fun _ _ => True := by
  refine Halts.current ?_
  by_cases he : (peek ts c.place).lexeme = .endOfInput
  · simp only [he, if_true]
    exact halts_value trivial
  · simp only [he, if_false]
    refine (ih .statement c (rounds_down hb (.refl _ _) (Nat.lt_succ_self _))).bind fun s c₁ o₁ h₁ => ?_
    exact ih (.statements _) c₁ (rounds_next hb o₁ h₁ (Nat.lt_add_of_pos_right (Nat.succ_pos _)))

end Forms

theorem read_halts (ts : List Token) (b : Nat) : HaltsWithin ts b := by
  induction b with
  | zero =>
    intro α r c hb
    have hr := r.rank_pos
    rw [rounds] at hb
    omega
  | succ b ih =>
    intro α r c hb
    cases r with
    | expression => exact Halts.round (ih (.below _) c (rounds_down hb (.refl _ _) (Nat.lt_succ_self _)))
    | below level =>
      cases level with
      | zero => exact Halts.round (ih .unary c (rounds_down hb (.refl _ _) (Nat.lt_succ_self _)))
      | succ level => exact Halts.round (halts_below ih hb)
    | chain level left => exact Halts.round (halts_chain ih hb)
    | unary => exact Halts.round (halts_unary ih hb)
    | primary => exact Halts.round (halts_primary ih hb)
    | trailers e => exact Halts.round (halts_trailers ih hb)
    | list close x => exact Halts.round (halts_list ih hb)
    | items close x => exact Halts.round (halts_items ih hb)
    | closing opened => exact Halts.round (halts_closing ih hb)
    | names found => exact Halts.round (halts_names ih hb)
    | statement => exact Halts.round (halts_statement ih hb)
    | statements found => exact Halts.round (halts_statements ih hb)

end Walk

end ExprLang
