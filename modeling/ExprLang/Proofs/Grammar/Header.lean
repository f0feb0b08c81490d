import ExprLang.Proofs.Grammar.Failure

/-! The look ahead counts parentheses, the reader goes from parameter to parameter, and both agree. -/

namespace ExprLang.Grammar

open ExprLang.Parser

variable {last n : Nat} {v w rest ts us : List Token} {t : Token} {cause : ParseCause} {e : ParseError}

structure Closes (n : Nat) (w : List Token) : Prop where
  total : w.countP (·.lexeme = .rightParen) = w.countP (·.lexeme = .leftParen) + n
  ordered : ∀ u, u <+: w →
    u.countP (·.lexeme = .rightParen) ≤ u.countP (·.lexeme = .leftParen) + n

lemma closes_nil : Closes 0 [] := by
  refine ⟨rfl, fun u hu => ?_⟩
  rw [List.prefix_nil.1 hu]
  exact Nat.le_refl _

lemma Closes.cons {m : Nat} (hw : Closes m w)
    (h : n + (if t.lexeme = .leftParen then 1 else 0) = m + (if t.lexeme = .rightParen then 1 else 0)) :
    Closes n (t :: w) := by
  have ht := hw.total
  refine ⟨?_, fun u hu => ?_⟩
  · simp only [List.countP_cons, decide_eq_true_eq]
    omega
  · rcases List.prefix_cons_iff.1 hu with rfl | ⟨u, rfl, hu'⟩
    · exact Nat.zero_le _
    · have ho := hw.ordered u hu'
      simp only [List.countP_cons, decide_eq_true_eq]
      omega

lemma closes_of_closesBeforeEquals (h : closesBeforeEquals (n + 1) ts = true) :
    ∃ w line line' rest, ts = w ++ ⟨.rightParen, line⟩ :: ⟨.equals, line'⟩ :: rest ∧ Closes n w := by
  induction ts generalizing n with
  | nil => cases h
  | cons t ts ih =>
    rw [closesBeforeEquals] at h
    split at h
    · rename_i hl
      obtain ⟨w, line, line', rest, rfl, hw⟩ := ih h
      exact ⟨t :: w, line, line', rest, rfl, hw.cons (by simp [hl])⟩
    · rename_i hl
      cases n with
      | zero =>
        rcases ts with _ | ⟨⟨m, line⟩, ts⟩
        · cases h
        · obtain ⟨l, line'⟩ := t
          cases hl
          obtain rfl : m = .equals := eq_of_beq h
          exact ⟨[], line', line, ts, rfl, closes_nil⟩
      | succ n =>
        obtain ⟨w, line, line', rest, rfl, hw⟩ := ih h
        exact ⟨t :: w, line, line', rest, rfl, hw.cons (by simp [hl])⟩
    · rename_i hl hr
      obtain ⟨w, line, line', rest, rfl, hw⟩ := ih h
      refine ⟨t :: w, line, line', rest, rfl, hw.cons ?_⟩
      rw [if_neg hl, if_neg hr]

lemma header_parts (h : startsDefinition ts = true) :
    ∃ f line line₁ w line₂ line₃ rest,
      ts = ⟨.identifier f, line⟩ :: ⟨.leftParen, line₁⟩ ::
        (w ++ ⟨.rightParen, line₂⟩ :: ⟨.equals, line₃⟩ :: rest) ∧ Closes 0 w := by
  rw [startsDefinition.eq_def] at h
  split at h
  · obtain ⟨w, line₂, line₃, rest, rfl, hw⟩ := closes_of_closesBeforeEquals h
    exact ⟨_, _, _, w, line₂, line₃, rest, rfl, hw⟩
  · cases h

lemma countP_neutral (hv : ∀ t ∈ v, Neutral t.lexeme) :
    v.countP (·.lexeme = .leftParen) = 0 ∧ v.countP (·.lexeme = .rightParen) = 0 := by
  simp only [List.countP_eq_zero, decide_eq_true_eq]
  exact ⟨fun t ht => (hv t ht).2.1, fun t ht => (hv t ht).2.2⟩

lemma Closes.unique {line line' : Nat} (hw : Closes 0 w) (hv : ∀ t ∈ v, Neutral t.lexeme)
    (h : w ++ ⟨.rightParen, line⟩ :: rest = v ++ ⟨.rightParen, line'⟩ :: us) : w = v := by
  rcases List.append_eq_append_iff.1 h with ⟨a, rfl, ha⟩ | ⟨a, rfl, ha⟩
  · cases a with
    | nil => rw [List.append_nil]
    | cons t a =>
      cases ha
      exact ((hv _ (List.mem_append_right w List.mem_cons_self)).2.2 rfl).elim
  · cases a with
    | nil => rw [List.append_nil]
    | cons t a =>
      cases ha
      -- Nothing is opened in `v`, so the parenthesis after it would be one too many for `w`.
      obtain ⟨hl, hr⟩ := countP_neutral hv
      have ho := hw.ordered (v ++ [⟨.rightParen, line'⟩]) ⟨a, by simp⟩
      simp [hl, hr] at ho

inductive Due : List Token → Prop
  | nil : Due []
  | more {x : String} {line line' : Nat} {v : List Token} : Due v →
      Due (⟨.identifier x, line⟩ :: ⟨.comma, line'⟩ :: v)

/-- Where a name is due the token is named itself, and after a name the parenthesis is called for. -/
inductive Fault : List Token → Token → ParseCause → Prop
  | parameter {v : List Token} {t : Token} : Due v → (∀ x, t.lexeme ≠ .identifier x) →
      Fault v t (.invalidParameter t.lexeme)
  | separator {v : List Token} {x : String} {line : Nat} {t : Token} : Due v → t.lexeme ≠ .comma →
      t.lexeme ≠ .rightParen →
      Fault (v ++ [⟨.identifier x, line⟩]) t (.unexpectedToken t.lexeme .closingParen)

def Opens (v : List Token) : Prop :=
  ∃ u w xs line, Parameters w xs ∧ v ++ u = w ++ [⟨.rightParen, line⟩]

lemma Due.names (h : Due v) (x : String) (line : Nat) : ∃ xs, Names (v ++ [⟨.identifier x, line⟩]) xs := by
  induction h with
  | nil => exact ⟨_, .one⟩
  | more _ ih =>
    obtain ⟨xs, hx⟩ := ih
    exact ⟨_, .more hx⟩

lemma Due.read (h : Due v) (found : List String) :
    ∃ names, ∀ last us, readNames last found (v ++ us) = readNames last names us := by
  induction h generalizing found with
  | nil => exact ⟨found, fun _ _ => rfl⟩
  | @more x _ _ _ _ ih =>
    obtain ⟨names, hn⟩ := ih (x :: found)
    exact ⟨names, fun last us => (readNames_comma _ _ _ _ _).trans (hn last us)⟩

lemma Fault.opens (h : Fault v t cause) : Opens v := by
  cases h with
  | parameter hv =>
    obtain ⟨xs, hx⟩ := hv.names "" 0
    exact ⟨[⟨.identifier "", 0⟩, ⟨.rightParen, 0⟩], _, xs, 0, .listed hx, by simp⟩
  | separator hv =>
    obtain ⟨xs, hx⟩ := hv.names _ _
    exact ⟨[⟨.rightParen, 0⟩], _, xs, 0, .listed hx, rfl⟩

lemma Fault.read (h : Fault v t cause) (last : Nat) (found : List String) (us : List Token) :
    readNames last found (v ++ t :: us) = .error (⟨cause, t.line⟩, t :: us) := by
  cases h with
  | parameter hv ht =>
    obtain ⟨names, hn⟩ := hv.read found
    obtain ⟨l, line⟩ := t
    rw [hn]
    cases l with
    | identifier x => exact (ht x rfl).elim
    | _ => rfl
  | @separator v x line _ hv hc hr =>
    obtain ⟨names, hn⟩ := hv.read found
    have hc : front (t :: us) ≠ some .comma := by simpa using hc
    have hr : front (t :: us) ≠ some .rightParen := by simpa using hr
    rw [List.append_assoc, hn, List.singleton_append, readNames_of_front_ne _ _ _ hc, take_of_front_ne hr]
    rfl

lemma Fault.front_ne (h : Fault v t cause) (hn : v = [] → t.lexeme ≠ .rightParen) (us : List Token) :
    front (v ++ t :: us) ≠ some .rightParen := by
  cases h with
  | parameter hv _ =>
    cases hv with
    | nil => simpa using hn rfl
    | more _ => nofun
  | separator hv _ _ => cases hv <;> nofun

lemma Fault.not_opens (h : Fault v t cause) (hn : v = [] → t.lexeme ≠ .rightParen) : ¬ Opens (v ++ [t]) := by
  rintro ⟨u, w, xs, line, hw, hu⟩
  have hr : readParameters 0 (w ++ [⟨.rightParen, line⟩]) = .ok (xs, []) := hw.read line []
  rw [← hu, List.append_assoc, List.singleton_append, readParameters, if_neg (h.front_ne hn u), h.read] at hr
  cases hr

lemma Fault.more {x : String} {line line' : Nat} (h : Fault v t cause) :
    Fault (⟨.identifier x, line⟩ :: ⟨.comma, line'⟩ :: v) t cause := by
  cases h with
  | parameter hv ht => exact .parameter (.more hv) ht
  | separator hv hc hr => exact .separator (.more hv) hc hr

lemma names_fault {found : List String} (h : readNames last found ts = .error (e, rest)) :
    (∀ t ∈ ts, Neutral t.lexeme) ∨
      ∃ v t us cause, ts = v ++ t :: us ∧ Fault v t cause ∧ e = ⟨cause, t.line⟩ ∧ rest = t :: us := by
  induction hk : ts.length using Nat.strongRecOn generalizing ts found with
  | ind k ihk =>
    rcases ts with _ | ⟨t, ts⟩
    · exact .inl fun t ht => (List.not_mem_nil ht).elim
    · by_cases hx : ∃ x, t.lexeme = .identifier x
      · obtain ⟨l, line⟩ := t
        obtain ⟨x, rfl⟩ := hx
        by_cases hc : front ts = some .comma
        · obtain ⟨line', ts, rfl⟩ := front_eq_some_iff.1 hc
          rw [readNames_comma] at h
          have hlt : ts.length < k := by
            simp only [List.length_cons] at hk
            omega
          rcases ihk _ hlt h rfl with hn | ⟨v, t, us, cause, rfl, hf, he, hr⟩
          · exact .inl (by simpa [Neutral] using hn)
          · exact .inr ⟨_, t, us, cause, rfl, hf.more, he, hr⟩
        · rw [readNames_of_front_ne _ _ _ hc, bind_eq_error_iff] at h
          rcases h with h | ⟨_, -, ⟨⟩⟩
          cases ts with
          | nil => exact .inl (by simp [Neutral])
          | cons t ts =>
            obtain ⟨hr, ⟨⟩⟩ := take_eq_error_iff.1 h
            refine .inr ⟨[⟨.identifier x, line⟩], t, ts, _, rfl, .separator .nil ?_ ?_, rfl, rfl⟩
            · simpa using hc
            · simpa using hr
      · have hf : Fault [] t (.invalidParameter t.lexeme) := .parameter .nil (not_exists.1 hx)
        have hr := hf.read last found ts
        rw [List.nil_append, h] at hr
        cases hr
        exact .inr ⟨[], t, ts, _, rfl, hf, rfl, rfl⟩

lemma parameters_fault {line : Nat} (hw : Closes 0 w) (hn : ∀ xs, ¬ Parameters w xs) :
    ∃ v t us cause, w ++ [⟨.rightParen, line⟩] = v ++ t :: us ∧ Fault v t cause ∧
      (v = [] → t.lexeme ≠ .rightParen) := by
  cases hr : readParameters 0 (w ++ [⟨.rightParen, line⟩]) with
  | ok r =>
    obtain ⟨v, line', hv, hp⟩ := parameters_sound hr
    rw [hw.unique hp.neutral hv] at hn
    exact (hn _ hp).elim
  | error f =>
    rw [readParameters] at hr
    split at hr
    · cases hr
    · rename_i hf
      rcases names_fault hr with hneutral | ⟨v, t, us, cause, hv, ht, -, -⟩
      · have hp := hneutral ⟨.rightParen, line⟩ (List.mem_append_right w (List.mem_singleton.2 rfl))
        exact (hp.2.2 rfl).elim
      · refine ⟨v, t, us, cause, hv, ht, ?_⟩
        rintro rfl
        rw [hv] at hf
        simpa using hf

lemma Fault.header (h : Fault v t cause) (hn : v = [] → t.lexeme ≠ .rightParen) (last : Nat) (f : String)
    (line line₁ : Nat) (us : List Token) :
    readHeader last (⟨.identifier f, line⟩ :: ⟨.leftParen, line₁⟩ :: (v ++ t :: us)) =
      .error (⟨cause, t.line⟩, t :: us) := by
  rw [readHeader]
  simp only [take_cons_self, ok_bind]
  rw [readParameters, if_neg (h.front_ne hn us), h.read]
  rfl

lemma Fault.readFrom {c line line₁ : Nat} {f : String} (h : Fault v t cause)
    (hn : v = [] → t.lexeme ≠ .rightParen)
    (hb : body (ts.drop c) = ⟨.identifier f, line⟩ :: ⟨.leftParen, line₁⟩ :: (v ++ t :: us)) :
    readFrom readHeader ts c = (.error ⟨cause, t.line⟩, c + v.length + 2) := by
  have hk : finish ts c = c + v.length + 2 + (t :: us).length :=
    finish_append (w := ⟨.identifier f, line⟩ :: ⟨.leftParen, line₁⟩ :: v) hb
  rw [Parser.readFrom, hb, h.header hn, hk]
  exact congrArg (Prod.mk _) (Nat.add_sub_cancel _ _)

lemma Parameters.readFrom {c line line₁ line₂ line₃ : Nat} {f : String} {xs : List String}
    (h : Parameters w xs)
    (hb : body (ts.drop c) = ⟨.identifier f, line⟩ :: ⟨.leftParen, line₁⟩ ::
      (w ++ ⟨.rightParen, line₂⟩ :: ⟨.equals, line₃⟩ :: us)) :
    readFrom readHeader ts c = (.ok ⟨f, xs, line⟩, c + w.length + 4) := by
  have hk : finish ts c = c + w.length + 4 + us.length := by
    rw [finish, hb]
    simp only [List.length_cons, List.length_append]
    omega
  rw [Parser.readFrom, hb, h.header, hk]
  exact congrArg (Prod.mk _) (Nat.add_sub_cancel _ _)

lemma failsAt_of_header {c k : Nat} (hd : startsDefinition (body (ts.drop c)) = true)
    (h : readFrom readHeader ts c = (.error e, k)) (hc : Reaches ts c) : FailsAt ts c k e := by
  refine ⟨hc, ?_, ?_⟩
  · rcases body_drop_cases ts c with ⟨-, hb⟩ | ⟨hp, -⟩
    · rw [hb] at hd
      cases hd
    · exact hp
  · rw [readFrom] at h ⊢
    rw [readStatement, if_pos hd]
    cases hh : readHeader (peek ts (finish ts c)).line (body (ts.drop c)) with
    | ok r =>
      rw [hh] at h
      cases h
    | error f =>
      rw [hh] at h
      cases h
      rfl

lemma readStatement_error_cases (h : readStatement last ts = .error (e, rest)) :
    (∃ x : Expectation, x.ofExpression ∧ e = unexpected last x rest) ∨
      ∃ v t cause, Fault v t cause ∧ e = ⟨cause, t.line⟩ := by
  rw [readStatement] at h
  split at h
  · rename_i hd
    rw [bind_eq_error_iff] at h
    rcases h with h | ⟨⟨hd, us⟩, -, h⟩
    · obtain ⟨f, line, line₁, w, line₂, line₃, us, rfl, hw⟩ := header_parts hd
      by_cases hp : ∃ xs, Parameters w xs
      · obtain ⟨xs, hp⟩ := hp
        rw [hp.header] at h
        cases h
      · obtain ⟨v, t, vs, cause, hv, ht, hn⟩ := parameters_fault hw (not_exists.1 hp)
        rw [List.append_cons w, hv, List.append_assoc, List.cons_append, ht.header hn] at h
        cases h
        exact .inr ⟨v, t, cause, ht, rfl⟩
    · rw [bind_eq_error_iff] at h
      rcases h with h | ⟨_, -, ⟨⟩⟩
      obtain ⟨-, x, -, hx, he, -⟩ := readExpression_eq_error h
      exact .inl ⟨x, hx, he⟩
  · rw [bind_eq_error_iff] at h
    rcases h with h | ⟨_, -, ⟨⟩⟩
    obtain ⟨-, x, -, hx, he, -⟩ := readExpression_eq_error h
    exact .inl ⟨x, hx, he⟩

lemma ofExpression_of_parse {x : Expectation} (h : parse ts = .error e)
    (hx : e.cause = .unexpectedEnd x ∨ ∃ l, e.cause = .unexpectedToken l x) : x.ofExpression := by
  obtain ⟨c, k, hf⟩ := parse_eq_error_iff_failsAt.1 h
  obtain ⟨last, rest, hr, -⟩ := readFrom_eq_error hf.error
  rcases readStatement_error_cases hr with ⟨y, hy, rfl⟩ | ⟨v, t, cause, ht, rfl⟩
  · obtain rfl : y = x := by cases rest <;> simpa [unexpected] using hx
    exact hy
  · cases ht with
    | parameter _ _ => simp at hx
    | separator _ _ _ =>
      obtain rfl : .closingParen = x := by simpa using hx
      rfl

theorem header_read_or_fault (ts : List Token) :
    (∀ c, startsDefinition (body (ts.drop c)) = true →
      ∃ f line line₁ w line₂ line₃ rest,
        body (ts.drop c) = ⟨.identifier f, line⟩ :: ⟨.leftParen, line₁⟩ ::
          (w ++ ⟨.rightParen, line₂⟩ :: ⟨.equals, line₃⟩ :: rest) ∧ Closes 0 w ∧
        (∀ xs, Parameters w xs → readFrom readHeader ts c = (.ok ⟨f, xs, line⟩, c + w.length + 4)) ∧
        ((∀ xs, ¬ Parameters w xs) → ∃ v t us cause, w ++ [⟨.rightParen, line₂⟩] = v ++ t :: us ∧
          Opens v ∧ ¬ Opens (v ++ [t]) ∧ Fault v t cause ∧
          readFrom readHeader ts c = (.error ⟨cause, t.line⟩, c + v.length + 2) ∧
          (Reaches ts c → FailsAt ts c (c + v.length + 2) ⟨cause, t.line⟩ ∧
            parse ts = .error ⟨cause, t.line⟩)) ∧
        ∀ x line k, readFrom readHeader ts c ≠ (.error ⟨.unexpectedEnd x, line⟩, k)) ∧
    ∀ e x, parse ts = .error e →
      x ∈ [.functionName, .openingParenAfterName, .equalsAfterParameters, .parameterName] →
      e.cause ≠ .unexpectedEnd x ∧ ∀ l, e.cause ≠ .unexpectedToken l x := by
  constructor
  · intro c hd
    obtain ⟨f, line, line₁, w, line₂, line₃, rest, hb, hw⟩ := header_parts hd
    have hok (xs : List String) (hp : Parameters w xs) :
        readFrom readHeader ts c = (.ok ⟨f, xs, line⟩, c + w.length + 4) := hp.readFrom hb
    have herr (hn : ∀ xs, ¬ Parameters w xs) :
        ∃ v t us cause, w ++ [⟨.rightParen, line₂⟩] = v ++ t :: us ∧
          Opens v ∧ ¬ Opens (v ++ [t]) ∧ Fault v t cause ∧
          readFrom readHeader ts c = (.error ⟨cause, t.line⟩, c + v.length + 2) := by
      obtain ⟨v, t, us, cause, hv, ht, hn⟩ := parameters_fault hw hn
      rw [List.append_cons w, hv, List.append_assoc, List.cons_append] at hb
      exact ⟨v, t, us, cause, hv, ht.opens, ht.not_opens hn, ht, ht.readFrom hn hb⟩
    refine ⟨f, line, line₁, w, line₂, line₃, rest, hb, hw, hok, fun hn => ?_, fun x line k he => ?_⟩
    · obtain ⟨v, t, us, cause, hv, ho, hno, ht, hr⟩ := herr hn
      refine ⟨v, t, us, cause, hv, ho, hno, ht, hr, fun hc => ?_⟩
      have hf := failsAt_of_header hd hr hc
      exact ⟨hf, hf.parse_eq⟩
    · by_cases hp : ∃ xs, Parameters w xs
      · obtain ⟨xs, hp⟩ := hp
        rw [hok xs hp] at he
        cases he
      · obtain ⟨v, t, us, cause, -, -, -, ht, hr⟩ := herr (not_exists.1 hp)
        rw [hr] at he
        cases he
        cases ht
  · intro e x h hx
    have hne (hc : e.cause = .unexpectedEnd x ∨ ∃ l, e.cause = .unexpectedToken l x) : False := by
      have hx' := ofExpression_of_parse h hc
      simp only [List.mem_cons, List.not_mem_nil, or_false] at hx
      rcases hx with rfl | rfl | rfl | rfl <;> cases hx'
    exact ⟨fun hc => hne (.inl hc), fun l hc => hne (.inr ⟨l, hc⟩)⟩

def nestedHeader : List Token :=
  [⟨.integer 2, 1⟩, ⟨.identifier "f", 2⟩, ⟨.leftParen, 2⟩, ⟨.identifier "x", 2⟩, ⟨.comma, 2⟩,
    ⟨.identifier "g", 3⟩, ⟨.leftParen, 4⟩, ⟨.identifier "y", 4⟩, ⟨.rightParen, 4⟩, ⟨.rightParen, 4⟩,
    ⟨.equals, 4⟩, ⟨.integer 1, 5⟩]

theorem header_read_or_fault_nestedHeader :
    startsDefinition (body (nestedHeader.drop 1)) = true ∧ Reaches nestedHeader 1 ∧
      (∃ v t, v.length = 3 ∧ t.line = 4 ∧ Opens v ∧ ¬ Opens (v ++ [t]) ∧
        Fault v t (.unexpectedToken .leftParen .closingParen)) ∧
      FailsAt nestedHeader 1 6 ⟨.unexpectedToken .leftParen .closingParen, 4⟩ ∧
        parse nestedHeader = .error ⟨.unexpectedToken .leftParen .closingParen, 4⟩ := by
  have hd : startsDefinition (body (nestedHeader.drop 1)) = true := by cbv
  have hs : readFrom readStatement nestedHeader 0 = (.ok (.expression (.literal (.integer 2) 1) 1), 1) := by
    cbv
  have hc : Reaches nestedHeader 1 := .next .start hs
  have he : readFrom readHeader nestedHeader 1 =
      (.error ⟨.unexpectedToken .leftParen .closingParen, 4⟩, 6) := rfl
  obtain ⟨f, line, line₁, w, line₂, line₃, rest, -, -, hok, hn, -⟩ :=
    (header_read_or_fault nestedHeader).1 1 hd
  have hp (xs : List String) : ¬ Parameters w xs := by
    intro hp
    rw [hok xs hp] at he
    cases he
  obtain ⟨v, t, us, cause, -, ho, hno, ht, hr, hf⟩ := hn hp
  rw [he, Prod.mk.injEq, Except.error.injEq, ParseError.mk.injEq] at hr
  obtain ⟨⟨rfl, hl⟩, hk⟩ := hr
  obtain ⟨hf, hparse⟩ := hf hc
  rw [← hl, ← hk] at hf
  rw [← hl] at hparse
  exact ⟨hd, hc, ⟨v, t, by omega, hl.symm, ho, hno, ht⟩, hf, hparse⟩

end ExprLang.Grammar
