import ExprLang.Parser.Lemmas
import Mathlib.Tactic.Lemma

/-! The grammar as a relation between tokens and trees. -/

namespace ExprLang

def Lexeme.resumes : Lexeme → Bool
  | integer _ | boolean _ | identifier _ => true
  | _ => false

def Lexeme.begins : Lexeme → Bool
  | leftParen | leftBracket | minus => true
  | l => l.resumes

namespace Grammar

inductive Operator : Nat → Lexeme → BinaryOp → Prop
  | mul : Operator 0 .star .mul
  | div : Operator 0 .slash .div
  | add : Operator 1 .plus .add
  | sub : Operator 1 .minus .sub
  | greater : Operator 2 .greater .greater
  | less : Operator 2 .less .less
  | equal : Operator 3 .caret .equal
  | and : Operator 4 .ampersand .and
  | or : Operator 5 .pipe .or

mutual

/-- Operators of levels below `n` around unary expressions; at level 6 these are all expressions. -/
inductive Binary : Nat → List Token → Expr → Prop
  | unary {w e} : Unary w e → Binary 0 w e
  | operand {n w e} : Binary n w e → Binary (n + 1) w e
  | apply {n w a l op line v b} : Binary (n + 1) w a → Operator n l op → Binary n v b →
      Binary (n + 1) (w ++ ⟨l, line⟩ :: v) (.binary op a b line)

inductive Unary : List Token → Expr → Prop
  | negate {w e line} : Unary w e → Unary (⟨.minus, line⟩ :: w) (.negate e line)
  | trailed {w e} : Trailed w e → Unary w e

inductive Trailed : List Token → Expr → Prop
  | primary {w e} : Primary w e → Trailed w e
  | call {w f line v es close} : Trailed w f → Arguments v es →
      Trailed (w ++ ⟨.leftParen, line⟩ :: (v ++ [⟨.rightParen, close⟩])) (.call f es line)
  | index {w a line v i close} : Trailed w a → Binary 6 v i →
      Trailed (w ++ ⟨.leftBracket, line⟩ :: (v ++ [⟨.rightBracket, close⟩])) (.index a i line)

inductive Primary : List Token → Expr → Prop
  | integer {k line} : Primary [⟨.integer k, line⟩] (.literal (.integer k) line)
  | boolean {b line} : Primary [⟨.boolean b, line⟩] (.literal (.boolean b) line)
  | identifier {x line} : Primary [⟨.identifier x, line⟩] (.identifier x line)
  | group {w e line close} : Binary 6 w e →
      Primary (⟨.leftParen, line⟩ :: (w ++ [⟨.rightParen, close⟩])) e
  | vector {w es line close} : Arguments w es →
      Primary (⟨.leftBracket, line⟩ :: (w ++ [⟨.rightBracket, close⟩])) (.vector es.toArray line)

inductive Arguments : List Token → List Expr → Prop
  | empty : Arguments [] []
  | listed {w es} : Sequence w es → Arguments w es

inductive Sequence : List Token → List Expr → Prop
  | one {w e} : Binary 6 w e → Sequence w [e]
  | more {w e line v es} : Binary 6 w e → Sequence v es →
      Sequence (w ++ ⟨.comma, line⟩ :: v) (e :: es)

end

inductive Names : List Token → List String → Prop
  | one {x line} : Names [⟨.identifier x, line⟩] [x]
  | more {x line line' w xs} : Names w xs →
      Names (⟨.identifier x, line⟩ :: ⟨.comma, line'⟩ :: w) (x :: xs)

inductive Parameters : List Token → List String → Prop
  | empty : Parameters [] []
  | listed {w xs} : Names w xs → Parameters w xs

inductive Sentence : List Token → Statement → Prop
  | definition {f line line₁ v params line₂ line₃ w e} : Parameters v params → Binary 6 w e →
      Sentence (⟨.identifier f, line⟩ :: ⟨.leftParen, line₁⟩ ::
        (v ++ ⟨.rightParen, line₂⟩ :: ⟨.equals, line₃⟩ :: w)) (.definition ⟨f, params, e, line⟩)
  | expression {t w e} : Binary 6 (t :: w) e → Sentence (t :: w) (.expression e t.line)

inductive Following : List Token → Program → Prop
  | nil : Following [] []
  | cons {t w s v p} : t.lexeme.resumes → Sentence (t :: w) s → Following v p →
      Following (t :: w ++ v) (s :: p)

inductive Derives : List Token → Program → Prop
  | nil : Derives [] []
  | cons {w s v p} : Sentence w s → Following v p → Derives (w ++ v) (s :: p)

open ExprLang.Parser

lemma Primary.front {w : List Token} {e : Expr} (h : Primary w e) :
    ∃ l, front w = some l ∧ l.begins ∧ l ≠ .minus := by
  cases h <;> exact ⟨_, rfl, rfl, nofun⟩

lemma Trailed.front {w : List Token} {e : Expr} :
    Trailed w e → ∃ l, front w = some l ∧ l.begins ∧ l ≠ .minus
  | .primary h => h.front
  | .call h _ | .index h _ =>
    have ⟨l, hl, hb⟩ := h.front
    ⟨l, front_append hl _, hb⟩

lemma Unary.front {w : List Token} {e : Expr} (h : Unary w e) :
    ∃ l, front w = some l ∧ l.begins := by
  cases h with
  | negate _ => exact ⟨_, rfl, rfl⟩
  | trailed h =>
    obtain ⟨l, hl, hb, _⟩ := h.front
    exact ⟨l, hl, hb⟩

lemma Binary.front {n : Nat} {w : List Token} {e : Expr} :
    Binary n w e → ∃ l, front w = some l ∧ l.begins
  | .unary h => h.front
  | .operand h => h.front
  | .apply h _ _ =>
    have ⟨l, hl, hb⟩ := h.front
    ⟨l, front_append hl _, hb⟩

lemma Sequence.front {w : List Token} {es : List Expr} (h : Sequence w es) :
    ∃ l, front w = some l ∧ l.begins := by
  cases h with
  | one h => exact h.front
  | more h _ =>
    obtain ⟨l, hl, hb⟩ := h.front
    exact ⟨l, front_append hl _, hb⟩

lemma Sentence.front {w : List Token} {s : Statement} (h : Sentence w s) :
    ∃ l, front w = some l ∧ l.begins := by
  cases h with
  | definition _ _ => exact ⟨_, rfl, rfl⟩
  | expression h => exact h.front

structure Closed (w : List Token) : Prop where
  ordinary : ∀ t ∈ w, t.lexeme ≠ .equals
  balanced : w.countP (·.lexeme = .leftParen) = w.countP (·.lexeme = .rightParen)

lemma Closed.nil : Closed [] := ⟨nofun, rfl⟩

lemma Closed.append {w v : List Token} (hw : Closed w) (hv : Closed v) : Closed (w ++ v) := by
  refine ⟨fun t ht => ?_, ?_⟩
  · exact (List.mem_append.1 ht).elim (hw.ordinary t) (hv.ordinary t)
  · rw [List.countP_append, List.countP_append, hw.balanced, hv.balanced]

def Neutral (l : Lexeme) : Prop :=
  l ≠ .equals ∧ l ≠ .leftParen ∧ l ≠ .rightParen

lemma Closed.single {l : Lexeme} (line : Nat) (h : Neutral l) : Closed [⟨l, line⟩] := by
  obtain ⟨he, hl, hr⟩ := h
  exact ⟨by simp [he], by simp [hl, hr]⟩

lemma Closed.cons {l : Lexeme} {w : List Token} (line : Nat) (h : Neutral l) (hw : Closed w) :
    Closed (⟨l, line⟩ :: w) :=
  (Closed.single line h).append hw

lemma Closed.parens {w : List Token} (line close : Nat) (hw : Closed w) :
    Closed (⟨.leftParen, line⟩ :: (w ++ [⟨.rightParen, close⟩])) := by
  refine ⟨fun t ht => ?_, ?_⟩
  · rcases List.mem_cons.1 ht with rfl | ht
    · exact nofun
    · rcases List.mem_append.1 ht with ht | ht
      · exact hw.ordinary t ht
      · rw [List.mem_singleton.1 ht]
        exact nofun
  · have hb := hw.balanced
    simp [hb]

lemma Closed.brackets {w : List Token} (line close : Nat) (hw : Closed w) :
    Closed (⟨.leftBracket, line⟩ :: (w ++ [⟨.rightBracket, close⟩])) :=
  .cons line ⟨nofun, nofun, nofun⟩ (hw.append (.single close ⟨nofun, nofun, nofun⟩))

lemma Operator.neutral {n : Nat} {l : Lexeme} {op : BinaryOp} (h : Operator n l op) : Neutral l := by
  cases h <;> exact ⟨nofun, nofun, nofun⟩

mutual

lemma Binary.closed {n : Nat} {w : List Token} {e : Expr} : Binary n w e → Closed w
  | .unary h => h.closed
  | .operand h => h.closed
  | .apply hl ho hr => hl.closed.append (.cons _ ho.neutral hr.closed)

lemma Unary.closed {w : List Token} {e : Expr} : Unary w e → Closed w
  | .negate h => .cons _ ⟨nofun, nofun, nofun⟩ h.closed
  | .trailed h => h.closed

lemma Trailed.closed {w : List Token} {e : Expr} : Trailed w e → Closed w
  | .primary h => h.closed
  | .call h ha => h.closed.append (.parens _ _ ha.closed)
  | .index h hi => h.closed.append (.brackets _ _ hi.closed)

lemma Primary.closed {w : List Token} {e : Expr} : Primary w e → Closed w
  | .integer | .boolean | .identifier => .single _ ⟨nofun, nofun, nofun⟩
  | .group h => .parens _ _ h.closed
  | .vector h => .brackets _ _ h.closed

lemma Arguments.closed {w : List Token} {es : List Expr} : Arguments w es → Closed w
  | .empty => .nil
  | .listed h => h.closed

lemma Sequence.closed {w : List Token} {es : List Expr} : Sequence w es → Closed w
  | .one h => h.closed
  | .more h hs => h.closed.append (.cons _ ⟨nofun, nofun, nofun⟩ hs.closed)

end

lemma Names.neutral {w : List Token} {xs : List String} (h : Names w xs) :
    ∀ t ∈ w, Neutral t.lexeme := by
  induction h with
  | one => simp [Neutral]
  | more _ ih =>
    intro t ht
    rcases List.mem_cons.1 ht with rfl | ht
    · exact ⟨nofun, nofun, nofun⟩
    · rcases List.mem_cons.1 ht with rfl | ht
      · exact ⟨nofun, nofun, nofun⟩
      · exact ih t ht

lemma Parameters.neutral {w : List Token} {xs : List String} (h : Parameters w xs) :
    ∀ t ∈ w, Neutral t.lexeme := by
  cases h with
  | empty => exact nofun
  | listed h => exact h.neutral

/-- What comes next does not carry on an expression of level `n`. -/
def Stops (n : Nat) (ts : List Token) : Prop :=
  ∀ l, Parser.front ts = some l →
    l ≠ .leftParen ∧ l ≠ .leftBracket ∧ ∀ m op, Operator m l op → n ≤ m

def Fresh (ts : List Token) : Prop := ∀ l, Parser.front ts = some l → l.resumes

lemma Stops.mono {m n : Nat} {ts : List Token} (h : Stops n ts) (hm : m ≤ n) : Stops m ts := by
  intro l hl
  obtain ⟨hp, hb, ho⟩ := h l hl
  exact ⟨hp, hb, fun k op hk => Nat.le_trans hm (ho k op hk)⟩

lemma Fresh.stops {ts : List Token} (h : Fresh ts) (n : Nat) : Stops n ts := by
  intro l hl
  have hr := h l hl
  refine ⟨?_, ?_, fun m op ho => ?_⟩
  · rintro rfl
    exact absurd hr nofun
  · rintro rfl
    exact absurd hr nofun
  · cases ho <;> exact absurd hr nofun

lemma Operator.level_lt {n : Nat} {l : Lexeme} {op : BinaryOp} (h : Operator n l op) : n < 6 := by
  cases h <;> decide

lemma operatorAt?_eq_some_iff {n : Nat} {l : Lexeme} {op : BinaryOp} :
    operatorAt? n l = some op ↔ Operator n l op := by
  constructor
  · intro h
    obtain ⟨ho, hn⟩ := Option.filter_eq_some_iff.1 h
    have hn : op.level = n := eq_of_beq hn
    subst hn
    cases l <;> cases ho <;> constructor
  · intro h
    cases h <;> rfl

variable {last n : Nat} {ts : List Token}

lemma readChain_apply {l : Lexeme} {op : BinaryOp} (h : Operator n l op) (left : Expr) (line : Nat)
    (ts : List Token) :
    readChain last n left (⟨l, line⟩ :: ts) = (do
      let (right, rest) ← readBelow last n ts
      readChain last n (.binary op left right line) rest) := by
  rw [readChain_eq, chainStep, operatorAt?_eq_some_iff.2 h]

lemma readChain_stop (h : Stops (n + 1) ts) (left : Expr) :
    readChain last n left ts = .ok (left, ts) := by
  rw [readChain_eq]
  cases ts with
  | nil => rfl
  | cons t ts =>
    rw [chainStep]
    cases ho : operatorAt? n t.lexeme with
    | none => rfl
    | some op =>
      have hn := (h _ rfl).2.2 n op (operatorAt?_eq_some_iff.1 ho)
      omega

lemma readTrailers_stops (h : Stops 0 ts) (e : Expr) : readTrailers last e ts = .ok (e, ts) :=
  readTrailers_stop e (fun hl => (h _ hl).1 rfl) (fun hl => (h _ hl).2.1 rfl)

end Grammar

end ExprLang
