import ExprLang.Token.Lexer
import Mathlib.Tactic.Lemma

/-! How a text falls into lexemes when the longest is taken at each place. -/

namespace ExprLang.Lexing

inductive Kind
  | blank | comment | identifier | number | symbol

def symbols : List (Char × Lexeme) :=
  [('!', .boolean true), ('?', .boolean false), ('(', .leftParen), (')', .rightParen),
    ('[', .leftBracket), (']', .rightBracket), (',', .comma), ('=', .equals), ('+', .plus),
    ('-', .minus), ('*', .star), ('/', .slash), ('^', .caret), ('>', .greater), ('<', .less),
    ('&', .ampersand), ('|', .pipe)]

inductive Word : Kind → List Char → Prop
  | blank {c w} : (∀ d ∈ c :: w, Text.isBlank d) → Word .blank (c :: w)
  | comment {w} : (∀ d ∈ w, d ≠ '\'') → Word .comment ('\'' :: (w ++ ['\'']))
  | identifier {c w} : c = '_' ∨ Text.isLetter c → (∀ d ∈ w, Text.isLetter d) →
      Word .identifier (c :: w)
  | number {c w} : (∀ d ∈ c :: w, d.isDigit) → Word .number (c :: w)
  | symbol {c l} : (c, l) ∈ symbols → Word .symbol [c]

structure Piece where
  kind : Kind
  word : List Char

namespace Piece

structure Longest (p : Piece) (text : List Char) : Prop where
  isWord : Word p.kind p.word
  initial : p.word <+: text
  longest : ∀ k w, Word k w → w <+: text → w.length ≤ p.word.length

def Fits (p : Piece) : Prop :=
  p.kind = .number → (Text.readDigits p.word : Int) ≤ Int64.maxValue.toInt

def lexeme? : Piece → Option Lexeme
  | ⟨.identifier, w⟩ => some (.identifier (String.ofList w))
  | ⟨.number, w⟩ => some (.integer (Int64.ofNat (Text.readDigits w)))
  | ⟨.symbol, [c]⟩ => symbols.lookup c
  | _ => none

end Piece

inductive Munches : List Char → List Piece → List Char → Prop
  | stop {text} : Munches text [] text
  | take {p text ps rest} : p.Longest (p.word ++ text) → Munches text ps rest →
      Munches (p.word ++ text) (p :: ps) rest

inductive Fails : List Char → LexCause → Prop
  | tooLarge {p : Piece} {text} : p.Longest text → ¬ p.Fits → Fails text (.integerTooLarge p.word)
  | unterminated {cs} : '\'' ∉ cs → Fails ('\'' :: cs) .unterminatedComment
  | unexpected {c cs} : (∀ k w, ¬ Word k (c :: w)) → Fails (c :: cs) (.unexpectedCharacter c)

def newlines (ps : List Piece) : Nat := (ps.flatMap (·.word)).count '\n'

def tokens : Nat → List Piece → List Token
  | _, [] => []
  | line, p :: ps => p.lexeme?.toList.map (⟨·, line⟩) ++ tokens (line + p.word.count '\n') ps

lemma Munches.text {text rest : List Char} {ps : List Piece} (h : Munches text ps rest) :
    ps.flatMap (·.word) ++ rest = text := by
  induction h with
  | stop => rfl
  | take _ _ ih => rw [List.flatMap_cons, List.append_assoc, ih]

def digits : Text.Ranges := [('0'.toNat, '9'.toNat)]

lemma contains_digits (c : Char) : digits.contains c.toNat = c.isDigit := by
  simp only [digits, Text.Ranges.contains, Char.isDigit, Bool.or_false, UInt32.le_iff_toNat_le,
    ge_iff_le]
  rfl

lemma not_isBlank_of_isDigit {c : Char} (h : c.isDigit) : Text.isBlank c = false := by
  have ha : digits.Apart Text.blanks := by decide
  rw [← contains_digits] at h
  exact ha.contains_eq_false h

lemma startsIdentifier_iff {c : Char} : startsIdentifier c ↔ c = '_' ∨ Text.isLetter c := by
  simp [startsIdentifier]

lemma not_isBlank_of_startsIdentifier {c : Char} (h : startsIdentifier c) : Text.isBlank c = false := by
  have ha : Text.letters.Apart Text.blanks := by decide +kernel
  rcases startsIdentifier_iff.1 h with rfl | h
  · rfl
  · exact ha.contains_eq_false h

lemma not_isDigit_of_startsIdentifier {c : Char} (h : startsIdentifier c) : c.isDigit = false := by
  have ha : Text.letters.Apart digits := by decide +kernel
  rcases startsIdentifier_iff.1 h with rfl | h
  · rfl
  · rw [← contains_digits]
    exact ha.contains_eq_false h

def Kind.of? (c : Char) : Option Kind :=
  if (symbols.lookup c).isSome then some .symbol
  else if c = '\'' then some .comment
  else if Text.isBlank c then some .blank
  else if c.isDigit then some .number
  else if startsIdentifier c then some .identifier
  else none

lemma Kind.of?_of_class {p : Char → Bool} {c : Char} (hs : ∀ s ∈ symbols, p s.1 = false)
    (hq : p '\'' = false) (hc : p c) :
    Kind.of? c = if Text.isBlank c then some .blank
      else if c.isDigit then some .number
      else if startsIdentifier c then some .identifier
      else none := by
  have ne {d : Char} (hd : p d = false) : c ≠ d := by
    rintro rfl
    rw [hd] at hc
    cases hc
  have hl : symbols.lookup c = none := by
    rw [List.lookup_eq_none_iff]
    intro s hm
    exact bne_iff_ne.2 (ne (hs s hm))
  rw [Kind.of?, hl, Option.isSome_none, if_neg Bool.false_ne_true, if_neg (ne hq)]

namespace Word

variable {k k' : Kind} {c : Char} {w w' : List Char}

lemma of?_eq (h : Word k (c :: w)) : Kind.of? c = some k := by
  generalize hv : c :: w = v at h
  cases h with
  | blank h =>
    cases hv
    have hc := h c List.mem_cons_self
    rw [Kind.of?_of_class (by decide) rfl hc, if_pos hc]
  | comment h =>
    cases hv
    rfl
  | identifier h _ =>
    cases hv
    have hc : startsIdentifier c := startsIdentifier_iff.2 h
    rw [Kind.of?_of_class (by decide) rfl hc, not_isBlank_of_startsIdentifier hc,
      not_isDigit_of_startsIdentifier hc, hc]
    rfl
  | number h =>
    cases hv
    have hc := h c List.mem_cons_self
    rw [Kind.of?_of_class (by decide) rfl hc, not_isBlank_of_isDigit hc, hc]
    rfl
  | symbol h =>
    cases hv
    have hs : (symbols.lookup c).isSome := List.lookup_isSome_iff.2 ⟨_, h, beq_self_eq_true c⟩
    rw [Kind.of?, if_pos hs]

lemma kind_unique (h : Word k (c :: w)) (h' : Word k' (c :: w')) : k = k' :=
  Option.some.inj (h.of?_eq.symm.trans h'.of?_eq)

lemma exists_cons (h : Word k w) : ∃ c v, w = c :: v := by
  cases h <;> exact ⟨_, _, rfl⟩

lemma mem_quote (h : Word k ('\'' :: w)) : '\'' ∈ w := by
  generalize hv : '\'' :: w = v at h
  have hk : some Kind.comment = some k := by
    rw [← hv] at h
    exact h.of?_eq
  cases hk
  cases h
  cases hv
  simp

end Word

namespace Piece.Longest

variable {p q : Piece} {c : Char} {text cs : List Char}

lemma length_le (hp : p.Longest text) (hq : q.Longest text) : p.word.length ≤ q.word.length :=
  hq.longest _ _ hp.isWord hp.initial

lemma unique (hp : p.Longest text) (hq : q.Longest text) : p = q := by
  have hl : p.word.length = q.word.length := Nat.le_antisymm (hp.length_le hq) (hq.length_le hp)
  have hw : p.word = q.word :=
    (List.prefix_of_prefix_length_le hp.initial hq.initial (Nat.le_of_eq hl)).eq_of_length hl
  obtain ⟨k, w⟩ := p
  obtain ⟨k', w'⟩ := q
  cases hw
  obtain ⟨c, v, rfl⟩ := hp.isWord.exists_cons
  have hk : k = k' := hp.isWord.kind_unique hq.isWord
  rw [hk]

lemma exists_cons (h : p.Longest (c :: cs)) : ∃ w, p.word = c :: w ∧ w <+: cs := by
  obtain ⟨d, w, hw⟩ := h.isWord.exists_cons
  have hi := h.initial
  rw [hw, List.cons_prefix_cons] at hi
  obtain ⟨rfl, hi⟩ := hi
  exact ⟨w, hw, hi⟩

end Piece.Longest

namespace Fails

variable {p : Piece} {text : List Char} {cause cause' : LexCause}

lemma exists_cons (h : Fails text cause) : ∃ c cs, text = c :: cs := by
  cases h with
  | tooLarge hp _ =>
    obtain ⟨c, w, hw⟩ := hp.isWord.exists_cons
    obtain ⟨cs, rfl⟩ := hp.initial
    exact ⟨c, w ++ cs, by rw [hw, List.cons_append]⟩
  | unterminated _ => exact ⟨_, _, rfl⟩
  | unexpected _ => exact ⟨_, _, rfl⟩

lemma of_longest (h : Fails text cause) (hp : p.Longest text) :
    ¬ p.Fits ∧ cause = .integerTooLarge p.word := by
  cases h with
  | tooLarge hq hf =>
    cases hq.unique hp
    exact ⟨hf, rfl⟩
  | unterminated hc =>
    obtain ⟨w, hw, hi⟩ := hp.exists_cons
    have hq : Word p.kind ('\'' :: w) := hw ▸ hp.isWord
    exact (hc (hi.subset hq.mem_quote)).elim
  | unexpected hc =>
    obtain ⟨w, hw, _⟩ := hp.exists_cons
    exact (hc _ _ (hw ▸ hp.isWord)).elim

lemma unique (h : Fails text cause) (h' : Fails text cause') : cause = cause' := by
  have hc : Word .comment ['\'', '\''] := .comment (w := []) nofun
  cases h with
  | tooLarge hp hf => exact (h'.of_longest hp).2.symm
  | unterminated hq =>
    cases h' with
    | tooLarge hp _ => exact ((unterminated hq).of_longest hp).2
    | unterminated _ => rfl
    | unexpected hn => exact (hn _ _ hc).elim
  | unexpected hn =>
    cases h' with
    | tooLarge hp _ => exact ((unexpected hn).of_longest hp).2
    | unterminated _ => exact (hn _ _ hc).elim
    | unexpected _ => rfl

end Fails

end ExprLang.Lexing
