import ExprLang.Error
import ExprLang.Text.Blank
import ExprLang.Text.Letter

/-! At each place the longest lexeme is taken; its first character settles its kind. -/

namespace ExprLang

structure Scan where
  found : Except LexCause Lexeme
  chars : List Char
  rest : List Char

namespace Scan

def run (p : Char → Bool) (c : Char) (cs : List Char) (found : List Char → Except LexCause Lexeme) :
    Scan :=
  let chars := c :: cs.takeWhile p
  ⟨found chars, chars, cs.dropWhile p⟩

def integer (ds : List Char) : Except LexCause Lexeme :=
  match Text.readBelow? (Int64.size / 2) ds with
  | some n => .ok (.integer (Int64.ofNat n))
  | none => .error (.integerTooLarge ds)

def comment (cs : List Char) : Scan :=
  match cs.dropWhile (· != '\'') with
  | [] => ⟨.error .unterminatedComment, '\'' :: cs, []⟩
  | q :: rest => ⟨.ok .comment, '\'' :: (cs.takeWhile (· != '\'') ++ [q]), rest⟩

end Scan

def startsIdentifier (c : Char) : Bool := c == '_' || Text.isLetter c

def scan (c : Char) (cs : List Char) : Scan :=
  match Lexeme.ofSymbol? c with
  | some l => ⟨.ok l, [c], cs⟩
  | none =>
    if c = '\'' then Scan.comment cs
    else if Text.isBlank c then Scan.run Text.isBlank c cs fun _ => .ok .blank
    else if c.isDigit then Scan.run Char.isDigit c cs Scan.integer
    else if startsIdentifier c then
      Scan.run Text.isLetter c cs fun cs => .ok (.identifier (String.ofList cs))
    else ⟨.error (.unexpectedCharacter c), [c], cs⟩

theorem scan_length_lt (c : Char) (cs : List Char) : (scan c cs).rest.length < (c :: cs).length := by
  have drop (p : Char → Bool) : (cs.dropWhile p).length ≤ cs.length :=
    (List.dropWhile_sublist p).length_le
  rw [List.length_cons, Nat.lt_succ_iff]
  unfold scan
  split
  · exact Nat.le_refl _
  · split
    · unfold Scan.comment
      split
      · exact Nat.zero_le _
      · rename_i q rest h
        have := drop (· != '\'')
        rw [h, List.length_cons] at this
        exact Nat.le_of_succ_le this
    · repeat' split
      all_goals first | exact drop _ | exact Nat.le_refl _

def tokensFrom (line : Nat) (found : List Token) : List Char → Except LexError (List Token)
  | [] => .ok (⟨.endOfInput, line⟩ :: found).reverse
  | c :: cs =>
    let s := scan c cs
    match s.found with
    | .error cause => .error ⟨cause, line⟩
    | .ok l => tokensFrom (line + s.chars.count '\n') (if l.isTrivia then found else ⟨l, line⟩ :: found) s.rest
termination_by cs => cs.length
decreasing_by exact scan_length_lt c cs

def tokenize (source : String) : Except LexError (List Token) := tokensFrom 1 [] source.toList

end ExprLang
