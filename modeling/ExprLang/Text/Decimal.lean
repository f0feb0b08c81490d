namespace ExprLang.Text

def decimal (n : Int) : String := n.repr

def readDigits (ds : List Char) : Nat := Nat.ofDigitChars 10 ds 0

def extendBelow? (limit n : Nat) (c : Char) : Option Nat :=
  let m := 10 * n + (c.toNat - '0'.toNat)
  if m < limit then some m else none

def readBelow? (limit : Nat) (ds : List Char) : Option Nat := ds.foldlM (extendBelow? limit) 0

theorem decimal_ofNat (n : Nat) : (decimal n).toList = Nat.toDigits 10 n := by
  simp [decimal, Int.repr, Nat.repr]

theorem decimal_negSucc (n : Nat) :
    (decimal (Int.negSucc n)).toList = '-' :: Nat.toDigits 10 (n + 1) := by
  simp [decimal, Int.repr, Nat.repr]

theorem readDigits_toDigits (n : Nat) : readDigits (Nat.toDigits 10 n) = n :=
  Nat.ofDigitChars_toDigits (by decide) (by decide)

theorem le_ofDigitChars (ds : List Char) (n : Nat) : n ≤ Nat.ofDigitChars 10 ds n := by
  induction ds generalizing n with
  | nil => exact Nat.le_refl _
  | cons c ds ih => exact Nat.le_trans (by omega) (ih (10 * n + (c.toNat - '0'.toNat)))

theorem foldlM_extendBelow? (limit : Nat) (ds : List Char) (n : Nat) (h : n < limit) :
    ds.foldlM (extendBelow? limit) n =
      if Nat.ofDigitChars 10 ds n < limit then some (Nat.ofDigitChars 10 ds n) else none := by
  induction ds generalizing n with
  | nil => simp [Nat.ofDigitChars, h]
  | cons c ds ih =>
      have hl := le_ofDigitChars ds (10 * n + (c.toNat - '0'.toNat))
      have he : Nat.ofDigitChars 10 (c :: ds) n =
        Nat.ofDigitChars 10 ds (10 * n + (c.toNat - '0'.toNat)) := rfl
      rw [List.foldlM_cons, he]
      by_cases hm : 10 * n + (c.toNat - '0'.toNat) < limit
      · simp only [extendBelow?, if_pos hm, Option.bind_eq_bind, Option.bind_some]
        exact ih _ hm
      · simp only [extendBelow?, if_neg hm, Option.bind_eq_bind, Option.bind_none]
        rw [if_neg (by omega)]

theorem readBelow?_eq (limit : Nat) (ds : List Char) (h : 0 < limit) :
    readBelow? limit ds = if readDigits ds < limit then some (readDigits ds) else none :=
  foldlM_extendBelow? limit ds 0 h

end ExprLang.Text
