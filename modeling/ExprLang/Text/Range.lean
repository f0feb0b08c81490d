/-! Sets of code points as ascending lists of closed ranges. -/

namespace ExprLang.Text

abbrev Ranges := List (Nat × Nat)

def Ranges.contains : Ranges → Nat → Bool
  | [], _ => false
  | (lo, hi) :: rest, n => decide (lo ≤ n) && (decide (n ≤ hi) || Ranges.contains rest n)

theorem Ranges.exists_of_contains {r : Ranges} {n : Nat} (h : r.contains n = true) :
    ∃ lo hi, (lo, hi) ∈ r ∧ lo ≤ n ∧ n ≤ hi := by
  induction r with
  | nil => cases h
  | cons p r ih =>
      obtain ⟨lo, hi⟩ := p
      simp only [Ranges.contains, Bool.and_eq_true, Bool.or_eq_true, decide_eq_true_eq] at h
      obtain ⟨hl, hh | hr⟩ := h
      · exact ⟨lo, hi, by simp, hl, hh⟩
      · obtain ⟨l, u, hm, hb⟩ := ih hr
        exact ⟨l, u, List.mem_cons_of_mem _ hm, hb⟩

def Ranges.Apart (r s : Ranges) : Prop := ∀ p ∈ r, ∀ q ∈ s, p.2 < q.1 ∨ q.2 < p.1

instance (r s : Ranges) : Decidable (r.Apart s) :=
  inferInstanceAs (Decidable (∀ p ∈ r, ∀ q ∈ s, p.2 < q.1 ∨ q.2 < p.1))

theorem Ranges.Apart.contains_eq_false {r s : Ranges} {n : Nat} (h : r.Apart s)
    (hr : r.contains n = true) : s.contains n = false := by
  cases hs : s.contains n with
  | false => rfl
  | true =>
      obtain ⟨lo, hi, hp, hlo, hhi⟩ := Ranges.exists_of_contains hr
      obtain ⟨lo', hi', hq, hlo', hhi'⟩ := Ranges.exists_of_contains hs
      have := h _ hp _ hq
      omega

end ExprLang.Text
