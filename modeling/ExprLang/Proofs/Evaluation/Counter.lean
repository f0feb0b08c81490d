import ExprLang.Proofs.Evaluation.CallDepth
import Mathlib

/-! The counter of calls from moment to moment. -/

namespace ExprLang

open Deferred Evaluation

/-- The parts are inside as many calls as the whole, or inside one more if the limit allows it. -/
inductive Leveled (limit : Nat) : {d : Nat} → {α : Type} → Evaluation d α → Prop
  | done {d : Nat} {α : Type} (p : Outcome α × StateAt d) : Leveled limit (.done p : Evaluation d α)
  | part {d : Nat} {α β : Type} {part : Unit → Evaluation d β}
      {next : Outcome β × StateAt d → Evaluation d α} :
      Leveled limit (part ()) → (∀ p, Leveled limit (next p)) →
      Leveled limit (.call part next : Evaluation d α)
  | body {d : Nat} {α β : Type} {part : Unit → Evaluation (d + 1) β}
      {next : Outcome β × StateAt (d + 1) → Evaluation d α} :
      d < limit → Leveled limit (part ()) → (∀ p, Leveled limit (next p)) →
      Leveled limit (.call part next : Evaluation d α)

variable {limit low d : Nat} {sc : Scope} {α β : Type}

lemma Leveled.andThen {part : Unit → Evaluation d α} {next : α → StateAt d → Evaluation d β}
    (hp : Leveled limit (part ())) (hn : ∀ a s, Leveled limit (next a s)) :
    Leveled limit (andThen part next) := by
  refine .part hp fun p => ?_
  rcases p with ⟨e | a, s⟩
  · exact .done _
  · exact hn a s

lemma Leveled.operand {e : Expr} {s : StateAt d} {part : Unit → Evaluation d Value}
    {next : Value → StateAt d → Evaluation d β} (hp : Leveled limit (part ()))
    (hn : ∀ v s, Leveled limit (next v s)) : Leveled limit (operand sc e s part next) := by
  unfold Evaluation.operand
  split
  · exact hn _ s
  · exact .done _
  · exact hp.andThen hn

lemma leveled_evalAll (es : List Expr) (h : ∀ e ∈ es, ∀ s, Leveled limit (eval limit d sc e s))
    (found : Array Value) (s : StateAt d) : Leveled limit (evalAll limit d sc found es s) := by
  induction es generalizing found s with
  | nil =>
    rw [evalAll]
    exact .done _
  | cons e es ih =>
    rw [evalAll]
    exact .operand (h e List.mem_cons_self s) fun v s =>
      ih (fun e he => h e (List.mem_cons_of_mem _ he)) (found.push v) s

theorem leveled_eval (e : Expr) (s : StateAt d) : Leveled limit (eval limit d sc e s) := by
  induction d, e using call_induction limit generalizing sc with
  | literal d v line =>
    rw [eval]
    exact .done _
  | identifier d x line =>
    rw [eval]
    exact .done _
  | negate d a line ih =>
    rw [eval]
    exact .operand (ih s) fun v s => .done _
  | binary d op a b line iha ihb =>
    rw [eval]
    exact .operand (iha s) fun v s => .operand (ihb s) fun w s => .done _
  | vector d es line ih =>
    rw [eval]
    exact (leveled_evalAll es.toList (fun e he s => ih e he s) #[] s).andThen fun vs s => .done _
  | element d es l i line ihi ih =>
    rw [eval]
    refine .operand (ihi s) fun v s => ?_
    cases v with
    | integer k =>
      dsimp only
      split
      · rename_i e he
        exact ih e (Array.mem_toList_iff.2 (mem_of_element? he)) s
      · exact .done _
    | vector vs => exact .done _
    | function c => exact .done _
  | index d a i line ha ihi iha =>
    rw [eval]
    · refine .operand (ihi s) fun v s => ?_
      cases v with
      | integer k =>
        refine .operand (iha s) fun w s => ?_
        cases w <;> exact .done _
      | vector vs => exact .done _
      | function c => exact .done _
    · exact ha
  | call d f as line ihf ihas ihb =>
    rw [eval]
    refine .operand (ihf s) fun v s => ?_
    cases v with
    | integer k => exact .done _
    | vector vs => exact .done _
    | function c =>
      dsimp only
      split
      · refine (leveled_evalAll as (fun a ha s => ihas a ha s) #[] s).andThen fun vs s => ?_
        split
        · rename_i hd
          exact .body hd (ihb hd c.body _) fun p => .done _
        · exact .done _
      · exact .done _

/-- Waiting steps that take an evaluation inside `d` calls back to one inside `low` calls. -/
inductive Awaits (limit low : Nat) : {γ : Type} → {d : Nat} → {α : Type} →
    Waiting γ (Outcome α × StateAt d) → Prop
  | nil {α : Type} :
      Awaits limit low (.nil : Waiting (Outcome α × StateAt low) (Outcome α × StateAt low))
  | part {γ : Type} {d : Nat} {α β : Type} {next : Outcome α × StateAt d → Evaluation d β}
      {w : Waiting γ (Outcome β × StateAt d)} : (∀ p, Leveled limit (next p)) → Awaits limit low w →
      Awaits limit low (.cons next w)
  | body {γ : Type} {d : Nat} {α β : Type} {next : Outcome α × StateAt (d + 1) → Evaluation d β}
      {w : Waiting γ (Outcome β × StateAt d)} : (∀ p, Leveled limit (next p)) → Awaits limit low w →
      Awaits limit low (.cons next w)

lemma Awaits.le {γ : Type} {w : Waiting γ (Outcome α × StateAt d)} (h : Awaits limit low w) :
    low ≤ d := by
  induction h with
  | nil => exact Nat.le_refl low
  | part _ _ ih => exact ih
  | body _ _ ih => exact Nat.le_succ_of_le ih

structure Moment (γ : Type) where
  {Result : Type}
  depth : Nat
  current : Evaluation depth Result
  waiting : Waiting γ (Outcome Result × StateAt depth)

namespace Moment

variable {γ : Type}

def config (m : Moment γ) : Config γ := ⟨m.current, m.waiting⟩

def counter (m : Moment γ) : UInt64 := .ofNat m.depth

def start (limit : Nat) (sc : Scope) (e : Expr) (s : StateAt d) : Moment (Outcome Value × StateAt d) :=
  ⟨d, eval limit d sc e s, .nil⟩

structure Sound (limit low : Nat) (m : Moment γ) : Prop where
  current : Leveled limit m.current
  waiting : Awaits limit low m.waiting
  le_limit : m.depth ≤ limit

end Moment

inductive Counts : UInt64 → UInt64 → Prop
  | keep {n : UInt64} : Counts n n
  | increment {n : UInt64} : n.toNat + 1 < UInt64.size → Counts n (n + 1)
  | decrement {n : UInt64} : 0 < n.toNat → Counts n (n - 1)

lemma counts_increment (h : d + 1 < UInt64.size) : Counts (.ofNat d) (.ofNat (d + 1)) := by
  have hd : (UInt64.ofNat d).toNat = d := UInt64.toNat_ofNat_of_lt' (by omega)
  rw [UInt64.ofNat_add]
  exact .increment (by omega)

lemma counts_decrement (h : d + 1 < UInt64.size) : Counts (.ofNat (d + 1)) (.ofNat d) := by
  have hd : (UInt64.ofNat (d + 1)).toNat = d + 1 := UInt64.toNat_ofNat_of_lt' h
  have hs : UInt64.ofNat d = .ofNat (d + 1) - 1 := by
    rw [UInt64.ofNat_add]
    simp
  rw [hs]
  exact .decrement (by omega)

lemma Moment.Sound.step {γ : Type} {m : Moment γ} {c : Config γ} (h : m.Sound limit low)
    (hl : limit < UInt64.size) (hs : Step c m.config) :
    ∃ m' : Moment γ, m'.config = c ∧ m'.Sound limit low ∧ Counts m.counter m'.counter := by
  obtain ⟨d, current, waiting⟩ := m
  obtain ⟨hc, hw, hd⟩ := h
  dsimp only at hc hw hd
  -- A current evaluation that is done hands over to what waits for it; any other begins its part.
  cases hc with
  | done p =>
    cases hw with
    | nil => cases hs
    | @part _ _ _ _ next w hn hw =>
      cases hs
      exact ⟨⟨d, next p, w⟩, rfl, ⟨hn p, hw, hd⟩, .keep⟩
    | @body _ d _ _ next w hn hw =>
      cases hs
      exact ⟨⟨d, next p, w⟩, rfl, ⟨hn p, hw, Nat.le_of_succ_le hd⟩, counts_decrement (by omega)⟩
  | @part _ _ _ part next hp hn =>
    cases hs
    exact ⟨⟨d, part (), .cons next waiting⟩, rfl, ⟨hp, .part hn hw, hd⟩, .keep⟩
  | @body _ _ _ part next hlt hp hn =>
    cases hs
    exact ⟨⟨d + 1, part (), .cons next waiting⟩, rfl, ⟨hp, .body hn hw, hlt⟩,
      counts_increment (Nat.lt_of_le_of_lt hlt hl)⟩

/-- From moment to moment the counter is kept or changed by one, with `low` to `high` calls at all of them. -/
inductive Follows (low high : Nat) {γ : Type} : Moment γ → Moment γ → Prop
  | refl {m : Moment γ} : low ≤ m.depth → m.depth ≤ high → Follows low high m m
  | tail {m m' m'' : Moment γ} : Follows low high m m' → Step m''.config m'.config →
      Counts m'.counter m''.counter → low ≤ m''.depth → m''.depth ≤ high → Follows low high m m''

lemma start_follows {e : Expr} {s : StateAt d} {c : Config (Outcome Value × StateAt d)}
    (hl : limit < UInt64.size) (hd : d ≤ limit)
    (h : Relation.ReflTransGen (fun c c' => Step c' c) (Moment.start limit sc e s).config c) :
    ∃ m : Moment _, m.config = c ∧ m.Sound limit d ∧
      Follows d limit (Moment.start limit sc e s) m := by
  induction h with
  | refl => exact ⟨_, rfl, ⟨leveled_eval e s, .nil, hd⟩, .refl (Nat.le_refl d) hd⟩
  | tail _ hc ih =>
    obtain ⟨m, rfl, hm, hf⟩ := ih
    obtain ⟨m', hm', hs', hn⟩ := hm.step hl hc
    subst hm'
    exact ⟨m', rfl, hs', hf.tail hc hn hs'.waiting.le hs'.le_limit⟩

inductive Comes (limit : Nat) (sc : Scope) : Program → State → Expr → State → Prop
  | here {e line p s} : Comes limit sc (.expression e line :: p) s e s
  | later {st p s v t e u} : evalStatement limit sc st s = (.ok v, t) → Comes limit sc p t e u →
      Comes limit sc (st :: p) s e u

lemma Comes.depth_eq {p : Program} {s t : State} {e : Expr} (h : Comes limit sc p s e t) :
    t.depth = s.depth := by
  induction h with
  | here => rfl
  | later hs _ ih => rw [ih, evalStatement_depth hs]

lemma evalStatements_depth (p : Program) (v : Value) (s : State) :
    (evalStatements limit sc v p s).2.depth = s.depth := by
  apply evalStatements_preserves (P := fun t => t.depth = s.depth) _ p v s rfl
  intro st t ht
  have hst : (evalStatement limit sc st t).2.depth = t.depth := evalStatement_depth rfl
  exact hst.trans ht

structure Task where
  program : Program
  prepare : Store → Scope × Store

def Task.run (limit : Nat) (k : Task) (s : State) : Outcome Value × State :=
  let (sc, store) := k.prepare s.store
  evalProgram limit sc k.program { s with store }

def runAll (limit : Nat) : List Task → State → List (Outcome Value × State)
  | [], _ => []
  | k :: ks, s =>
    let r := k.run limit s
    r :: runAll limit ks r.2

def runAllAfresh (limit : Nat) : List Task → Store → List (Outcome Value × Store)
  | [], _ => []
  | k :: ks, store =>
    let (r, t) := k.run limit ⟨store, 0⟩
    (r, t.store) :: runAllAfresh limit ks t.store

lemma Task.run_depth (k : Task) (s : State) : (k.run limit s).2.depth = s.depth :=
  evalStatements_depth k.program _ _

lemma runAll_depth (ks : List Task) (s : State) : ∀ r ∈ runAll limit ks s, r.2.depth = s.depth := by
  induction ks generalizing s with
  | nil => exact nofun
  | cons k ks ih =>
    rw [runAll, List.forall_mem_cons]
    refine ⟨k.run_depth s, fun r hr => ?_⟩
    rw [ih _ r hr, k.run_depth]

lemma runAll_eq_afresh (ks : List Task) (store : Store) :
    (runAll limit ks ⟨store, 0⟩).map (fun r => (r.1, r.2.store)) = runAllAfresh limit ks store := by
  induction ks generalizing store with
  | nil => rfl
  | cons k ks ih =>
    have hd : (k.run limit ⟨store, 0⟩).2 = ⟨(k.run limit ⟨store, 0⟩).2.store, 0⟩ := by
      rw [State.mk.injEq]
      exact ⟨rfl, k.run_depth ⟨store, 0⟩⟩
    rw [runAll, runAllAfresh, List.map_cons, hd, ih]

theorem counter_balanced (limit : Nat) (hl : limit < UInt64.size) :
    (∀ (ks : List Task) (s : State), ∀ r ∈ runAll limit ks s, r.2.depth = s.depth) ∧
    (∀ (sc : Scope) (p : Program) (s : State), s.depth ≤ limit →
      ∀ e t, Comes limit sc p s e t → ∀ c : Config (Outcome Value × StateAt t.depth),
        Relation.ReflTransGen (fun c c' => Step c' c) (Moment.start limit sc e ⟨t, rfl⟩).config c →
        ∃ m : Moment _, m.config = c ∧
          Follows s.depth limit (Moment.start limit sc e ⟨t, rfl⟩) m) ∧
    ∀ (ks : List Task) (store : Store),
      (runAll limit ks ⟨store, 0⟩).map (fun r => (r.1, r.2.store)) = runAllAfresh limit ks store := by
  refine ⟨runAll_depth, fun sc p s hs e t he c hc => ?_, runAll_eq_afresh⟩
  have ht := he.depth_eq
  obtain ⟨m, hm, -, hf⟩ := start_follows hl (ht.symm ▸ hs) hc
  exact ⟨m, hm, ht ▸ hf⟩

def down : Definition :=
  ⟨"down", ["n"], .index (.vector #[.literal (.integer 0) 1, .call (.identifier "down" 1)
      [.binary .sub (.identifier "n" 1) (.literal (.integer 1) 1) 1] 1] 1)
    (.binary .greater (.identifier "n" 1) (.literal (.integer 0) 1) 1) 1, 1⟩

def downFrom (n : Int64) : Expr := .call (.identifier "down" 2) [.literal (.integer n) 2] 2

def descent (n : Int64) : Task := ⟨[.definition down, .expression (downFrom n) 2], Store.root⟩

def descending : State := (evalStatement 3 ⟨0, []⟩ (.definition down) ⟨Store.empty.root.2, 0⟩).2

theorem counter_balanced_descent :
    (3 < UInt64.size ∧
      Comes 3 ⟨0, []⟩ (descent 5).program ⟨Store.empty.root.2, 0⟩ (downFrom 5) descending) ∧
    (runAll 3 [descent 5, descent 2] ⟨Store.empty, 0⟩).map (·.1) =
      [.error ⟨.callDepth 3, 1⟩, .ok (.integer 0)] ∧
    (∀ r ∈ runAll 3 [descent 5, descent 2] ⟨Store.empty, 0⟩, r.2.depth = 0) ∧
    (∃ m : Moment _, m.config = (Moment.start 3 ⟨0, []⟩ (downFrom 5) ⟨descending, rfl⟩).config ∧
      Follows 0 3 (Moment.start 3 ⟨0, []⟩ (downFrom 5) ⟨descending, rfl⟩) m) ∧
    (runAllAfresh 3 [descent 5, descent 2] Store.empty).map (·.1) =
      [.error ⟨.callDepth 3, 1⟩, .ok (.integer 0)] := by
  have hl : 3 < UInt64.size := by decide
  have hc : Comes 3 ⟨0, []⟩ (descent 5).program ⟨Store.empty.root.2, 0⟩ (downFrom 5) descending :=
    .later rfl .here
  have hr : (runAll 3 [descent 5, descent 2] ⟨Store.empty, 0⟩).map (·.1) =
      [.error ⟨.callDepth 3, 1⟩, .ok (.integer 0)] := by cbv
  obtain ⟨hd, hm, hf⟩ := counter_balanced 3 hl
  refine ⟨⟨hl, hc⟩, hr, hd _ _, hm _ _ _ (Nat.zero_le 3) _ _ hc _ .refl, ?_⟩
  rw [← hf, List.map_map]
  exact hr

end ExprLang
