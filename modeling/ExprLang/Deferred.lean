/-! Computations whose parts are put off, walked with the waiting steps in a list. -/

namespace ExprLang

inductive Deferred : Type → Type 1
  | done {α : Type} (value : α) : Deferred α
  | call {α β : Type} (part : Unit → Deferred β) (next : β → Deferred α) : Deferred α

namespace Deferred

def run {α : Type} : Deferred α → α
  | done a => a
  | call part next => (next (part ()).run).run

@[simp] theorem run_done {α : Type} (a : α) : (done a).run = a := rfl

@[simp] theorem run_call {α β : Type} (part : Unit → Deferred β) (next : β → Deferred α) :
    (call part next).run = (next (part ()).run).run := rfl

inductive Waiting (γ : Type) : Type → Type 1
  | nil : Waiting γ γ
  | cons {α β : Type} (next : α → Deferred β) (outer : Waiting γ β) : Waiting γ α

def Waiting.run {γ α : Type} : Waiting γ α → α → γ
  | .nil, a => a
  | .cons next outer, a => outer.run (next a).run

structure Config (γ : Type) : Type 1 where
  {Result : Type}
  current : Deferred Result
  waiting : Waiting γ Result

inductive Step {γ : Type} : Config γ → Config γ → Prop
  | enter {α β : Type} {part : Unit → Deferred β} {next : β → Deferred α} {w : Waiting γ α} :
      Step ⟨part (), .cons next w⟩ ⟨call part next, w⟩
  | resume {α β : Type} {a : α} {next : α → Deferred β} {w : Waiting γ β} :
      Step ⟨next a, w⟩ ⟨done a, .cons next w⟩

variable {α γ : Type}

theorem acc_of_done (d : Deferred α) (w : Waiting γ α)
    (h : ∀ a, Acc Step (⟨done a, w⟩ : Config γ)) : Acc Step (⟨d, w⟩ : Config γ) := by
  induction d with
  | done a => exact h a
  | call part next ihp ihn =>
      refine ⟨_, fun c hc => ?_⟩
      cases hc
      refine ihp () _ fun b => ⟨_, fun c hc => ?_⟩
      cases hc
      exact ihn b w h

theorem acc_done (w : Waiting γ α) (a : α) : Acc Step (⟨done a, w⟩ : Config γ) := by
  induction w with
  | nil => exact ⟨_, fun c hc => by cases hc⟩
  | cons next w ih =>
      refine ⟨_, fun c hc => ?_⟩
      cases hc
      exact acc_of_done _ _ ih

theorem step_wf : WellFounded (Step (γ := γ)) :=
  ⟨fun ⟨d, w⟩ => acc_of_done d w (acc_done w)⟩

instance (γ : Type) : WellFoundedRelation (Config γ) := ⟨Step, step_wf⟩

def walk {γ α : Type} : Deferred α → Waiting γ α → γ
  | done a, .nil => a
  | done a, .cons next w => walk (next a) w
  | call part next, w => walk (part ()) (.cons next w)
termination_by d w => (⟨d, w⟩ : Config γ)
decreasing_by
  · exact Step.resume
  · exact Step.enter

theorem walk_eq_run (d : Deferred α) (w : Waiting γ α) : walk d w = w.run d.run := by
  fun_induction walk d w with
  | case1 => rfl
  | case2 β δ a next w ih => exact ih
  | case3 β δ part next w ih => exact ih

def result (d : Deferred α) : α := walk d .nil

@[simp] theorem result_eq_run (d : Deferred α) : d.result = d.run := walk_eq_run d .nil

end Deferred

end ExprLang
