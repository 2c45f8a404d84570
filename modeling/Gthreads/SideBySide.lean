/-
  Two processes side by side.

  Some results compare two runs of one program: with a fuzzer and without, with a recording and
  without.  The two do the same as long as their cores are equal and the picks read the same of the
  subsystems.  What the picks read depends on the comparison, so it is a parameter: `Alike f` relates
  the states with equal cores, equal instrumentation calls and an equal `f` of the subsystems.

  `Alike.step` takes the relation over a step that both make.  Two things are left to be shown for
  each `f`: what a call of the mode and trace interface does, and that the picks agree.
-/
import Gthreads.Modes

namespace Gth

variable {α : Type} {f : Sub → α}

/-- The two processes have done the same so far, and have the same `f`. -/
structure Alike (f : Sub → α) (s s' : State) : Prop where
  core : s'.core = s.core
  emitted : s'.emitted = s.emitted
  sub : f s'.sub = f s.sub

/-- `f` reads only what the trace functions leave alone. -/
def Framed (f : Sub → α) : Prop := ∀ u v : Sub, u.frame = v.frame → f u = f v

/-- Two results of a pick: the same thread, and an equal `f` afterwards. -/
def SamePick (f : Sub → α) (p p' : Option Slot × Sub) : Prop := p'.1 = p.1 ∧ f p'.2 = f p.2

namespace Alike
variable {W W' : World} {s s' : State}

theorem fresh (h : Alike f s s') : s'.fresh = s.fresh :=
  congrArg (fun c : Core => { c with events := [] }) h.core

/-- The same code segment in both. -/
theorem settle (h : Alike f s s') (hf : Framed f) (core : Core) :
    Alike f (s.settle W core) (s'.settle W' core) := by
  refine ⟨rfl, congrArg (· ++ core.events) h.emitted, ?_⟩
  rw [hf _ _ (s'.settle_frame (W := W') core), h.sub, hf _ _ (s.settle_frame (W := W) core)]

theorem step_call (h : Alike f s s') (hf : Framed f) (x : Ctx) (c : Call) :
    Option.Rel (Alike f) (State.step W s (.call x c)) (State.step W' s' (.call x c)) := by
  by_cases hx : s.core.cpu = .user x ∧ State.callable x c = true
  · rw [State.step_call hx.1 hx.2, State.step_call (h.core ▸ hx.1) hx.2, h.fresh]
    exact .some (h.settle hf _)
  · have hnone : State.step W s (.call x c) = none := if_neg hx
    have hnone' : State.step W' s' (.call x c) = none := if_neg (by rw [h.core]; exact hx)
    rw [hnone, hnone']
    exact .none

theorem step_sub (h : Alike f s s') (x : Ctx) {c : SubCall}
    (hsub : f (s'.subExec W' c).2 = f (s.subExec W c).2) :
    Option.Rel (Alike f) (State.step W s (.sub x c)) (State.step W' s' (.sub x c)) := by
  by_cases hx : s.core.cpu = .user x
  · have hstep : State.step W s (.sub x c) = some { s with sub := (s.subExec W c).2 } := if_pos hx
    have hstep' : State.step W' s' (.sub x c) = some { s' with sub := (s'.subExec W' c).2 } :=
      if_pos (h.core ▸ hx)
    rw [hstep, hstep']
    exact .some ⟨h.core, h.emitted, hsub⟩
  · have hnone : State.step W s (.sub x c) = none := if_neg hx
    have hnone' : State.step W' s' (.sub x c) = none := if_neg (by rw [h.core]; exact hx)
    rw [hnone, hnone']
    exact .none

theorem step_tau (h : Alike f s s') (hf : Framed f)
    (hpick : ∀ x caller, s.core.cpu = .sched x caller → Option.Rel (SamePick f)
      (s.sub.pickReadyThreadMode W s.core.config.policy s.core.threads)
      (s'.sub.pickReadyThreadMode W' s.core.config.policy s.core.threads)) :
    Option.Rel (Alike f) (State.step W s .tau) (State.step W' s' .tau) := by
  have hfresh := h.fresh
  unfold State.step
  rw [h.core, hfresh]
  cases hcpu : s.core.cpu with
  | user x => exact .none
  | sched x caller =>
    have hp := hpick x caller hcpu
    dsimp only
    generalize s.sub.pickReadyThreadMode W _ _ = o at hp
    generalize s'.sub.pickReadyThreadMode W' _ _ = o' at hp
    cases hp with
    | none => exact .none
    | @some p p' hp =>
      have hnext : Alike f { s with sub := p.2 } { s' with sub := p'.2 } :=
        ⟨h.core, h.emitted, hp.2⟩
      show Option.Rel _ (some _) (some (State.settle W' _ (s.fresh.runNext x caller p'.1)))
      rw [hp.1]
      exact .some (hnext.settle hf _)
  | swap k =>
    cases k with
    | none => exact .none
    | some k => exact .some (h.settle hf _)

/-- **One step that both make.** -/
theorem step (h : Alike f s s') (hf : Framed f) (l : Label)
    (hsub : ∀ x c, l = .sub x c → f (s'.subExec W' c).2 = f (s.subExec W c).2)
    (hpick : ∀ x caller, s.core.cpu = .sched x caller → Option.Rel (SamePick f)
      (s.sub.pickReadyThreadMode W s.core.config.policy s.core.threads)
      (s'.sub.pickReadyThreadMode W' s.core.config.policy s.core.threads)) :
    Option.Rel (Alike f) (State.step W s l) (State.step W' s' l) := by
  cases l with
  | call x c => exact h.step_call hf x c
  | sub x c => exact h.step_sub x (hsub x c rfl)
  | tau => exact h.step_tau hf hpick

end Alike

end Gth
