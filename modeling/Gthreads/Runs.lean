/-
  Runs of the machine, and how invariants of the core lift to them.

  Whatever the mode, the policy, the trace and the generator do, the scheduler hands
  `gth_scheduler_run_next` a slot that is `READY` or `RUNNING`, or none
  (`pickReadyThreadMode_state`).  No other fact about the pick is needed by the core, so an
  invariant of the core is proved for EVERY such pick: `step_cases` reduces a step of the machine to
  the three kinds of code segment.
-/
import Gthreads.Machine
import Gthreads.Perturb

namespace Gth

/-! ## Every pick is a runnable thread -/

theorem replayFindThread_state {threads : Slot → ThreadRecord} {tid : Tid} {i : Slot}
    (h : replayFindThread threads tid = some i) :
    (threads i).state = .ready ∨ (threads i).state = .running := by
  unfold replayFindThread at h
  split at h
  · nomatch h
  · split at h
    · nomatch h
    · split at h
      · nomatch h
      · rename_i j _ hstate
        obtain rfl : j = i := Option.some.inj h
        by_cases hr : (threads j).state = .ready
        · exact Or.inl hr
        · exact Or.inr (not_not.mp fun hn => hstate ⟨hr, hn⟩)

theorem replayNextThread_state {threads : Slot → ThreadRecord} {r : ReplayState} {i : Slot}
    (h : (replayNextThread threads r).1 = some i) :
    (threads i).state = .ready ∨ (threads i).state = .running := by
  dsimp only [replayNextThread] at h
  split at h
  · nomatch h
  · split at h
    · nomatch h
    · split at h
      · nomatch h
      · rename_i j hj
        exact Option.some.inj h ▸ replayFindThread_state hj

/-- **Every pick of every mode** is a `READY` or `RUNNING` thread; outside replay it is `READY`. -/
theorem pickReadyThreadMode_state {W : World} {u u' : Sub} {policy : Policy}
    {threads : Slot → ThreadRecord} {i : Slot}
    (h : u.pickReadyThreadMode W policy threads = some (some i, u')) :
    (threads i).state = .ready ∨ (threads i).state = .running := by
  rcases pickReadyThreadMode_cases h with ⟨r, -, -, hp, -⟩ | ⟨f, f', -, -, hp, -⟩ | ⟨-, -, heq⟩
  · exact replayNextThread_state hp.symm
  · rcases fuzzPickThread_spec (fun j hj => pickReadyThread_ready (Prod.ext hj rfl)) hp with
      ⟨-, hnone, -⟩ | ⟨-, j, hj, hready, -⟩
    · nomatch hnone
    · exact Or.inl (Option.some.inj hj ▸ hready)
  · exact Or.inl (pickReadyThread_ready heq.symm)

/-! ## No pick means nothing is runnable -/

/-- **Outside replay, no pick means that no thread is `READY`.** -/
theorem pickReadyThreadMode_none {W : World} {u u' : Sub} {policy : Policy}
    {threads : Slot → ThreadRecord} (hmode : u.mode ≠ .replay)
    (h : u.pickReadyThreadMode W policy threads = some (none, u')) (i : Slot) :
    (threads i).state ≠ .ready := by
  rcases pickReadyThreadMode_cases h with ⟨r, hm, -⟩ | ⟨f, f', -, -, hp, -⟩ | ⟨-, -, heq⟩
  · exact absurd hm hmode
  · rcases fuzzPickThread_spec (fun j hj => pickReadyThread_ready (Prod.ext hj rfl)) hp with
      ⟨hnone, -, -⟩ | ⟨-, j, hj, -⟩
    · exact pickReadyThread_none hnone i
    · nomatch hj
  · exact pickReadyThread_none (congrArg Prod.fst heq).symm i

/-- Outside replay a pick is `READY`, and it leaves mode, trace and files alone. -/
theorem pickReadyThreadMode_frame {W : World} {u u' : Sub} {policy : Policy}
    {threads : Slot → ThreadRecord} {pick : Option Slot} (hmode : u.mode ≠ .replay)
    (h : u.pickReadyThreadMode W policy threads = some (pick, u')) :
    u'.mode = u.mode ∧ u'.trace = u.trace ∧ u'.files = u.files ∧
      ∀ i, pick = some i → (threads i).state = .ready := by
  have hframe : (u.pickReadyThread policy threads).2.mode = u.mode ∧
      (u.pickReadyThread policy threads).2.trace = u.trace ∧
      (u.pickReadyThread policy threads).2.files = u.files := by
    rw [pickReadyThread_sub]
    exact ⟨rfl, rfl, rfl⟩
  obtain ⟨hm', htrace, hfiles⟩ := hframe
  have hnormal : ∀ j, (u.pickReadyThread policy threads).1 = some j →
      (threads j).state = .ready := fun j hj => pickReadyThread_ready (Prod.ext hj rfl)
  rcases pickReadyThreadMode_cases h with ⟨r, hm, -⟩ | ⟨f, f', -, -, hp, rfl⟩ | ⟨-, -, heq⟩
  · exact absurd hm hmode
  · refine ⟨hm', htrace, hfiles, fun i hi => ?_⟩
    rcases fuzzPickThread_spec hnormal hp with ⟨-, hnone, -⟩ | ⟨-, j, hj, hready, -⟩
    · nomatch hnone.symm.trans hi
    · exact Option.some.inj (hj.symm.trans hi) ▸ hready
  · rw [← heq] at hm' htrace hfiles hnormal
    exact ⟨hm', htrace, hfiles, hnormal⟩

/-! ## The three kinds of code segment -/

namespace State
variable {W : World}

/-- **Inversion of a step**: a call of the mode and trace interface leaves the core alone; any
    other step is one code segment of the core, and the events it emitted are recorded. -/
theorem step_cases {s t : State} {l : Label} (h : step W s l = some t) :
    (∃ x c, l = .sub x c ∧ s.core.cpu = .user x ∧ t = { s with sub := (s.subExec W c).2 }) ∨
    (∃ x c, l = .call x c ∧ s.core.cpu = .user x ∧ callable x c = true ∧
      t = s.settle W (s.fresh.exec x c)) ∨
    (∃ x caller pick sub, l = .tau ∧ s.core.cpu = .sched x caller ∧
      s.sub.pickReadyThreadMode W s.core.config.policy s.core.threads = some (pick, sub) ∧
      t = { s with sub := sub }.settle W (s.fresh.runNext x caller pick)) ∨
    (∃ k, l = .tau ∧ s.core.cpu = .swap (some k) ∧ t = s.settle W (s.fresh.resume k)) := by
  cases l with
  | call x c =>
    by_cases hx : s.core.cpu = .user x ∧ callable x c = true
    · have ht := Option.some.inj ((if_pos hx).symm.trans h)
      exact Or.inr (Or.inl ⟨x, c, rfl, hx.1, hx.2, ht.symm⟩)
    · nomatch (if_neg hx).symm.trans h
  | sub x c =>
    by_cases hx : s.core.cpu = .user x
    · have ht := Option.some.inj ((if_pos hx).symm.trans h)
      exact Or.inl ⟨x, c, rfl, hx, ht.symm⟩
    · nomatch (if_neg hx).symm.trans h
  | tau =>
    cases hcpu : s.core.cpu with
    | user x =>
      dsimp only [step] at h
      rw [hcpu] at h
      nomatch h
    | sched x caller =>
      dsimp only [step] at h
      rw [hcpu] at h
      obtain ⟨⟨pick, sub⟩, hpick, ht⟩ := Option.map_eq_some_iff.mp h
      exact Or.inr (Or.inr (Or.inl ⟨x, caller, pick, sub, rfl, rfl, hpick, ht.symm⟩))
    | swap k =>
      dsimp only [step] at h
      rw [hcpu] at h
      cases k with
      | none => nomatch h
      | some k => exact Or.inr (Or.inr (Or.inr ⟨k, rfl, rfl, (Option.some.inj h).symm⟩))

/-- A call that is made runs the core. -/
theorem step_call_inv {s t : State} {x : Ctx} {c : Call} (h : step W s (.call x c) = some t) :
    s.core.cpu = .user x ∧ t.core = s.fresh.exec x c := by
  rcases step_cases h with ⟨_, _, he, -⟩ | ⟨y, d, he, hcpu, -, rfl⟩ | ⟨_, _, _, _, he, -⟩ |
    ⟨_, he, -⟩
  · nomatch he
  · cases he
    exact ⟨hcpu, rfl⟩
  · nomatch he
  · nomatch he

theorem step_call {s : State} {x : Ctx} {c : Call} (hcpu : s.core.cpu = .user x)
    (hc : callable x c = true) : step W s (.call x c) = some (s.settle W (s.fresh.exec x c)) :=
  if_pos ⟨hcpu, hc⟩

theorem step_sched {s : State} {x : Ctx} {caller : Caller} {pick : Option Slot} {sub : Sub}
    (hcpu : s.core.cpu = .sched x caller)
    (hpick : s.sub.pickReadyThreadMode W s.core.config.policy s.core.threads = some (pick, sub)) :
    step W s .tau = some ({ s with sub := sub }.settle W (s.fresh.runNext x caller pick)) := by
  dsimp only [step]
  rw [hcpu]
  dsimp only
  rw [hpick]
  rfl

theorem step_swap {s : State} {k : Kont} (hcpu : s.core.cpu = .swap (some k)) :
    step W s .tau = some (s.settle W (s.fresh.resume k)) := by
  dsimp only [step]
  rw [hcpu]

/-- A condition on the calls user code makes, as a condition on steps. -/
def OnCalls (G : Core → Ctx → Call → Prop) (s : State) (l : Label) : Prop :=
  ∀ x c, l = .call x c → G s.fresh x c

instance decidableOnCalls {G : Core → Ctx → Call → Prop} [∀ s x c, Decidable (G s x c)]
    (s : State) : ∀ l, Decidable (OnCalls G s l)
  | .call x c => decidable_of_iff (G s.fresh x c)
      ⟨fun h _ _ e => by cases e; exact h, fun h => h x c rfl⟩
  | .sub _ _ => isTrue nofun
  | .tau => isTrue nofun

end State

/-! ## A small concrete setting

    For runs on fixed inputs: the smallest stacks, round robin, every library call succeeds. -/

namespace Sample

def world : World := ⟨fun _ => ⟨true, 0, none⟩, 100⟩

def config : ValidConfig := ⟨⟨16384#64, .rr, 1, 0#32⟩, by decide⟩

def start : State := State.start config 4096#64 fun _ => none

/-- A creation that succeeds. -/
def create : Call := .create true none 1 0 ⟨some 65536#64, true⟩

/-- A creation for which `mmap` fails. -/
def createFails : Call := .create true none 1 0 ⟨none, true⟩

/-- Main makes the call `c`. -/
def main (c : Call) : Label := .call .main c

/-- The thread of slot `i` makes the call `c`. -/
def green (i : Slot) (c : Call) : Label := .call (.green i) c

end Sample
end Gth
