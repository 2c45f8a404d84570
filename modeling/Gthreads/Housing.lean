/-
  Which calls give threads their stacks and take them away.

  A slot gets its stack when a thread is created in it and loses it when the thread is joined.
  Nothing else frees a slot or touches a stack, in any state at all: the statements here have no
  invariant as a hypothesis, so they hold also after a join by a green thread.
-/
import Gthreads.Outcomes

namespace Gth

/-- Every slot keeps its stack, and no slot is freed. -/
structure Housed (a b : Slot → ThreadRecord) : Prop where
  stack : ∀ j, (b j).stack = (a j).stack
  empty : ∀ j, (b j).state = .empty → (a j).state = .empty

namespace Housed
variable {a b c : Slot → ThreadRecord}

theorem refl (a : Slot → ThreadRecord) : Housed a a := ⟨fun _ => rfl, fun _ => id⟩

theorem trans (h : Housed a b) (h' : Housed b c) : Housed a c :=
  ⟨fun j => (h'.stack j).trans (h.stack j), fun j => h.empty j ∘ h'.empty j⟩

theorem set (i : Slot) {r : ThreadRecord} (hstack : r.stack = (a i).stack)
    (hempty : r.state = .empty → (a i).state = .empty) : Housed a (Function.update a i r) := by
  constructor <;> intro j <;> by_cases hji : j = i
  · subst hji
    rw [Function.update_self, hstack]
  · rw [Function.update_of_ne hji]
  · subst hji
    rw [Function.update_self]
    exact hempty
  · rw [Function.update_of_ne hji]
    exact id

theorem of_woken (h : Core.Woken a b) : Housed a b := by
  constructor <;> intro j <;> rcases h j with hj | ⟨-, hj⟩ <;> rw [hj]
  · exact id
  · intro hst
    cases hst

end Housed

namespace Core
variable {s t : Core} {x : Ctx}

theorem mark_housed (s : Core) (i : Slot) (st : ThreadState) (hst : st ≠ .empty) :
    Housed s.threads (s.setThread i { s.threads i with state := st }).threads :=
  .set i rfl fun h => absurd h hst

theorem swapOut_housed {a : Slot → ThreadRecord} (h : Housed a s.threads) (i : Slot) (x : Ctx)
    (f : Frame) : Housed a (s.swapOut i x f).threads := h.trans (.set i rfl id)

theorem threadBlock_housed {f : Frame} (h : s.threadBlock x f = some t) :
    Housed s.threads t.threads := by
  unfold threadBlock at h
  split at h
  · cases h
  · split at h
    · cases h
    · split at h
      · cases h
      · rename_i i _
        cases h
        refine swapOut_housed ?_ i x f
        exact mark_housed s i .blocked nofun

theorem threadYield_housed (s : Core) (x : Ctx) : Housed s.threads (s.threadYield x).threads := by
  unfold threadYield
  split
  · exact .refl _
  · split
    · exact .refl _
    · split
      · exact .refl _
      · rename_i i _
        refine swapOut_housed ?_ i x .yield
        exact mark_housed s i .ready nofun

theorem threadExit_housed (s : Core) (i : Slot) (result : Nat) :
    Housed s.threads (s.threadExit i result).threads := by
  unfold threadExit
  dsimp only
  split
  · exact .set i (r := { s.threads i with retval := result, state := .done }) rfl nofun
  · exact .set i (r := { s.threads i with retval := 0 }) rfl id

theorem setThreadState_housed (s : Core) (i : Slot) (st : ThreadState) (hst : st ≠ .empty) :
    Housed s.threads (s.setThreadState i st).threads := by
  unfold setThreadState
  split
  · exact .refl _
  · have hacc : ∀ old, (s.accountStateChange old st).threads = s.threads := by
      intro old
      unfold accountStateChange
      dsimp only
      split_ifs <;> rfl
    refine .trans ?_ (mark_housed (s.accountStateChange (s.threads i).state st) i st hst)
    rw [hacc]
    exact .refl _

theorem threadCancel_housed (s : Core) (tid : Tid) :
    Housed s.threads (s.threadCancel tid).2.threads := by
  unfold threadCancel
  split
  · exact .refl _
  · split
    · exact .refl _
    · split
      · exact .refl _
      · rename_i i _
        split
        · exact .refl _
        · dsimp only
          generalize hu : (if ((s.emit (traceThreadCancel tid)).threads i).state = .blocked then
            _ else _ : Core) = u
          have hunblock : Housed s.threads u.threads := by
            rw [← hu]
            split
            · exact .of_woken (woken_threadUnblockSlot (s.emit _) _)
            · exact .refl _
          refine .trans (hunblock.trans (setThreadState_housed u i .canceled nofun)) ?_
          exact .set i rfl id

theorem lockLoop_housed (x : Ctx) (m : Addr) (mySlot : Nat) (via : Option Addr) (fuel : Nat) :
    ∀ s : Core, Housed s.threads (s.lockLoop x m mySlot via fuel).threads := by
  induction fuel with
  | zero => exact fun s => .refl _
  | succ fuel ih =>
    intro s
    unfold lockLoop
    split
    · split
      · exact .refl _
      · dsimp only
        split
        · rename_i t ht
          have hblock := threadBlock_housed ht
          exact hblock
        · exact ih (s.setMutex m _)
    · exact .refl _

theorem mutexLock_housed (s : Core) (x : Ctx) (m : Addr) (via : Option Addr) :
    Housed s.threads (s.mutexLock x m via).threads := by
  unfold mutexLock
  split
  · exact .refl _
  · split
    · exact .refl _
    · split
      · split
        · exact .refl _
        · dsimp only
          split
          · exact .refl _
          · split
            · exact .refl _
            · split
              · rename_i t ht
                have hblock := threadBlock_housed ht
                exact hblock
              · exact lockLoop_housed x m _ via _ ((s.setMutex m _).emit _)
      · exact .refl _

theorem semWait_housed (s : Core) (x : Ctx) (a : Addr) :
    Housed s.threads (s.semWait x a).threads := by
  rcases semWait_inv s x a with ⟨st, -, h, -⟩ | ⟨-, -, e, -, h⟩ | ⟨hx, -, -, -, -, h⟩ <;> rw [h]
  · exact .refl _
  · exact .refl _
  · have hqueued : Housed s.threads (s.semQueued x a ⟨_, hx⟩).threads :=
      mark_housed s _ .blocked nofun
    exact swapOut_housed hqueued _ x _

theorem condWait_housed (s : Core) (x : Ctx) (c m : Addr) :
    Housed s.threads (s.condWait x c m).threads := by
  rcases condWait_inv s x c m with ⟨st, -, h, -⟩ | ⟨hx, -, -, -, hcases⟩
  · rw [h]
    exact .refl _
  have hqueued : Housed s.threads (s.condQueued c ⟨_, hx⟩).threads :=
      mark_housed s _ .blocked nofun
  have hunlock := hqueued.trans (.of_woken (woken_mutexUnlock (s.condQueued c ⟨_, hx⟩) m))
  rcases hcases with ⟨v, hv, h⟩ | ⟨st, v, -, hv, h⟩ <;> rw [h] <;> rw [hv] at hunlock
  · exact swapOut_housed (s := v.log _) hunlock _ x _
  · exact hunlock.trans (mark_housed v _ .running nofun)

/-- **Only create and join house threads and move them out.** -/
theorem exec_housed (s : Core) (x : Ctx) {c : Call} (hcreate : c.isCreate = false)
    (hjoin : ∀ tid out, c ≠ .join tid out) : Housed s.threads (s.exec x c).threads := by
  -- the other calls write objects in user memory
  have hif : ∀ (b : Prop) [Decidable b] (st : Status) (r : Status × Core),
      r.2.threads = s.threads → (if b then (st, s) else r).2.threads = s.threads := by
    intro b _ st r hr
    split
    · rfl
    · exact hr
  have hsame : ∀ r : Status × Core, r.2.threads = s.threads →
      Housed s.threads (done x c r).threads := by
    intro r hr
    show Housed s.threads r.2.threads
    rw [hr]
    exact .refl _
  cases c with
  | create outTid attr fn arg env => cases hcreate
  | yield => exact threadYield_housed s x
  | join tid out => exact absurd rfl (hjoin tid out)
  | cancel tid => exact threadCancel_housed s tid
  | exit retval =>
    cases x with
    | main => exact .refl _
    | green i => exact threadExit_housed s i retval
  | self => exact .refl _
  | getStats out => exact .refl _
  | mutexInit m => exact hsame _ (hif _ _ _ rfl)
  | mutexLock m => exact mutexLock_housed s x m none
  | mutexTrylock m => exact hsame _ (hif _ _ _ (hif _ _ _ (hif _ _ _ rfl)))
  | mutexUnlock m => exact .of_woken (woken_mutexUnlock s m)
  | mutexDestroy m => exact hsame _ (hif _ _ _ (hif _ _ _ (hif _ _ _ (hif _ _ _ rfl))))
  | semInit a n => exact hsame _ (hif _ _ _ rfl)
  | semWait a => exact semWait_housed s x a
  | semPost a => exact .of_woken (woken_semPost s a)
  | semDestroy a => exact hsame _ (hif _ _ _ (hif _ _ _ (hif _ _ _ rfl)))
  | condInit c => exact hsame _ (hif _ _ _ rfl)
  | condWait c m => exact condWait_housed s x c m
  | condSignal c => exact .of_woken (woken_condSignal s c)
  | condBroadcast c => exact .of_woken (woken_condBroadcast s c)
  | condDestroy c => exact hsame _ (hif _ _ _ (hif _ _ _ (hif _ _ _ rfl)))

theorem runNext_housed (s : Core) (x : Ctx) (caller : Caller) (pick : Option Slot) :
    Housed s.threads (s.runNext x caller pick).threads := by
  cases pick with
  | none => cases caller <;> exact .refl _
  | some i => exact mark_housed s i .running nofun

/-! ## The settings -/

/-- What only `gth_runtime_init` and `gth_runtime_shutdown` set. -/
def settings (s : Core) : Bool × Config × BitVec 64 := (s.initialized, s.config, s.pageSize)

theorem settings_of_fixed (h : t.fixed = s.fixed) : t.settings = s.settings :=
  congrArg (fun p => (p.1, p.2.1, p.2.2.1)) h

theorem exec_settings (s : Core) (x : Ctx) (c : Call) : (s.exec x c).settings = s.settings := by
  cases hcreate : c.isCreate with
  | false => exact settings_of_fixed (s.exec_fixed x hcreate)
  | true =>
    cases c with
    | create outTid attr fn arg env =>
      rcases threadCreate_cases (s := s) outTid attr fn arg env with
        ⟨st, -, hc⟩ | ⟨i, -, ⟨st, -, hc⟩ | ⟨r, es, -, -, -, -, hc⟩⟩ <;>
      exact congrArg (fun r => r.2.settings) hc
    | _ => cases hcreate

theorem runNext_settings (s : Core) (x : Ctx) (caller : Caller) (pick : Option Slot) :
    (s.runNext x caller pick).settings = s.settings := by
  cases pick with
  | none => cases caller <;> rfl
  | some i => rfl

end Core
end Gth
