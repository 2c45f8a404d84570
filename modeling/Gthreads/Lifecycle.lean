/-
  The life of one thread.

  `Step` lists what the code does; here the same transitions are read from the point of view of
  one slot `j` (`Step.thread_cases`).  A transition leaves the record of `j` alone, or it is one of
  the moves of a thread's life: created, dispatched, suspended, woken, cancelled, exited, released.
  A slot is loaded into the CPU (`Entering`) by a dispatch and by nothing else, and only for the
  one transition that follows.
-/
import Gthreads.Queues

namespace Gth

/-- The object whose waiters a call wakes. -/
def Call.wakes : Call → Option Obj
  | .mutexUnlock m => some (.mutex m)
  | .condWait _ m => some (.mutex m)
  | .semPost a => some (.sem a)
  | .condSignal c => some (.cond c)
  | .condBroadcast c => some (.cond c)
  | _ => none

/-- The call that suspends its caller at this place, and nowhere else; `gth_mutex_lock` can also be
    a part of `gth_cond_wait`. -/
def Frame.waitCall : Frame → Option Call
  | .semWait a => some (.semWait a)
  | .condWait c m => some (.condWait c m)
  | _ => none

namespace Kernel

/-- The stack of slot `j` has the CPU: in user code, or just loaded. -/
def OnCpu (s : Kernel) (j : Slot) : Prop :=
  s.cpu = .user (.green j) ∨ ∃ f, s.cpu = .swap (some ⟨.green j, f⟩)

/-- The stack of slot `j` is loaded and about to go on at `f`. -/
def Entering (s : Kernel) (j : Slot) (f : Frame) : Prop := s.cpu = .swap (some ⟨.green j, f⟩)

/-- What a transition can do to the thread of slot `j`. -/
inductive ThreadMove (s : Kernel) (l : Option (Ctx × Call)) (t : Kernel) (j : Slot) : Prop where
  | same : t.threads j = s.threads j → (∀ f, ¬ t.Entering j f) → ThreadMove s l t j
  /-- Only `gth_cond_broadcast` wakes others than the first waiter. -/
  | woken (x : Ctx) (c : Call) (o : Obj) : l = some (x, c) → c.wakes = some o →
      (j : Nat) ∈ s.queue o →
      ((∀ v, c ≠ .condBroadcast v) → (s.queue o).head? = some (j : Nat)) →
      (s.threads j).state = .blocked →
      t.threads j = { s.threads j with state := .ready } → (∀ f, ¬ t.Entering j f) →
      ThreadMove s l t j
  | dispatched (f : Frame) : l = none → (s.threads j).state = .ready →
      (s.threads j).ctx = some ⟨.green j, f⟩ →
      t.threads j = { s.threads j with state := .running } → t.Entering j f → ThreadMove s l t j
  | yielded : l = some (.green j, .yield) → s.OnCpu j →
      t.threads j = { s.threads j with state := .ready, ctx := some ⟨.green j, .yield⟩ } →
      (∀ f, ¬ t.Entering j f) → ThreadMove s l t j
  | blocked (o : Obj) (f : Frame) : f.waits = some o → s.initOf o ≠ 0 → s.OnCpu j →
      t.threads j = { s.threads j with state := .blocked, ctx := some ⟨.green j, f⟩ } →
      (∀ f', ¬ t.Entering j f') → (∀ c, f.waitCall = some c → l = some (.green j, c)) →
      ThreadMove s l t j
  /-- In `gth_cond_wait`: the mutex's queue held the caller's own slot number. -/
  | passed (c m : Addr) : l = some (.green j, .condWait c m) → s.OnCpu j →
      (j : Nat) ∈ s.queue (.mutex m) →
      t.threads j = { s.threads j with state := .ready, ctx := some ⟨.green j, .condWait c m⟩ } →
      (∀ f, ¬ t.Entering j f) → ThreadMove s l t j
  | restored (c m : Addr) : l = some (.green j, .condWait c m) → s.OnCpu j →
      t.threads j = { s.threads j with state := .running } → (∀ f, ¬ t.Entering j f) →
      ThreadMove s l t j
  | exited (v : Nat) : l = some (.green j, .exit v) → s.OnCpu j →
      threadIsTerminal (t.threads j).state = true → (t.threads j).tid = (s.threads j).tid →
      (∀ f, ¬ t.Entering j f) → ThreadMove s l t j
  | canceled (x : Ctx) (tid : Tid) : l = some (x, .cancel tid) →
      findThread s.threads tid = some j → threadIsTerminal (s.threads j).state = false →
      t.threads j = { s.threads j with state := .canceled, retval := 0 } →
      (∀ f, ¬ t.Entering j f) → ThreadMove s l t j
  | released : threadIsTerminal (s.threads j).state = true → t.threads j = {} →
      (∀ f, ¬ t.Entering j f) → ThreadMove s l t j
  | created : (s.threads j).state = .empty →
      t.threads j = {} ∨ (t.threads j).state = .ready ∧
        (t.threads j).ctx = some ⟨.green j, .entry⟩ →
      (∀ f, ¬ t.Entering j f) → ThreadMove s l t j

section
variable {s t : Kernel} {l : Option (Ctx × Call)}

/-- What a wake-up does to one slot. -/
theorem wake_thread (s : Kernel) (o : Obj) (j : Slot) :
    (s.wake o).threads j = s.threads j ∨
    ((s.queue o).head? = some (j : Nat) ∧ (s.threads j).state = .blocked ∧
      (s.wake o).threads j = { s.threads j with state := .ready }) := by
  cases hq : s.queue o with
  | nil =>
    rw [wake_nil hq]
    exact Or.inl rfl
  | cons n q =>
    rw [wake_cons hq]
    by_cases h : ∃ i : Slot, (i : Nat) = n ∧ ((s.setQueue o q).threads i).state = .blocked
    · obtain ⟨i, rfl, hi⟩ := h
      rw [unblock_blocked hi]
      by_cases hj : j = i
      · subst hj
        exact Or.inr ⟨rfl, hi, Function.update_self _ _ _⟩
      · exact Or.inl (Function.update_of_ne hj _ _)
    · rw [unblock_other fun i hi hb => h ⟨i, hi, hb⟩]
      exact Or.inl rfl

theorem mem_wake_queue {o o' : Obj} {n : Nat} (h : n ∈ (s.wake o).queue o') : n ∈ s.queue o' := by
  rw [queue_wake] at h
  by_cases ho : o' = o
  · subst ho
    rw [Function.update_self] at h
    exact List.mem_of_mem_tail h
  · rwa [Function.update_of_ne ho] at h

theorem wakes_thread (o : Obj) (j : Slot) : ∀ (n : Nat) (s : Kernel),
    (s.wakes o n).threads j = s.threads j ∨
    ((j : Nat) ∈ s.queue o ∧ (s.threads j).state = .blocked ∧
      (s.wakes o n).threads j = { s.threads j with state := .ready })
  | 0, _ => Or.inl rfl
  | n + 1, s => by
    rw [wakes]
    rcases wake_thread s o j with h | ⟨hhead, hst, h⟩ <;>
      rcases wakes_thread o j n (s.wake o) with h' | ⟨hmem', hst', h'⟩
    · exact Or.inl (h'.trans h)
    · rw [h] at hst' h'
      exact Or.inr ⟨mem_wake_queue hmem', hst', h'⟩
    · exact Or.inr ⟨List.mem_of_head? hhead, hst, h'.trans h⟩
    · rw [h] at hst'
      cases hst'

/-- The record of slot `i` is overwritten, and the CPU is in no thread's stack. -/
theorem ThreadMove.update {j i : Slot} {r : ThreadRecord}
    (ht : t.threads = Function.update s.threads i r) (hcpu : ∀ f, ¬ t.Entering j f)
    (hself : j = i → t.threads j = r → ThreadMove s l t j) : ThreadMove s l t j := by
  by_cases hj : j = i
  · refine hself hj ?_
    rw [ht, hj, Function.update_self]
  · refine .same ?_ hcpu
    rw [ht, Function.update_of_ne hj]

/-- The head of the queue of `o`, if it is `BLOCKED`, is made `READY`. -/
theorem ThreadMove.wake {j : Slot} {x : Ctx} {c : Call} {o : Obj} (hl : l = some (x, c))
    (hc : c.wakes = some o)
    (ht : t.threads j = s.threads j ∨ ((s.queue o).head? = some (j : Nat) ∧
      (s.threads j).state = .blocked ∧ t.threads j = { s.threads j with state := .ready }))
    (hcpu : ∀ f, ¬ t.Entering j f) : ThreadMove s l t j := by
  rcases ht with ht | ⟨hhead, hst, ht⟩
  · exact .same ht hcpu
  · exact .woken x c o hl hc (List.mem_of_head? hhead) (fun _ => hhead) hst ht hcpu

/-- In the dispatcher no thread's stack is loaded. -/
theorem not_entering_dispatcher {k : Kont} (hk : IsDispatcher k) (hcpu : t.cpu = .swap (some k))
    (j : Slot) (f : Frame) : ¬ t.Entering j f := by
  obtain ⟨act, caller, rfl⟩ := hk
  intro he
  rw [Entering, hcpu] at he
  nomatch he

theorem ThreadStep.thread_cases (hstep : ThreadStep s l t) (j : Slot) : ThreadMove s l t j := by
  cases hstep with
  | fail x c st _ _ => exact .same rfl nofun
  | query x c r _ _ => exact .same rfl nofun
  | createFail x c st i _ _ _ hi =>
    exact .update (i := i) rfl nofun fun hj hr => .created (hj ▸ hi) (Or.inl hr) nofun
  | create x c i r _ _ hi hst hctx =>
    refine .update (i := i) rfl nofun fun hj hr => ?_
    subst hj
    exact .created hi (Or.inr (by rw [hr]; exact ⟨hst, hctx⟩)) nofun
  | schedule caller _ => exact .same rfl nofun
  | yield i k hcpu hk =>
    have hoff := not_entering_dispatcher (t := s.leave i k) hk rfl j
    refine .update (i := i) rfl hoff fun hj hr => ?_
    subst hj
    exact .yielded rfl (Or.inl hcpu) hr hoff
  | cancel x tid i _ hfind hterm =>
    refine .update (i := i) rfl nofun fun hj hr => ?_
    subst hj
    exact .canceled x tid rfl hfind hterm hr nofun
  | exit i v r k hcpu htid _ hterm hk =>
    have hoff := not_entering_dispatcher (t := s.leave i k) hk rfl j
    refine .update (i := i) rfl hoff fun hj hr => ?_
    subst hj
    exact .exited v rfl (Or.inl hcpu) (by rw [hr]; exact hterm) (by rw [hr]; exact htid) hoff
  | release tid out i _ _ hterm =>
    exact .update (i := i) rfl nofun fun hj hr => .released (hj ▸ hterm) hr nofun

theorem SchedStep.thread_cases (hstep : SchedStep s l t) (j : Slot) : ThreadMove s l t j := by
  cases hstep with
  | dispatch caller act i f _ hst hctx _ =>
    by_cases hj : j = i
    · subst hj
      exact .dispatched f rfl hst hctx (Function.update_self _ _ _) rfl
    · refine .same (Function.update_of_ne hj _ _) fun f' he => hj ?_
      cases he
      rfl
  | backRelease act tid out i _ _ hterm =>
    exact .update (i := i) rfl nofun fun hj hr => .released (hj ▸ hterm) hr nofun
  | _ => exact .same rfl nofun

theorem MutexStep.thread_cases (hstep : MutexStep s l t) (j : Slot) : ThreadMove s l t j := by
  cases hstep with
  | lockBlock i m via l k hat hi _ hk =>
    have hoff := not_entering_dispatcher (t := s.leave i k) hk rfl j
    refine .update (i := i) rfl hoff fun hj hr => ?_
    subst hj
    refine .blocked (.mutex m) _ rfl hi ?_ hr hoff nofun
    cases hat with
    | call hcpu _ => exact Or.inl hcpu
    | woken i _ hi hcpu => cases hi; exact Or.inr ⟨_, hcpu⟩
    | relock i c hi hcpu _ => cases hi; exact Or.inr ⟨_, hcpu⟩
  | unlock x m _ _ _ _ =>
    exact .wake rfl rfl (wake_thread (s.setMutex m _) (.mutex m) j) nofun
  | _ => exact .same rfl nofun

theorem SemStep.thread_cases (hstep : SemStep s l t) (j : Slot) : ThreadMove s l t j := by
  cases hstep with
  | block i a k hcpu hi _ hk =>
    have hoff := not_entering_dispatcher (t := s.leave i k) hk rfl j
    refine .update (i := i) rfl hoff fun hj hr => ?_
    subst hj
    refine .blocked (.sem a) _ rfl hi (Or.inl hcpu) hr hoff fun c hc => ?_
    cases hc
    rfl
  | wake x a n q _ _ _ => exact .wake rfl rfl (wake_thread (s.log _) (.sem a) j) nofun
  | _ => exact .same rfl nofun

theorem CondStep.thread_cases (hstep : CondStep s l t) (j : Slot) : ThreadMove s l t j := by
  cases hstep with
  | block i c m k hcpu hi _ _ _ hk =>
    -- the caller is suspended, and then the first waiter for the mutex is woken
    have hoff := not_entering_dispatcher (t := s.leave i k) hk rfl j
    have hqueue : ((s.setMutex m { s.mutex m with locked := 0, owner := 0 }).wait i (.cond c)
        (.condWait c m)).queue (.mutex m) = s.queue (.mutex m) :=
      queue_wait_of_ne _ i _ (by simp)
    have hw := wake_thread ((s.setMutex m { s.mutex m with locked := 0, owner := 0 }).wait i
      (.cond c) (.condWait c m)) (.mutex m) j
    rw [hqueue] at hw
    by_cases hj : j = i
    · subst hj
      have hself : ((s.setMutex m { s.mutex m with locked := 0, owner := 0 }).wait j (.cond c)
          (.condWait c m)).threads j
          = { s.threads j with state := .blocked, ctx := some ⟨.green j, .condWait c m⟩ } :=
        Function.update_self _ _ _
      rw [hself] at hw
      rcases hw with hw | ⟨hhead, -, hw⟩
      · refine .blocked (.cond c) _ rfl hi (Or.inl hcpu) hw hoff fun d hd => ?_
        cases hd
        rfl
      · exact .passed c m rfl (Or.inl hcpu) (List.mem_of_head? hhead) hw hoff
    · have hne : ((s.setMutex m { s.mutex m with locked := 0, owner := 0 }).wait i (.cond c)
          (.condWait c m)).threads j = s.threads j := Function.update_of_ne hj _ _
      rw [hne] at hw
      exact .wake rfl rfl hw hoff
  | fail i c m st hcpu _ =>
    refine .update (i := i) rfl nofun fun hj hr => ?_
    subst hj
    exact .restored c m rfl (Or.inl hcpu) hr nofun
  | signal x c _ => exact .wake rfl rfl (wake_thread s (.cond c) j) nofun
  | broadcast x c _ =>
    rcases wakes_thread (.cond c) j (s.queue (.cond c)).length s with h | ⟨hmem, hst, h⟩
    · exact .same h nofun
    · exact .woken x _ (.cond c) rfl rfl hmem (fun hc => absurd rfl (hc c)) hst h nofun
  | _ => exact .same rfl nofun

/-- **Inversion for one thread.** -/
theorem Step.thread_cases (hstep : Step s l t) (j : Slot) : ThreadMove s l t j := by
  cases hstep with
  | thread hstep => exact hstep.thread_cases j
  | sched hstep => exact hstep.thread_cases j
  | mutex hstep => exact hstep.thread_cases j
  | sem hstep => exact hstep.thread_cases j
  | cond hstep => exact hstep.thread_cases j

/-! ## Where the CPU is -/

theorem Ok.onCpu (hok : s.Ok) {j : Slot} (h : s.OnCpu j) :
    (s.threads j).state = .running ∨ (s.threads j).state = .canceled := by
  rcases h with h | ⟨f, h⟩
  · exact hok.user j h
  · exact Or.inl (hok.enter j f h).1

/-- Calls are made by user code. -/
theorem Step.cpu_of_call {x : Ctx} {c : Call} (hstep : Step s (some (x, c)) t) :
    s.cpu = .user x := by
  cases hstep with
  | mutex h =>
    cases h with
    | acquire _ _ _ _ hat _ => cases hat with | call h _ => exact h
    | lockBlock _ _ _ _ _ hat _ _ _ => cases hat with | call h _ => exact h
    | _ => assumption
  | thread h => cases h <;> assumption
  | sched h => cases h
  | sem h => cases h <;> assumption
  | cond h => cases h <;> assumption

/-- A stack that has been loaded goes on before anything else happens. -/
theorem Step.label_of_entering {j : Slot} {f : Frame} (hstep : Step s l t) (h : s.Entering j f) :
    l = none := by
  cases l with
  | none => rfl
  | some xc =>
    have hcpu := hstep.cpu_of_call
    rw [Entering, hcpu] at h
    nomatch h

/-- A thread keeps its slot and its tid until it has ended and is released. -/
theorem ThreadMove.keeps {j : Slot} (hm : ThreadMove s l t j) (hne : (s.threads j).state ≠ .empty) :
    (threadIsTerminal (s.threads j).state = true ∧ (t.threads j).state = .empty) ∨
    ((t.threads j).state ≠ .empty ∧ (t.threads j).tid = (s.threads j).tid) := by
  cases hm with
  | same ht _ => rw [ht]; exact Or.inr ⟨hne, rfl⟩
  | woken _ _ _ _ _ _ _ _ ht _ => rw [ht]; exact Or.inr ⟨nofun, rfl⟩
  | dispatched _ _ _ _ ht _ => rw [ht]; exact Or.inr ⟨nofun, rfl⟩
  | yielded _ _ ht _ => rw [ht]; exact Or.inr ⟨nofun, rfl⟩
  | blocked _ _ _ _ _ ht _ _ => rw [ht]; exact Or.inr ⟨nofun, rfl⟩
  | passed _ _ _ _ _ ht _ => rw [ht]; exact Or.inr ⟨nofun, rfl⟩
  | restored _ _ _ _ ht _ => rw [ht]; exact Or.inr ⟨nofun, rfl⟩
  | exited _ _ _ hterm htid _ =>
    refine Or.inr ⟨fun h => ?_, htid⟩
    rw [h] at hterm
    nomatch hterm
  | canceled _ _ _ _ _ ht _ => rw [ht]; exact Or.inr ⟨nofun, rfl⟩
  | released hterm ht _ => exact Or.inl ⟨hterm, by rw [ht]⟩
  | created he _ _ => exact absurd he hne

theorem tidAt_slot (s : Kernel) (i : Slot) : s.tidAt i = (s.threads i).tid := dif_pos i.isLt

/-- Blocked threads keep their tids. -/
theorem tidAt_queue (hsound : WaitMap.Sound s.waiting s.queue)
    (hmove : ∀ j, ThreadMove s l t j) {n : Nat} {o : Obj} (hn : n ∈ s.queue o) :
    t.tidAt n = s.tidAt n := by
  obtain ⟨i, rfl, hst, -⟩ := waiting_some (hsound.waits o n hn)
  rw [tidAt_slot, tidAt_slot]
  refine (((hmove i).keeps ?_).resolve_left fun h => ?_).2
  · rw [hst]
    nofun
  · rw [hst] at h
    nomatch h.1

/-! ## Threads off the CPU -/

/-- The thread of slot `j` is suspended at `f`. -/
def OffAt (s : Kernel) (j : Slot) (f : Frame) : Prop :=
  ((s.threads j).state = .ready ∨ (s.threads j).state = .blocked) ∧
    (s.threads j).ctx = some ⟨.green j, f⟩

theorem OffAt.not_onCpu {j : Slot} {f : Frame} (h : s.OffAt j f) (hok : s.Ok) : ¬ s.OnCpu j := by
  intro hon
  rcases hok.onCpu hon with hs | hs <;> rcases h.1 with hs' | hs' <;> nomatch hs.symm.trans hs'

/-- **Where a suspended thread comes from**: it was suspended there before, or it has just run into
    the wait. -/
theorem ThreadMove.wait_cases {j : Slot} (hm : ThreadMove s l t j) {f : Frame}
    (hf : f.waits ≠ none) (h : t.OffAt j f ∨ t.Entering j f) :
    (s.OffAt j f ∧ (t.threads j).tid = (s.threads j).tid) ∨
    (s.OnCpu j ∧ t.OffAt j f ∧ (∀ c, f.waitCall = some c → l = some (.green j, c)) ∧
      ∀ m, f.waits = some (.mutex m) → (s.mutex m).initialized ≠ 0) := by
  have hoff : (∀ f', ¬ t.Entering j f') → t.OffAt j f := fun hn => h.resolve_right (hn f)
  -- a record that says something else contradicts `h`
  have hstate : ∀ {r : ThreadRecord}, t.threads j = r → r.state ≠ .ready → r.state ≠ .blocked →
      (∀ f', ¬ t.Entering j f') → False := by
    intro r ht hr hb hn
    rcases (hoff hn).1 with hs | hs
    · exact hr (ht ▸ hs)
    · exact hb (ht ▸ hs)
  have hctx : ∀ {f' : Frame}, (t.threads j).ctx = some ⟨.green j, f'⟩ →
      (∀ f', ¬ t.Entering j f') → f' = f := by
    intro f' ht hn
    exact congrArg Kont.frame (Option.some.inj (ht.symm.trans (hoff hn).2))
  cases hm with
  | same ht hn =>
    refine Or.inl ⟨?_, by rw [ht]⟩
    have ho := hoff hn
    unfold OffAt at ho
    rwa [ht] at ho
  | woken _ _ _ _ _ _ _ hst ht hn =>
    refine Or.inl ⟨⟨Or.inr hst, ?_⟩, by rw [ht]⟩
    have ho := (hoff hn).2
    rwa [ht] at ho
  | dispatched f' _ hst hc ht he =>
    refine Or.inl ⟨⟨Or.inl hst, ?_⟩, by rw [ht]⟩
    rcases h with ho | he'
    · rcases ho.1 with hs | hs <;> rw [ht] at hs <;> nomatch hs
    · obtain rfl : f' = f :=
        congrArg Kont.frame (Option.some.inj (Cpu.swap.inj (he.symm.trans he')))
      exact hc
  | yielded _ _ ht hn =>
    obtain rfl := hctx (by rw [ht]) hn
    exact absurd rfl hf
  | blocked o f' hwaits hi hon ht hn hcall =>
    obtain rfl := hctx (by rw [ht]) hn
    refine Or.inr ⟨hon, hoff hn, hcall, fun m hm => ?_⟩
    obtain rfl : o = .mutex m := Option.some.inj (hwaits.symm.trans hm)
    exact hi
  | passed c m hl hon _ ht hn =>
    obtain rfl := hctx (by rw [ht]) hn
    refine Or.inr ⟨hon, hoff hn, fun d hd => ?_, nofun⟩
    cases hd
    exact hl
  | restored _ _ _ _ ht hn => exact (hstate ht nofun nofun hn).elim
  | exited _ _ _ hterm _ hn =>
    refine (hstate rfl (fun hs => ?_) (fun hs => ?_) hn).elim <;>
    · rw [hs] at hterm
      nomatch hterm
  | canceled _ _ _ _ _ ht hn => exact (hstate ht nofun nofun hn).elim
  | released _ ht hn => exact (hstate ht nofun nofun hn).elim
  | created _ ht hn =>
    rcases ht with ht | ⟨-, hc⟩
    · exact (hstate ht nofun nofun hn).elim
    · obtain rfl := hctx hc hn
      exact absurd rfl hf

end
end Kernel
end Gth
