/-
  In which order threads of equal priority run.

  There is no ready queue: under `GTH_SCHED_PRIORITY` the next thread is the `READY` one of the
  highest priority, and among those of equal priority the one with the smallest tid.  Where a thread
  stands in this order is fixed when it is created, and a yield does not move it.  So a thread that
  yields lets those of the same priority pass whose tids are smaller than its own, and no others.

  That those pass holds whatever happens after the yield (`rotates_of_lt`).  That no others do is
  shown by a continuation of the run in which the thread is dispatched again while the other one
  stays `READY`: main calls the scheduler, and whoever else gets the CPU first exits (`Contest`).
-/
import Gthreads.Modes
import Gthreads.Terminal
import Gthreads.WellFormed

namespace Gth
namespace Core
variable {s t : Core} {x : Ctx} {i : Slot}

/-! ## What never changes

    A thread keeps its tid and its priority as long as it has its slot, in any state whatever. -/

/-- The configuration, and the tids and priorities in the thread table. -/
def roster (s : Core) : Config × (Slot → Tid × Nat) :=
  (s.config, fun j => ((s.threads j).tid, (s.threads j).priority))

theorem coarse_roster : Coarse fun s t => t.roster = s.roster where
  of_footing := fun h => congrArg (fun p => (p.1.2.1, p.2.2.2)) h
  trans := fun h h' => h'.trans h

/-- Whoever keeps their slot keeps tid and priority. -/
def Seated (s t : Core) : Prop := t.config = s.config ∧
  ∀ j, (s.threads j).state ≠ .empty → (t.threads j).state ≠ .empty →
    (t.threads j).tid = (s.threads j).tid ∧ (t.threads j).priority = (s.threads j).priority

theorem Seated.of_roster (h : t.roster = s.roster) : Seated s t := by
  obtain ⟨hconfig, hseats⟩ := Prod.mk.inj h
  exact ⟨hconfig, fun j _ _ => Prod.mk.inj (congrFun hseats j)⟩

/-- A record is overwritten whose slot was or becomes `EMPTY`. -/
theorem Seated.set {r : ThreadRecord} (hconfig : t.config = s.config)
    (ht : t.threads = Function.update s.threads i r)
    (hi : (s.threads i).state = .empty ∨ r.state = .empty) : Seated s t := by
  refine ⟨hconfig, fun j hs hj => ?_⟩
  rw [ht] at hj ⊢
  by_cases hji : j = i
  · subst hji
    rw [Function.update_self] at hj
    rcases hi with hi | hi
    · exact absurd hi hs
    · exact absurd hi hj
  · rw [Function.update_of_ne hji]
    exact ⟨rfl, rfl⟩

theorem seated_threadCreate (s : Core) (outTid : Bool) (attr : Option Nat) (fn arg : Nat)
    (env : MapEnv) : Seated s (s.threadCreate outTid attr fn arg env).2 := by
  rcases threadCreate_cases (s := s) outTid attr fn arg env with
      ⟨st, -, h⟩ | ⟨i, hi, ⟨st, -, h⟩ | ⟨r, es, -, -, -, -, h⟩⟩ <;> rw [h]
  · exact .of_roster rfl
  · exact .set rfl rfl (Or.inl hi)
  · exact .set rfl rfl (Or.inl hi)

theorem JoinMove.seated {tid : Tid} {out : Bool} (h : JoinMove s x tid out t) : Seated s t := by
  cases h with
  | fail st => exact .of_roster rfl
  | sched target => exact .of_roster rfl
  | free i runnable blocked retval _ => exact .set rfl rfl (Or.inr rfl)

theorem exec_seated (s : Core) (x : Ctx) (c : Call) : Seated s (s.exec x c) := by
  cases c with
  | create outTid attr fn arg env => exact seated_threadCreate s outTid attr fn arg env
  | join tid out => exact (s.threadJoin_move x tid out).seated
  | _ =>
    exact .of_roster (coarse_roster.exec (fun _ _ _ => rfl) (fun _ _ _ => rfl) (fun _ _ => rfl)
      (fun _ _ _ _ => rfl) s x rfl (by rintro _ _ ⟨⟩))

theorem resume_seated (s : Core) (k : Kont) : Seated s (s.resume k) := by
  unfold resume
  split
  · exact .of_roster rfl
  · exact .of_roster rfl
  · exact .of_roster (coarse_roster.lockLoop (fun _ _ _ => rfl) (fun _ _ => rfl) s k.ctx _ _ _ _)
  · exact .of_roster rfl
  · exact .of_roster (coarse_roster.mutexLock (fun _ _ _ => rfl) (fun _ _ => rfl) s k.ctx _ _)
  · dsimp only
    split
    · exact .of_roster rfl
    · exact (joinLoop_move { s with currentTid := _, hist := _ } k.ctx _ _ _).seated

theorem runNext_seated (s : Core) (x : Ctx) (caller : Caller) (pick : Option Slot) :
    Seated s (s.runNext x caller pick) := by
  cases pick with
  | none => cases caller <;> exact .of_roster rfl
  | some i =>
    rw [runNext_some]
    have hstate := coarse_roster.of_footing (s.footing_setState i .running)
    exact .of_roster hstate

end Core

/-- A call of the mode and trace interface. -/
def Label.isSub : Label → Bool
  | .sub _ _ => true
  | _ => false

namespace State
variable {W : World} {s t : State} {l : Label}

theorem step_seated (h : State.step W s l = some t) : s.core.Seated t.core := by
  rcases State.step_cases h with ⟨x, c, -, -, rfl⟩ | ⟨x, c, -, -, -, rfl⟩ |
      ⟨x, caller, pick, sub, -, -, -, rfl⟩ | ⟨k, -, -, rfl⟩
  · exact .of_roster rfl
  · exact s.fresh.exec_seated x c
  · exact s.fresh.runNext_seated x caller pick
  · exact s.fresh.resume_seated k

/-- Only the mode interface leaves `NORMAL`. -/
theorem step_normal (hl : l.isSub = false) (hmode : s.sub.mode = .normal)
    (h : State.step W s l = some t) : t.sub.mode = .normal := by
  rcases State.step_cases h with ⟨x, c, rfl, -, rfl⟩ | ⟨x, c, -, -, -, rfl⟩ |
      ⟨x, caller, pick, sub, -, -, hp, rfl⟩ | ⟨k, -, -, rfl⟩
  · cases hl
  · exact (s.settle_mode _).trans hmode
  · have hsub := (pickReadyThreadMode_frame (by rw [hmode]; nofun) hp).1
    exact (State.settle_mode _ _).trans (hsub.trans hmode)
  · exact (s.settle_mode _).trans hmode

end State

/-! ## The pick -/

section
variable {W : World} {s t v w : State} {i j k : Slot} {l : Label}

/-- In `NORMAL` mode the policy decides. -/
theorem State.selects_priority_iff (hmode : s.sub.mode = .normal)
    (hpolicy : s.core.config.policy = .priority) :
    s.Selects W i ↔ (∃ x caller, s.core.cpu = .sched x caller) ∧
      pickPriority s.core.threads = some i := by
  have hpick : s.sub.pickReadyThreadMode W s.core.config.policy s.core.threads
      = some (pickPriority s.core.threads, s.sub) := by
    rw [hpolicy]
    exact pickReadyThreadMode_policy W .priority (fun h => by rw [hmode] at h; cases h)
      (fun h => by rw [hmode] at h; cases h)
  constructor
  · rintro ⟨x, caller, sub, hcpu, hsel⟩
    rw [hpick] at hsel
    exact ⟨⟨x, caller, hcpu⟩, congrArg Prod.fst (Option.some.inj hsel)⟩
  · rintro ⟨⟨x, caller, hcpu⟩, hp⟩
    rw [hp] at hpick
    exact ⟨x, caller, s.sub, hcpu, hpick⟩

/-- From `t` on, as long as the mode is `NORMAL`: the thread of slot `i` is not selected before
    that of slot `j` has ceased to be `READY`, by a dispatch or otherwise, or slot `i` was
    released. -/
def Rotates (W : World) (t : State) (i j : Slot) : Prop :=
  ∀ ms, Exec.Always (State.step W) (fun v => v.sub.mode = .normal) t ms →
    Exec.Unless (State.step W) (fun v _ => ¬ v.Selects W i)
      (fun _ w => (w.core.threads j).state ≠ .ready ∨ (w.core.threads i).state = .empty) t ms

/-- **Whoever is ahead in the order of priorities and tids goes first**, whatever happens. -/
theorem rotates_of_rank (hpolicy : t.core.config.policy = .priority)
    (hi : (t.core.threads i).state ≠ .empty) (hj : (t.core.threads j).state = .ready)
    (hrank : rank t.core.threads i < rank t.core.threads j) : Rotates W t i j := by
  intro ms hmode
  refine Exec.unless_inv (I := fun v : State => v.core.config.policy = .priority ∧
      (v.core.threads i).state ≠ .empty ∧ (v.core.threads j).state = .ready ∧
      rank v.core.threads i < rank v.core.threads j)
    (fun v l w hI hG hstep => ?_) ms t ⟨hpolicy, hi, hj, hrank⟩ (Exec.along_of_always ms t hmode)
  obtain ⟨hpolicy, hi, hj, hrank⟩ := hI
  by_cases hQ : (w.core.threads j).state ≠ .ready ∨ (w.core.threads i).state = .empty
  · exact Or.inl hQ
  · obtain ⟨hj', hi'⟩ := not_or.mp hQ
    obtain ⟨hconfig, hseats⟩ := State.step_seated hstep
    obtain ⟨htid, hprio⟩ := hseats i hi hi'
    obtain ⟨htid', hprio'⟩ := hseats j (by rw [hj]; nofun) (by rw [not_not.mp hj']; nofun)
    refine Or.inr ⟨fun hsel => ?_, by rw [hconfig]; exact hpolicy, hi', not_not.mp hj', ?_⟩
    · have hpick := ((State.selects_priority_iff hG.1 hpolicy).mp hsel).2
      exact absurd (pickPriority_greatest hpick hj) (not_le_of_gt hrank)
    · rw [rank_lt] at hrank ⊢
      rw [htid, hprio, htid', hprio']
      exact hrank

/-! ## A continuation in which the other thread waits -/

/-- The run can go on to a point at which slot `i` is selected, in `NORMAL` mode, while slot `j` is
    `READY` all the time. -/
def Overtakes (W : World) (v : State) (i j : Slot) : Prop :=
  ∃ ms w, Exec.exec (State.step W) v ms = some w ∧
    Exec.Always (State.step W) (fun u => u.sub.mode = .normal ∧
      (u.core.threads j).state = .ready ∧ (u.core.threads i).state ≠ .empty) v ms ∧
    w.Selects W i

theorem Overtakes.not_rotates (h : Overtakes W v i j) (hij : j ≠ i) : ¬ Rotates W v i j := by
  obtain ⟨ms, w, hrun, halways, hsel⟩ := h
  intro hrot
  obtain ⟨hmode, hj, -⟩ := Exec.always_last ms v w halways hrun
  have hselects := hsel
  obtain ⟨x, caller, sub, hcpu, hpick⟩ := hsel
  -- the dispatch
  have hstep := State.step_sched hcpu hpick
  have hmode' := State.step_normal rfl hmode hstep
  have hnormal : Exec.Always (State.step W) (fun u => u.sub.mode = .normal) v (ms ++ [.tau]) := by
    refine Exec.always_append ms v w hrun (Exec.always_mono (fun _ hu => hu.1) ms v halways)
      ⟨hmode, fun u hu => ?_⟩
    obtain rfl := Option.some.inj (hstep.symm.trans hu)
    exact hmode'
  have hlast := Exec.unless_append
    (P := fun u : State => u.sub.mode = .normal ∧ (u.core.threads j).state = .ready ∧
      (u.core.threads i).state ≠ .empty)
    (fun _ u hu hq => hq.elim (fun h => h hu.2.1) hu.2.2) ms v w hrun halways (hrot _ hnormal)
  rcases hlast _ hstep with hq | ⟨hno, -⟩
  · have hcore : ∀ k, (({ w with sub := sub } : State).settle W
        (w.fresh.runNext x caller (some i))).core.threads k
        = Function.update w.core.threads i { w.core.threads i with state := .running } k := by
      intro k
      show (w.fresh.runNext x caller (some i)).threads k = _
      rw [Core.runNext_some]
      rfl
    rw [hcore, hcore, Function.update_self, Function.update_of_ne hij] at hq
    rcases hq with hq | hq
    · exact hq hj
    · cases hq
  · exact hno hselects

theorem Overtakes.step (hmode : v.sub.mode = .normal) (hj : (v.core.threads j).state = .ready)
    (hi : (v.core.threads i).state ≠ .empty) (hstep : State.step W v l = some w)
    (h : Overtakes W w i j) : Overtakes W v i j := by
  obtain ⟨ms, u, hrun, halways, hsel⟩ := h
  refine ⟨l :: ms, u, Option.bind_eq_some_iff.mpr ⟨w, hstep, hrun⟩,
    ⟨⟨hmode, hj, hi⟩, fun w' hw' => ?_⟩, hsel⟩
  obtain rfl := Option.some.inj (hstep.symm.trans hw')
  exact halways

/-- The threads of the slots `i` and `j` have equal priorities, nobody who is `READY` has a higher
    one, and `i` has the smaller tid. -/
structure Contest (v : State) (i j : Slot) : Prop where
  wf : v.core.WF
  issued : v.core.issued < 2 ^ 64
  mode : v.sub.mode = .normal
  policy : v.core.config.policy = .priority
  first : (v.core.threads i).state = .ready
  second : (v.core.threads j).state = .ready
  before : (v.core.threads i).tid < (v.core.threads j).tid
  equal : (v.core.threads j).priority = (v.core.threads i).priority
  top : ∀ k, (v.core.threads k).state = .ready →
    (v.core.threads k).priority ≤ (v.core.threads i).priority

/-- Nobody becomes `READY`. -/
def Thins (a b : Slot → ThreadRecord) : Prop :=
  ∀ k, (b k).state = .ready → (a k).state = .ready

theorem Thins.set (a : Slot → ThreadRecord) {r : ThreadRecord} (hr : r.state ≠ .ready) :
    Thins a (Function.update a k r) := by
  intro m hm
  by_cases hmk : m = k
  · subst hmk
    rw [Function.update_self] at hm
    exact absurd hm hr
  · rwa [Function.update_of_ne hmk] at hm

theorem Contest.next (h : Contest v i j) (hjoin : l.joinsFromMain = true) (hcreate : l.isCreate = false)
    (hl : l.isSub = false) (hstep : State.step W v l = some w)
    (hthin : Thins v.core.threads w.core.threads) (hi : w.core.threads i = v.core.threads i)
    (hj : w.core.threads j = v.core.threads j) : Contest w i j := by
  have hlt : v.core.issued + (if l.isCreate then 1 else 0) < 2 ^ 64 := by
    rw [hcreate]
    exact h.issued
  obtain ⟨hwf, hissued⟩ := State.step_wf h.wf hjoin hlt hstep
  obtain ⟨hconfig, hseats⟩ := State.step_seated hstep
  refine ⟨hwf, Nat.lt_of_le_of_lt hissued hlt, State.step_normal hl h.mode hstep,
    by rw [hconfig]; exact h.policy, by rw [hi]; exact h.first, by rw [hj]; exact h.second,
    by rw [hi, hj]; exact h.before, by rw [hi, hj]; exact h.equal, fun k hk => ?_⟩
  have hk' := hthin k hk
  rw [(hseats k (by rw [hk']; nofun) (by rw [hk]; nofun)).2, hi]
  exact h.top k hk'

/-- One thread, which is neither of the two, changes its record, and is not `READY` after that. -/
theorem Contest.update (h : Contest v i j) (hjoin : l.joinsFromMain = true)
    (hcreate : l.isCreate = false) (hl : l.isSub = false) (hstep : State.step W v l = some w)
    {r : ThreadRecord} (hr : r.state ≠ .ready) (hki : k ≠ i) (hkj : k ≠ j)
    (ht : w.core.threads = Function.update v.core.threads k r) : Contest w i j := by
  refine h.next hjoin hcreate hl hstep (ht ▸ .set v.core.threads hr) ?_ ?_
  · rw [ht, Function.update_of_ne hki.symm]
  · rw [ht, Function.update_of_ne hkj.symm]

theorem Contest.same (h : Contest v i j) (hjoin : l.joinsFromMain = true)
    (hcreate : l.isCreate = false) (hl : l.isSub = false) (hstep : State.step W v l = some w)
    (ht : w.core.threads = v.core.threads) : Contest w i j :=
  h.next hjoin hcreate hl hstep (by rw [ht]; exact fun _ => id) (by rw [ht]) (by rw [ht])

theorem Contest.overtakes_of_step (h : Contest v i j) (hstep : State.step W v l = some w)
    (hw : Overtakes W w i j) : Overtakes W v i j :=
  hw.step h.mode h.second (by rw [h.first]; nofun) hstep

/-- The `READY` slots. -/
def readySlots (threads : Slot → ThreadRecord) : Finset Slot :=
  Finset.univ.filter fun k => (threads k).state = .ready

theorem mem_readySlots {threads : Slot → ThreadRecord} :
    k ∈ readySlots threads ↔ (threads k).state = .ready := by
  rw [readySlots, Finset.mem_filter]
  exact and_iff_right (Finset.mem_univ k)

theorem Thins.card_le {a b : Slot → ThreadRecord} (h : Thins a b) :
    (readySlots b).card ≤ (readySlots a).card :=
  Finset.card_le_card fun k hk => mem_readySlots.mpr (h k (mem_readySlots.mp hk))

theorem Thins.card_lt {a b : Slot → ThreadRecord} (h : Thins a b) (hk : (a k).state = .ready)
    (hk' : (b k).state ≠ .ready) : (readySlots b).card < (readySlots a).card := by
  refine Finset.card_lt_card ⟨fun m hm => mem_readySlots.mpr (h m (mem_readySlots.mp hm)),
    fun hsub => hk' ?_⟩
  exact mem_readySlots.mp (hsub (mem_readySlots.mpr hk))

/-- Main runs, or is about to. -/
inductive AtMain (c : Core) : Prop where
  | user : c.cpu = .user .main → AtMain c
  | sched (caller : Caller) : c.cpu = .sched .main caller → AtMain c
  | back (act : Nat) (caller : Caller) :
      c.cpu = .swap (some ⟨.main, .runNext act 0 caller⟩) → AtMain c

/-- A thread that is switched to gets to its own code, or it blocks again. -/
theorem Core.Live.resume_cases {s : Core} (h : s.Live (.green k)) {f : Frame} (hf : f.Parked k) :
    ((s.resume ⟨.green k, f⟩).threads = s.threads ∧
      (s.resume ⟨.green k, f⟩).cpu = .user (.green k)) ∨
    ((∃ r, r.state = .blocked ∧
        (s.resume ⟨.green k, f⟩).threads = Function.update s.threads k r) ∧
      (s.resume ⟨.green k, f⟩).cpu = .swap s.schedulerCtx) := by
  have hcur := h.current
  cases f with
  | entry => exact Or.inl ⟨rfl, rfl⟩
  | yield => exact Or.inl ⟨rfl, rfl⟩
  | lock m mySlot via =>
    obtain rfl : mySlot = k := hf
    show ((s.lockLoop (.green k) m k via (wqFixedSlots + 1)).threads = _ ∧
        (s.lockLoop (.green k) m k via (wqFixedSlots + 1)).cpu = _) ∨
      ((∃ r, _ ∧ (s.lockLoop (.green k) m k via (wqFixedSlots + 1)).threads = _) ∧
        (s.lockLoop (.green k) m k via (wqFixedSlots + 1)).cpu = _)
    rcases Core.lockLoop_cases hcur m via wqFixedSlots with ⟨-, -, h⟩ | ⟨-, -, es, h⟩ | ⟨-, h⟩ <;>
      rw [h]
    · exact Or.inl ⟨rfl, rfl⟩
    · exact Or.inr ⟨⟨_, rfl, rfl⟩, rfl⟩
    · exact Or.inl ⟨rfl, rfl⟩
  | semWait a => exact Or.inl ⟨rfl, rfl⟩
  | condWait c m =>
    show ((s.mutexLock (.green k) m (some c)).threads = _ ∧
        (s.mutexLock (.green k) m (some c)).cpu = _) ∨
      ((∃ r, _ ∧ (s.mutexLock (.green k) m (some c)).threads = _) ∧
        (s.mutexLock (.green k) m (some c)).cpu = _)
    rcases Core.mutexLock_cases h.knows m (some c) with ⟨st, -, -, h⟩ | ⟨-, -, h⟩ |
        ⟨k', es, he, -, -, -, -, -, h⟩ <;> rw [h]
    · exact Or.inl ⟨rfl, rfl⟩
    · exact Or.inl ⟨rfl, rfl⟩
    · obtain rfl := Ctx.green.inj he
      exact Or.inr ⟨⟨_, rfl, rfl⟩, rfl⟩
  | runNext act prev caller => exact hf.elim

/-- A thread that has the CPU leaves it for main, `READY` no more. -/
theorem Contest.leaves (h : Contest v i j) (hki : k ≠ i) (hkj : k ≠ j)
    (hcpu : v.core.cpu = .user (.green k)) :
    ∃ w, State.step W v (.call (.green k) (.exit 0)) = some w ∧ Contest w i j ∧ AtMain w.core ∧
      Thins v.core.threads w.core.threads := by
  have hlive : v.core.Live (.green k) := h.wf.live hcpu
  obtain ⟨act, caller, hsched, -⟩ := hlive.ctx.sched
  obtain ⟨r, es, -, -, -, hterm, hexit⟩ := Core.threadExit_eq (s := v.fresh) k 0
  have hstep := State.step_call (W := W) (c := .exit 0) hcpu rfl
  have hcore : (v.settle W (v.fresh.exec (.green k) (.exit 0))).core = v.fresh.threadExit k 0 := rfl
  have hr : r.state ≠ .ready := by
    intro hr
    rw [hr] at hterm
    cases hterm
  have hth : (v.settle W (v.fresh.exec (.green k) (.exit 0))).core.threads
      = Function.update v.core.threads k r := by
    rw [hcore, hexit]
    rfl
  refine ⟨_, hstep, h.update rfl rfl rfl hstep hr hki hkj hth, ?_,
    hth ▸ .set v.core.threads hr⟩
  refine .back act caller ?_
  rw [hcore, hexit]
  exact congrArg Cpu.swap hsched

/-- **The scheduler runs on main's stack**: slot `i` is selected, or another thread is, and gives
    the CPU back without being `READY`. -/
theorem Contest.overtakes_sched {n : Nat}
    (ih : ∀ v, Contest v i j → (readySlots v.core.threads).card ≤ n → AtMain v.core →
      Overtakes W v i j)
    (h : Contest v i j) (hcard : (readySlots v.core.threads).card ≤ n + 1) {caller : Caller}
    (hcpu : v.core.cpu = .sched .main caller) : Overtakes W v i j := by
  have hselects := fun k => State.selects_priority_iff (W := W) (i := k) h.mode h.policy
  cases hpick : pickPriority v.core.threads with
  | none => exact absurd h.first (pickPriority_none hpick i)
  | some k =>
    have hsel := (hselects k).mpr ⟨⟨.main, caller, hcpu⟩, hpick⟩
    by_cases hki : k = i
    · subst hki
      exact ⟨[], v, rfl, ⟨h.mode, h.second, by rw [h.first]; nofun⟩, hsel⟩
    have hkj : k ≠ j := by
      rintro rfl
      have hle := pickPriority_greatest hpick h.first
      rcases (rank_le i k).mp hle with hlt | ⟨-, hle⟩
      · exact absurd h.equal (Nat.ne_of_gt hlt)
      · exact absurd h.before (Nat.not_lt_of_le hle)
    have hready := pickPriority_ready hpick
    obtain ⟨f, hctx, hparked, -⟩ := h.wf.body.parked k (Or.inl hready)
    -- the dispatch
    obtain ⟨x, caller', sub, hcpu', hp⟩ := hsel
    rw [hcpu] at hcpu'
    cases hcpu'
    have hstep := State.step_sched hcpu hp
    generalize hv₁ : ({ v with sub := sub } : State).settle W (v.fresh.runNext .main caller (some k))
      = v₁ at hstep
    have hcore₁ : v₁.core = v.fresh.dispatch .main caller k := by
      rw [← hv₁, ← Core.runNext_some]
      rfl
    have hth₁ : v₁.core.threads
        = Function.update v.core.threads k { v.core.threads k with state := .running } := by
      rw [hcore₁]
      rfl
    have h₁ : Contest v₁ i j := h.update rfl rfl rfl hstep (by nofun) hki hkj hth₁
    have hrun₁ : (v₁.core.threads k).state = .running := by rw [hth₁, Function.update_self]
    have hcard₁ : (readySlots v₁.core.threads).card ≤ n := by
      have hthin : Thins v.core.threads v₁.core.threads := hth₁ ▸ .set v.core.threads (by nofun)
      have hlt := hthin.card_lt hready (by rw [hrun₁]; nofun)
      omega
    have hcpu₁ : v₁.core.cpu = .swap (some ⟨.green k, f⟩) := by
      rw [hcore₁]
      exact congrArg Cpu.swap hctx
    refine h.overtakes_of_step hstep ?_
    -- the thread is resumed
    obtain ⟨k', f', he, -, -, hlive⟩ : ∃ k' f', (⟨.green k, f⟩ : Kont) = ⟨.green k', f'⟩ ∧
        f'.Parked k' ∧ (v₁.core.threads k').state = .running ∧ v₁.core.Live (.green k') := by
      rcases h₁.wf.swap hcpu₁ with ⟨act, caller', he, -⟩ | hk
      · cases he
      · exact hk
    cases he
    have hlive' : v₁.fresh.Live (.green k) := ⟨hlive.body, hlive.ctx⟩
    obtain ⟨act, caller', hsched, -⟩ := hlive.ctx.sched
    have hstep₂ := State.step_swap (W := W) hcpu₁
    generalize hv₂ : v₁.settle W (v₁.fresh.resume ⟨.green k, f⟩) = v₂ at hstep₂
    have hcore₂ : v₂.core = v₁.fresh.resume ⟨.green k, f⟩ := by
      rw [← hv₂]
      rfl
    refine h₁.overtakes_of_step hstep₂ ?_
    rcases hlive'.resume_cases hparked with ⟨hth₂, hcpu₂⟩ | ⟨⟨r, hr, hth₂⟩, hcpu₂⟩
    · -- it exits
      rw [← hcore₂] at hth₂ hcpu₂
      have hth₂ : v₂.core.threads = v₁.core.threads := hth₂
      have h₂ := h₁.same rfl rfl rfl hstep₂ hth₂
      obtain ⟨v₃, hstep₃, h₃, hmain, hthin⟩ := h₂.leaves (W := W) hki hkj hcpu₂
      refine h₂.overtakes_of_step hstep₃ (ih v₃ h₃ ?_ hmain)
      have hle := hthin.card_le
      rw [hth₂] at hle
      omega
    · rw [← hcore₂] at hth₂ hcpu₂
      have hth₂ : v₂.core.threads = Function.update v₁.core.threads k r := hth₂
      have h₂ := h₁.update rfl rfl rfl hstep₂ (by rw [hr]; nofun) hki hkj hth₂
      have hthin : Thins v₁.core.threads v₂.core.threads :=
        hth₂ ▸ .set v₁.core.threads (by rw [hr]; nofun)
      have hle := hthin.card_le
      exact ih v₂ h₂ (by omega) (.back act caller' (hcpu₂.trans (congrArg Cpu.swap hsched)))

/-- **Main can always bring slot `i` to be dispatched while slot `j` is `READY`.** -/
theorem Contest.overtakes : ∀ (n : Nat) (v : State), Contest v i j →
    (readySlots v.core.threads).card ≤ n → AtMain v.core → Overtakes W v i j := by
  intro n
  induction n with
  | zero =>
    intro v h hcard _
    have hmem := mem_readySlots.mpr h.first
    rw [Finset.card_eq_zero.mp (Nat.le_zero.mp hcard)] at hmem
    exact absurd hmem (Finset.notMem_empty i)
  | succ n ih =>
    have hsched : ∀ (v : State) (caller : Caller), Contest v i j →
        (readySlots v.core.threads).card ≤ n + 1 → v.core.cpu = .sched .main caller →
        Overtakes W v i j := fun v caller h hcard hcpu => h.overtakes_sched ih hcard hcpu
    have huser : ∀ v : State, Contest v i j → (readySlots v.core.threads).card ≤ n + 1 →
        v.core.cpu = .user .main → Overtakes W v i j := by
      intro v h hcard hcpu
      have hlive : v.fresh.Live .main := ⟨h.wf.body, (h.wf.live hcpu).ctx⟩
      have hstep := State.step_call (W := W) (c := .yield) hcpu rfl
      have hcore : v.fresh.exec .main .yield = { v.fresh with cpu := .sched .main .yield } := by
        rcases Core.threadYield_cases hlive.knows with ⟨-, hy⟩ | ⟨hne, -⟩ | ⟨k, es, he, -⟩
        · exact hy
        · exact absurd hlive.ctx.1 hne
        · cases he
      generalize hw : v.settle W (v.fresh.exec .main .yield) = w at hstep
      have hcore' : w.core = { v.fresh with cpu := .sched .main .yield } := by
        rw [← hw, ← hcore]
        rfl
      have hth : w.core.threads = v.core.threads := by rw [hcore']; rfl
      refine h.overtakes_of_step hstep
        (hsched w .yield (h.same rfl rfl rfl hstep hth) (by rw [hth]; exact hcard) ?_)
      rw [hcore']
    intro v h hcard hmain
    cases hmain with
    | user hcpu => exact huser v h hcard hcpu
    | sched caller hcpu => exact hsched v caller h hcard hcpu
    | back act caller hcpu =>
      have hstep := State.step_swap (W := W) hcpu
      obtain ⟨act', caller', he, hlive, hcaller⟩ : ∃ act' caller',
          (⟨.main, .runNext act 0 caller⟩ : Kont) = ⟨.main, .runNext act' 0 caller'⟩ ∧
          Core.Live { v.core with currentTid := 0 } .main ∧ CallerOk v.core.threads caller' := by
        rcases h.wf.swap hcpu with hk | ⟨k, f, he, -⟩
        · exact hk
        · cases he
      cases he
      generalize hw : v.settle W (v.fresh.resume ⟨.main, .runNext act 0 caller⟩) = w at hstep
      have hcore : w.core = v.fresh.resume ⟨.main, .runNext act 0 caller⟩ := by rw [← hw]; rfl
      refine h.overtakes_of_step hstep ?_
      cases caller with
      | yield =>
        have hth : w.core.threads = v.core.threads := by rw [hcore]; rfl
        exact huser w (h.same rfl rfl rfl hstep hth) (by rw [hth]; exact hcard)
          (by rw [hcore]; rfl)
      | join tid out target =>
        have hknows : Core.Knows { v.fresh with
            currentTid := 0, hist := .resume act .main :: v.fresh.hist } .main :=
          ⟨hlive.body.init, hlive.body.tids, rfl⟩
        rcases Core.joinLoop_cases (x := .main) hknows hcaller with ⟨hterm, hj⟩ | hj
        · -- the join returns
          have hth : w.core.threads = Function.update v.core.threads target {} := by
            rw [hcore]
            exact (congrArg Core.threads hj).trans rfl
          have hne : ∀ k, (v.core.threads k).state = .ready → target ≠ k := by
            rintro k hk rfl
            have hterm : threadIsTerminal (v.core.threads target).state = true := hterm
            rw [hk] at hterm
            cases hterm
          have hw' := h.update rfl rfl rfl hstep (r := {}) (by nofun)
            (hne i h.first) (hne j h.second) hth
          have hthin : Thins v.core.threads w.core.threads :=
            hth ▸ .set v.core.threads (by nofun)
          have hle := hthin.card_le
          refine huser w hw' (by omega) ?_
          rw [hcore]
          exact (congrArg Core.cpu hj).trans rfl
        · have hth : w.core.threads = v.core.threads := by
            rw [hcore]
            exact (congrArg Core.threads hj).trans rfl
          refine hsched w (.join tid out target) (h.same rfl rfl rfl hstep hth)
            (by rw [hth]; exact hcard) ?_
          rw [hcore]
          exact (congrArg Core.cpu hj).trans rfl

/-! ## The result -/

/-- A yield of the current thread. -/
theorem Core.Current.threadYield_eq {s : Core} (hc : s.Current i) (x : Ctx) :
    (s.threadYield x).threads = Function.update s.threads i
        { s.threads i with state := .ready, ctx := some ⟨x, .yield⟩ } ∧
      (s.threadYield x).cpu = .swap s.schedulerCtx := by
  unfold Core.threadYield
  rw [if_neg (by rw [hc.init]; decide), if_neg hc.ne_zero, hc.find]
  simp only [Core.swapOut, Core.emit, Core.setThread, Function.update_self, Function.update_idem,
    and_self]

end

/-- **Among threads of equal priority a yield gives way to the smaller tids, and only to them.**
    The thread of slot `i` yields while that of slot `j` is `READY`, has the same priority, and no
    `READY` thread has a higher one.  If `j` has the smaller tid, `i` is not dispatched before `j`
    has been, in any continuation of any run.  If it has not, the run can go on such that it is
    (shown for runs in which main joins). -/
theorem yield_rotates_iff (W : World) (config : ValidConfig) (pageSize : BitVec 64)
    (files : Path → Option (List UInt8)) (ls : List Label) (s t : State) (i j : Slot)
    (hrun : Exec.exec (State.step W) (State.start config pageSize files) ls = some s)
    (hmode : s.sub.mode = .normal) (hpolicy : s.core.config.policy = .priority)
    (hcur : s.core.Current i) (hyield : State.step W s (.call (.green i) .yield) = some t)
    (hij : j ≠ i) (hready : (s.core.threads j).state = .ready)
    (hequal : (s.core.threads j).priority = (s.core.threads i).priority)
    (htop : ∀ k, (s.core.threads k).state = .ready →
      (s.core.threads k).priority ≤ (s.core.threads i).priority) :
    ((s.core.threads j).tid < (s.core.threads i).tid → Rotates W t i j) ∧
    (JoinsFromMain ls → creates ls < 2 ^ 64 → Rotates W t i j →
      (s.core.threads j).tid < (s.core.threads i).tid) := by
  obtain ⟨hcpu, hcore⟩ := State.step_call_inv hyield
  have hcur' : s.fresh.Current i := ⟨hcur.init, hcur.ne_zero, hcur.find⟩
  obtain ⟨hth, hcpu'⟩ := hcur'.threadYield_eq (.green i)
  have hth : t.core.threads = Function.update s.core.threads i
      { s.core.threads i with state := .ready, ctx := some ⟨.green i, .yield⟩ } := by
    rw [hcore]
    exact hth
  have hi : t.core.threads i
      = { s.core.threads i with state := .ready, ctx := some ⟨.green i, .yield⟩ } := by
    rw [hth, Function.update_self]
  have hother : ∀ k, k ≠ i → t.core.threads k = s.core.threads k := by
    intro k hki
    rw [hth, Function.update_of_ne hki]
  have hconfig := (State.step_seated hyield).1
  have hpolicy' : t.core.config.policy = .priority := by
    rw [hconfig]
    exact hpolicy
  constructor
  · intro hlt
    refine rotates_of_rank hpolicy' (by rw [hi]; nofun) (by rw [hother j hij]; exact hready) ?_
    rw [rank_lt, hi, hother j hij]
    exact Or.inr ⟨hequal.symm, hlt⟩
  · intro hjoins hcreates hrot
    by_contra hnot
    have hstart := State.start_wf config pageSize files
    have hissued : (State.start config pageSize files).core.issued = 0 := by
      rw [State.start_core]
    obtain ⟨hwf, hle⟩ := State.exec_wf ls _ s hstart hjoins (by rw [hissued]; omega) hrun
    rw [hissued, Nat.zero_add] at hle
    obtain ⟨hwf', hle'⟩ := State.step_wf (l := .call (.green i) .yield) hwf rfl
      (Nat.lt_of_le_of_lt hle hcreates) hyield
    -- both are in the table, so their tids differ
    have hsi := (findThread_some hcur.find).1
    have hsj : (s.core.threads j).state ≠ .empty := by
      rw [hready]
      nofun
    have hne : (s.core.threads i).tid ≠ (s.core.threads j).tid :=
      fun heq => hij (hwf.body.tids.inj i j hsi hsj heq).symm
    have hcontest : Contest t i j := by
      refine ⟨hwf', Nat.lt_of_le_of_lt hle' (Nat.lt_of_le_of_lt hle hcreates),
        State.step_normal rfl hmode hyield, hpolicy', by rw [hi], by rw [hother j hij]; exact hready,
        ?_, ?_, fun k hk => ?_⟩
      · rw [hi, hother j hij]
        exact Nat.lt_of_le_of_ne (Nat.le_of_not_lt hnot) hne
      · rw [hi, hother j hij]
        exact hequal
      · by_cases hki : k = i
        · subst hki
          exact Nat.le_refl _
        · rw [hother k hki] at hk ⊢
          rw [hi]
          exact htop k hk
    obtain ⟨act, caller, hsched, -⟩ := (hwf.live hcpu).ctx.sched
    have hmain : AtMain t.core := by
      refine .back act caller ?_
      rw [hcore]
      exact hcpu'.trans (congrArg Cpu.swap hsched)
    exact (hcontest.overtakes (W := W) _ t (Nat.le_refl _) hmain).not_rotates hij hrot

namespace Sample

/-- The smallest stacks, priorities, every library call succeeds. -/
def priorityConfig : ValidConfig := ⟨⟨16384#64, .priority, 1, 0#32⟩, by decide⟩

def priorityStart : State := State.start priorityConfig 4096#64 fun _ => none

/-- Thread 1 waits for a semaphore, thread 2 posts it. -/
def postRun : List Label :=
  [main (.semInit 8 0), main create, main create, main .yield, .tau, .tau, green 0 (.semWait 8),
    .tau, main .yield, .tau, .tau, green 1 (.semPost 8)]

/-- Main creates two threads and runs the first one. -/
def firstRun : List Label := [main create, main create, main .yield, .tau, .tau]

end Sample

/-- Thread 2 yields and lets thread 1 pass. -/
theorem yield_rotates_post : ∃ s t,
    Exec.exec (State.step Sample.world) Sample.priorityStart Sample.postRun = some s ∧
    State.step Sample.world s (Sample.green 1 .yield) = some t ∧ Rotates Sample.world t 1 0 := by
  have hrun : (Exec.exec (State.step Sample.world) Sample.priorityStart Sample.postRun).any
      (fun s => decide (s.sub.mode = .normal ∧ s.core.config.policy = .priority ∧
          s.core.initialized = true ∧ s.core.currentTid ≠ 0 ∧
          findThread s.core.threads s.core.currentTid = some 1) &&
        decide ((s.core.threads 0).state = .ready ∧
          (s.core.threads 0).priority = (s.core.threads 1).priority ∧
          (s.core.threads 0).tid < (s.core.threads 1).tid) &&
        decide (∀ k, (s.core.threads k).state = .ready →
          (s.core.threads k).priority ≤ (s.core.threads 1).priority) &&
        (State.step Sample.world s (Sample.green 1 .yield)).isSome) = true := by decide +kernel
  obtain ⟨s, hs, hend⟩ := (Option.any_eq_true _ _).mp hrun
  obtain ⟨hend, hyield⟩ := Bool.and_eq_true_iff.mp hend
  obtain ⟨hend, htop⟩ := Bool.and_eq_true_iff.mp hend
  obtain ⟨hend, hother⟩ := Bool.and_eq_true_iff.mp hend
  obtain ⟨hmode, hpolicy, hinit, hne, hfind⟩ := of_decide_eq_true hend
  obtain ⟨hready, hequal, hlt⟩ := of_decide_eq_true hother
  obtain ⟨t, ht⟩ := Option.isSome_iff_exists.mp hyield
  exact ⟨s, t, hs, ht, (yield_rotates_iff Sample.world Sample.priorityConfig 4096#64 (fun _ => none)
    Sample.postRun s t 1 0 hs hmode hpolicy ⟨hinit, hne, hfind⟩ ht (by decide) hready hequal
    (of_decide_eq_true htop)).1 hlt⟩

/-- **Thread 1 yields and is dispatched again**, while thread 2, of the same priority, has been
    `READY` all the time. -/
theorem yield_does_not_rotate : ∃ s t v,
    Exec.exec (State.step Sample.world) Sample.priorityStart Sample.firstRun = some s ∧
    (s.core.threads 1).state = .ready ∧
    (s.core.threads 1).priority = (s.core.threads 0).priority ∧
    State.step Sample.world s (Sample.green 0 .yield) = some t ∧
    Exec.exec (State.step Sample.world) t [.tau, Sample.main .yield] = some v ∧
    (v.core.threads 1).state = .ready ∧ v.Selects Sample.world 0 ∧
    ¬ Rotates Sample.world t 0 1 := by
  have hrun : (Exec.exec (State.step Sample.world) Sample.priorityStart Sample.firstRun).any
      (fun s => decide ((s.core.threads 1).state = .ready ∧
          (s.core.threads 1).priority = (s.core.threads 0).priority) &&
        (State.step Sample.world s (Sample.green 0 .yield)).any fun t =>
          decide (Exec.Always (State.step Sample.world) (fun u => u.sub.mode = .normal ∧
            (u.core.threads 1).state = .ready ∧ (u.core.threads 0).state ≠ .empty) t
              [.tau, Sample.main .yield]) &&
          (Exec.exec (State.step Sample.world) t [.tau, Sample.main .yield]).any fun v =>
            decide (v.core.cpu = .sched .main .yield) &&
            (v.sub.pickReadyThreadMode Sample.world v.core.config.policy v.core.threads).any
              fun p => p.1 == some 0) = true := by decide +kernel
  obtain ⟨s, hs, hend⟩ := (Option.any_eq_true _ _).mp hrun
  obtain ⟨hother, hend⟩ := Bool.and_eq_true_iff.mp hend
  obtain ⟨t, ht, hend⟩ := (Option.any_eq_true _ _).mp hend
  obtain ⟨halways, hend⟩ := Bool.and_eq_true_iff.mp hend
  obtain ⟨v, hv, hend⟩ := (Option.any_eq_true _ _).mp hend
  obtain ⟨hcpu, hend⟩ := Bool.and_eq_true_iff.mp hend
  obtain ⟨⟨pick, sub⟩, hp, hpick⟩ := (Option.any_eq_true _ _).mp hend
  obtain rfl : pick = some 0 := eq_of_beq hpick
  obtain ⟨hready, hequal⟩ := of_decide_eq_true hother
  have halways := of_decide_eq_true halways
  have hsel : v.Selects Sample.world 0 := ⟨_, _, sub, of_decide_eq_true hcpu, hp⟩
  have hovertakes : Overtakes Sample.world t 0 1 := ⟨_, v, hv, halways, hsel⟩
  exact ⟨s, t, v, hs, hready, hequal, ht, hv, (Exec.always_last _ t v halways hv).2.1, hsel,
    hovertakes.not_rotates (by decide)⟩

end Gth
