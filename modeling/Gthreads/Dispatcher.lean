/-
  Control returns to the dispatcher, as long as nobody leaves the CPU after a join of its own.

  There is one cell `scheduler_ctx`.  Every `gth_scheduler_run_next` saves itself there when it
  switches to a thread, and every thread that leaves the CPU switches to what it finds there.  A
  green thread that joins runs a `gth_scheduler_run_next` of its own, nested in the one that
  dispatched it, and overwrites the cell.  When that inner activation has returned, the cell still
  leads to it, and not to the one that dispatched the joining thread.

  `Returns` is what the cell is for, read off the control events of a run.  It holds exactly as
  long as every departure from the CPU comes after a dispatch with no resumption in between
  (`LeavesFresh`).
-/
import Gthreads.Segments
import Gthreads.WellFormed

namespace Gth

/-- The activation that dispatched slot `i` last, and its stack. -/
def dispatcherOf (i : Slot) : List Obs → Option (Nat × Ctx)
  | [] => none
  | .dispatch act y j _ :: h => if j = i then some (act, y) else dispatcherOf i h
  | _ :: h => dispatcherOf i h

/-- A thread leaves the CPU for `k`, which is the activation of `gth_scheduler_run_next` that
    dispatched it and that has not been resumed. -/
def ToDispatcher (x : Ctx) (k : Option Kont) (h : List Obs) : Prop :=
  ∃ i act y prev caller, x = .green i ∧ k = some ⟨y, .runNext act prev caller⟩ ∧
    dispatcherOf i h = some (act, y) ∧ ∀ z, .resume act z ∉ h

/-- The departure before was to the activation `act` on stack `y`. -/
def LeftFor (act : Nat) (y : Ctx) : List Obs → Prop
  | .leave _ (some ⟨z, .runNext act' _ _⟩) :: _ => z = y ∧ act' = act
  | _ => False

/-- **Control returns to the dispatcher**: every departure leads to the dispatcher of the thread
    that leaves; an activation of `gth_scheduler_run_next` gets the CPU back from a departure to
    it, and it gets it back once. -/
def Returns : List Obs → Prop
  | [] => True
  | .leave x k :: h => ToDispatcher x k h ∧ Returns h
  | .resume act y :: h => LeftFor act y h ∧ (∀ z, .resume act z ∉ h) ∧ Returns h
  | _ :: h => Returns h

/-- The last control event is a departure. -/
def leaves : List Obs → Bool
  | .leave _ _ :: _ => true
  | _ => false

/-- The last control event is a dispatch. -/
def dispatched : List Obs → Bool
  | .dispatch _ _ _ _ :: _ => true
  | _ => false

/-- If a thread leaves the CPU in this step, then no activation of `gth_scheduler_run_next` has
    returned since the last dispatch; in particular none on the stack of the thread itself. -/
def LeavesFresh (W : World) (s : State) (l : Label) : Prop :=
  ∀ t, State.step W s l = some t → leaves (controls t.core.hist) = true →
    dispatched (controls s.core.hist) = true

instance (W : World) (s : State) (l : Label) : Decidable (LeavesFresh W s l) :=
  Exec.decideNext (P := fun t : State => leaves (controls t.core.hist) = true →
    dispatched (controls s.core.hist) = true) (State.step W s l)

namespace Core
variable {s t : Core} {x : Ctx} {c : List Obs} {cpu : Cpu}

/-! ## Where control is -/

/-- The activation `A` on stack `y` waits in `scheduler_ctx` and has not been resumed. -/
def Pending (s : Core) (A : Nat) (y : Ctx) (c : List Obs) : Prop :=
  A < s.acts ∧ (∀ z, .resume A z ∉ c) ∧
    ∃ prev caller, s.schedulerCtx = some ⟨y, .runNext A prev caller⟩ ∧ s.Known prev y

/-- The last control event, where the CPU is, and what `scheduler_ctx` holds. -/
inductive Place (s : Core) : List Obs → Cpu → Prop where
  | start (cpu : Cpu) : OnStack .main cpu → s.Known s.currentTid .main → s.schedulerCtx = none →
      Place s [] cpu
  | running (A : Nat) (y : Ctx) (j : Slot) (tid : Tid) (c : List Obs) (cpu : Cpu) :
      OnStack (.green j) cpu → s.Current j → s.Pending A y c →
      Place s (.dispatch A y j tid :: c) cpu
  | entering (A : Nat) (y : Ctx) (j : Slot) (tid : Tid) (c : List Obs) (f : Frame) :
      s.Current j → f.Parked j → s.Pending A y c →
      Place s (.dispatch A y j tid :: c) (.swap (some ⟨.green j, f⟩))
  | returning (A : Nat) (x y : Ctx) (k : Option Kont) (c : List Obs) : s.Pending A y c →
      k = s.schedulerCtx → Place s (.leave x k :: c) (.swap k)
  /-- The activation has returned, and `scheduler_ctx` still leads to it. -/
  | back (A : Nat) (x y z : Ctx) (prev : Tid) (caller : Caller) (c : List Obs) (cpu : Cpu) :
      OnStack x cpu → s.Known s.currentTid x → s.schedulerCtx = some ⟨y, .runNext A prev caller⟩ →
      Place s (.resume A z :: c) cpu

theorem OnStack.unique {y : Ctx} (h : OnStack x cpu) (h' : OnStack y cpu) : x = y := by
  cases cpu with
  | user z => exact h.symm.trans h'
  | sched z caller => exact h.symm.trans h'
  | swap k => exact h.elim

theorem Pending.mono {A : Nat} {y : Ctx} (h : s.Pending A y c)
    (hknown : ∀ tid y, s.Known tid y → t.Known tid y) (hsched : t.schedulerCtx = s.schedulerCtx)
    (hacts : t.acts = s.acts) : t.Pending A y c := by
  obtain ⟨hlt, hnot, prev, caller, hk, hprev⟩ := h
  exact ⟨hacts ▸ hlt, hnot, prev, caller, hsched.trans hk, hknown _ _ hprev⟩

/-- The stack `x` goes on without a control event. -/
theorem Place.stay {cpu' : Cpu} (h : Place s c cpu) (hx : OnStack x cpu) (hx' : OnStack x cpu')
    (hknown : ∀ tid y, s.Known tid y → t.Known tid y) (hcurrent : ∀ i, s.Current i → t.Current i)
    (hsched : t.schedulerCtx = s.schedulerCtx) (hacts : t.acts = s.acts)
    (hcur : t.currentTid = s.currentTid) : Place t c cpu' := by
  cases h with
  | start _ hmain hk hnone =>
    obtain rfl := hx.unique hmain
    exact .start cpu' hx' (hcur ▸ hknown _ _ hk) (hsched.trans hnone)
  | running A y j tid c _ hj hcurj hpend =>
    obtain rfl := hx.unique hj
    exact .running A y j tid c cpu' hx' (hcurrent j hcurj) (hpend.mono hknown hsched hacts)
  | entering A y j tid c f _ _ _ => exact hx.elim
  | returning A z y k c _ _ => exact hx.elim
  | back A z y z' prev caller c _ hz hk hb =>
    obtain rfl := hx.unique hz
    exact .back A x y z' prev caller c cpu' hx' (hcur ▸ hknown _ _ hk) (hsched.trans hb)

/-- What is true as long as everybody has left the CPU in time. -/
structure Tracked (s : Core) : Prop where
  calm : s.Calm
  below : ∀ act z, .resume act z ∈ controls s.hist → act < s.acts
  returns : Returns (controls s.hist)
  place : Place s (controls s.hist) s.cpu

/-- The tid of the caller, saved by a `gth_scheduler_run_next` that starts on stack `x`. -/
theorem Place.known (h : Place s c cpu) (hc : s.Calm) (hx : OnStack x cpu) :
    s.Known s.currentTid x := by
  cases h with
  | start _ hmain hk _ => exact hx.unique hmain ▸ hk
  | running A y j tid c _ hj hcur _ => exact hx.unique hj ▸ hcur.known hc
  | entering A y j tid c f _ _ _ => exact hx.elim
  | returning A z y k c _ _ => exact hx.elim
  | back A z y z' prev caller c _ hz hk _ => exact hx.unique hz ▸ hk

theorem Place.not_leaves (h : Place s c cpu) (hx : OnStack x cpu) : leaves c = false := by
  cases h with
  | returning A z y k c _ _ => exact hx.elim
  | _ => rfl

/-! ## Segments -/

/-- **A segment keeps track**, if a thread that leaves in it leaves in time. -/
theorem Tracked.segment
    (hbelow : ∀ act z, .resume act z ∈ controls s.hist → act < s.acts)
    (hret : Returns (controls s.hist)) (hp : Place s (controls s.hist) (.user x))
    (hseg : Segment s x t)
    (hG : leaves (controls t.hist) = true → dispatched (controls s.hist) = true) :
    t.Tracked := by
  cases hseg with
  | stay hcalm hknown hcurrent hsched hacts hcur hctl hcpu =>
    refine ⟨hcalm, ?_, hctl ▸ hret, ?_⟩
    · rw [hctl, hacts]
      exact hbelow
    · rw [hctl]
      exact hp.stay rfl hcpu hknown hcurrent hsched hacts hcur
  | leave i hx hsafe hsched hacts hctl hcpu =>
    subst hx
    have hdisp := hG (by rw [hctl]; rfl)
    generalize controls s.hist = c at hp hret hbelow hdisp hctl
    cases hp with
    | start _ _ _ _ => nomatch hdisp
    | back A z y z' prev caller c _ _ _ _ => nomatch hdisp
    | running A y j tid c _ hj hcur hpend =>
      obtain rfl : i = j := Ctx.green.inj hj
      obtain ⟨hcalm, hknown⟩ := hsafe (findThread_some hcur.find).1
      obtain ⟨hlt, hnot, prev, caller, hk, hprev⟩ := hpend
      have hnot' : ∀ z, Obs.resume A z ∉ Obs.dispatch A y i tid :: c := by
        intro z hz
        rcases List.mem_cons.mp hz with hz | hz
        · nomatch hz
        · exact hnot z hz
      refine ⟨hcalm, ?_, ?_, ?_⟩
      · rw [hctl, hacts]
        intro act z hz
        rcases List.mem_cons.mp hz with hz | hz
        · nomatch hz
        · exact hbelow act z hz
      · rw [hctl]
        exact ⟨⟨i, A, y, prev, caller, rfl, hk, if_pos rfl, hnot'⟩, hret⟩
      · rw [hctl, hcpu]
        exact .returning A _ y _ _ ⟨hacts ▸ hlt, hnot', prev, caller, hsched.trans hk,
          hknown _ _ hprev⟩ hsched.symm

/-- A thread that leaves late does not leave for its dispatcher. -/
theorem Place.fresh_of_returns {i : Slot} (hp : Place s c (.user x))
    (hret : Returns (.leave (.green i) s.schedulerCtx :: c)) : dispatched c = true := by
  obtain ⟨⟨-, A, y, prev, caller, -, hk, -, hnot⟩, -⟩ := hret
  cases hp with
  | start _ _ _ hnone =>
    rw [hnone] at hk
    nomatch hk
  | running A' y' j tid c _ _ _ _ => rfl
  | back A' z y' z' prev' caller' c _ _ _ hb =>
    -- what the cell holds has been resumed
    rw [hb] at hk
    cases hk
    exact absurd List.mem_cons_self (hnot z')

/-! ## The scheduler -/

/-- **A pick keeps track.** -/
theorem Tracked.pick (h : s.Tracked) {caller : Caller} (hcpu : s.cpu = .sched x caller)
    {pick : Option Slot} (hpick : ∀ i, pick = some i → (s.threads i).state ≠ .empty) :
    (s.runNext x caller pick).Tracked ∧ leaves (controls (s.runNext x caller pick).hist) = false := by
  have hx : OnStack x s.cpu := by
    rw [hcpu]
    exact rfl
  cases pick with
  | none =>
    have hstay : ∀ (c : Call) (r : Ret),
        (s.ret x c r).Tracked ∧ leaves (controls (s.ret x c r).hist) = false := fun c r =>
      ⟨⟨⟨h.calm.init, h.calm.tids, h.calm.saved⟩, h.below, h.returns,
        h.place.stay hx rfl (fun _ _ => id) (fun _ hi => ⟨hi.init, hi.ne_zero, hi.find⟩)
          rfl rfl rfl⟩, h.place.not_leaves hx⟩
    cases caller with
    | yield => exact hstay _ _
    | join tid out target => exact hstay _ _
  | some i =>
    have hne := hpick i rfl
    -- the record of the thread that is dispatched
    have hkept : Kept s.threads (s.setThread i { s.threads i with state := .running }).threads :=
      Kept.setState _ hne rfl rfl rfl
    obtain ⟨hcalm, hknown⟩ := h.calm.kept hkept rfl
    obtain ⟨f, hf, hparked⟩ := h.calm.saved i hne
    have hfind : findThread (s.setThread i { s.threads i with state := .running }).threads
        (s.threads i).tid = some i := by
      have hself : (s.setThread i { s.threads i with state := .running }).threads i
          = { s.threads i with state := .running } := Function.update_self i _ _
      have hi := hcalm.tids.find (i := i) (by rw [hself]; nofun)
      rwa [hself] at hi
    have hnot : ∀ z, Obs.resume s.acts z ∉ controls s.hist :=
      fun z hz => Nat.lt_irrefl _ (h.below s.acts z hz)
    rw [runNext_some]
    refine ⟨⟨⟨hcalm.init, hcalm.tids, hcalm.saved⟩, ?_, h.returns, ?_⟩, rfl⟩
    · intro act z hz
      rcases List.mem_cons.mp hz with hz | hz
      · nomatch hz
      · exact Nat.lt_succ_of_lt (h.below act z hz)
    · show Place _ (.dispatch s.acts x i (s.threads i).tid :: controls s.hist)
        (.swap (s.threads i).ctx)
      rw [hf]
      exact .entering _ x i _ _ f
        ⟨h.calm.init, Nat.pos_iff_ne_zero.mp (h.calm.tids.range i hne).1, hfind⟩ hparked
        ⟨Nat.lt_succ_self _, hnot, _, _, rfl, hknown _ _ (h.place.known h.calm hx)⟩

/-- **An activation that gets the CPU back keeps track.** -/
theorem Tracked.return (h : s.Tracked) {y : Ctx} {act : Nat} {prev : Tid} {caller : Caller}
    (hcpu : s.cpu = .swap (some ⟨y, .runNext act prev caller⟩)) :
    (s.resume ⟨y, .runNext act prev caller⟩).Tracked ∧
      leaves (controls (s.resume ⟨y, .runNext act prev caller⟩).hist) = false := by
  obtain ⟨hcalm, hbelow, hret, hp⟩ := h
  rw [hcpu] at hp
  -- the last control event is the departure to this activation
  obtain ⟨x, c, hc, hpend, hsched⟩ : ∃ x c,
      controls s.hist = .leave x (some ⟨y, .runNext act prev caller⟩) :: c ∧ s.Pending act y c ∧
        s.schedulerCtx = some ⟨y, .runNext act prev caller⟩ := by
    generalize controls s.hist = c at hp
    generalize hk : Cpu.swap (some ⟨y, .runNext act prev caller⟩) = cpu at hp
    cases hp with
    | start _ hmain _ _ => exact (hk ▸ hmain : OnStack _ (.swap _)).elim
    | running A y' j tid c _ hj _ _ => exact (hk ▸ hj : OnStack _ (.swap _)).elim
    | entering A y' j tid c f _ hf _ =>
      cases hk
      exact hf.elim
    | returning A x y' k c hpend hks =>
      cases hk
      obtain ⟨hlt, hnot, prev', caller', hs, hprev⟩ := hpend
      rw [← hks] at hs
      cases hs
      exact ⟨x, c, rfl, ⟨hlt, hnot, prev, caller, hks.symm, hprev⟩, hks.symm⟩
    | back A x y' z prev' caller' c _ hx _ _ => exact (hk ▸ hx : OnStack _ (.swap _)).elim
  obtain ⟨hlt, hnot, prev', caller', hs, hprev⟩ := hpend
  obtain ⟨rfl, rfl⟩ : prev' = prev ∧ caller' = caller := by
    rw [hsched] at hs
    cases hs
    exact ⟨rfl, rfl⟩
  have hnot' : ∀ z, Obs.resume act z ∉ controls s.hist := by
    intro z hz
    rw [hc] at hz
    rcases List.mem_cons.mp hz with hz | hz
    · nomatch hz
    · exact hnot z hz
  have hbelow' : ∀ A z, Obs.resume A z ∈ Obs.resume act y :: controls s.hist → A < s.acts := by
    intro A z hz
    rcases List.mem_cons.mp hz with hz | hz
    · cases hz
      exact hlt
    · exact hbelow A z hz
  have hret' : Returns (.resume act y :: controls s.hist) :=
    ⟨by rw [hc]; exact ⟨rfl, rfl⟩, hnot', hret⟩
  have hback : ∀ t : Core, t.Calm → controls t.hist = .resume act y :: controls s.hist →
      t.acts = s.acts → t.schedulerCtx = s.schedulerCtx → t.Known t.currentTid y →
      OnStack y t.cpu → t.Tracked ∧ leaves (controls t.hist) = false := by
    intro t hcalm hctl hacts hts hknown hx
    refine ⟨⟨hcalm, ?_, hctl ▸ hret', ?_⟩, hctl ▸ rfl⟩
    · rw [hctl, hacts]
      exact hbelow'
    · rw [hctl]
      exact .back act y y y prev' caller' _ _ hx hknown (hts.trans hsched)
  have hcalm' : Calm { s with currentTid := prev', hist := .resume act y :: s.hist } :=
    ⟨hcalm.init, hcalm.tids, hcalm.saved⟩
  cases caller' with
  | yield =>
    exact hback _ ⟨hcalm.init, hcalm.tids, hcalm.saved⟩ rfl rfl rfl hprev rfl
  | join tid out target =>
    obtain ⟨hcalm₂, hknown, hfixed, hcur, hctl, hx⟩ :=
      (joinLoop_move _ y tid out target).stays hcalm'
    exact hback _ hcalm₂ hctl (congrArg (fun p => p.2.2.2.2.2.2.2) hfixed)
      (congrArg (fun p => p.2.2.2.2.2.2.1) hfixed) (hcur ▸ hknown _ _ hprev) hx

/-! ## Steps -/

theorem Tracked.fresh {s : State} (h : s.core.Tracked) : s.fresh.Tracked := by
  obtain ⟨hcalm, hbelow, hret, hp⟩ := h
  have hcurrent : ∀ j, s.core.Current j → s.fresh.Current j :=
    fun _ hj => ⟨hj.init, hj.ne_zero, hj.find⟩
  refine ⟨⟨hcalm.init, hcalm.tids, hcalm.saved⟩, hbelow, hret, ?_⟩
  show Place s.fresh (controls s.core.hist) s.core.cpu
  generalize controls s.core.hist = c, s.core.cpu = cpu at hp
  cases hp with
  | start cpu hmain hk hnone => exact .start cpu hmain hk hnone
  | running A y j tid c cpu hj hcur hpend => exact .running A y j tid c cpu hj (hcurrent j hcur) hpend
  | entering A y j tid c f hcur hf hpend => exact .entering A y j tid c f (hcurrent j hcur) hf hpend
  | returning A x y k c hpend hk => exact .returning A x y k c hpend hk
  | back A x y z prev caller c cpu hx hk hb => exact .back A x y z prev caller c cpu hx hk hb

/-- **What a step does to a tracked state**: it keeps track, or it is a segment of some stack. -/
theorem Tracked.step {W : World} {s t : State} {l : Label} (h : s.core.Tracked)
    (hlt : s.core.issued + (if l.isCreate then 1 else 0) < 2 ^ 64)
    (hstep : State.step W s l = some t) :
    t.core.issued ≤ s.core.issued + (if l.isCreate then 1 else 0) ∧
      ((t.core.Tracked ∧ leaves (controls t.core.hist) = false) ∨
        ∃ x, s.fresh.Place (controls s.fresh.hist) (.user x) ∧ Segment s.fresh x t.core) := by
  have hf := h.fresh
  rcases State.step_cases hstep with ⟨x, c, -, hcpu, rfl⟩ | ⟨x, c, rfl, hcpu, hcall, rfl⟩ |
      ⟨x, caller, pick, sub, rfl, hcpu, hp, rfl⟩ | ⟨k, rfl, hcpu, rfl⟩
  · refine ⟨Nat.le_add_right _ _, Or.inl ⟨h, h.place.not_leaves (x := x) ?_⟩⟩
    rw [hcpu]
    exact rfl
  · have hplace : s.fresh.Place (controls s.fresh.hist) (.user x) := hcpu ▸ hf.place
    have hknown := hplace.known hf.calm (x := x) rfl
    exact ⟨exec_issued_le s.fresh x c,
      Or.inr ⟨x, hplace, exec_segment hf.calm hknown hcall hlt⟩⟩
  · refine ⟨Nat.le_of_eq (WF.runNext_issued (s := s.fresh) caller pick),
      Or.inl (hf.pick hcpu fun i hi => ?_)⟩
    subst hi
    show (s.core.threads i).state ≠ .empty
    rcases pickReadyThreadMode_state hp with hst | hst <;> rw [hst] <;> nofun
  · have hplace : s.fresh.Place (controls s.fresh.hist) (.swap (some k)) := hcpu ▸ hf.place
    generalize hc : controls s.fresh.hist = c at hplace
    generalize hsw : Cpu.swap (some k) = cpu at hplace
    cases hplace with
    | start _ hmain _ _ => exact (hsw ▸ hmain : OnStack _ (.swap _)).elim
    | running A y j tid c _ hj _ _ => exact (hsw ▸ hj : OnStack _ (.swap _)).elim
    | entering A y j tid c f hcur hparked hpend =>
      cases hsw
      exact ⟨Nat.le_of_eq (resume_issued s.fresh _), Or.inr ⟨.green j,
        .running A y j tid c _ rfl hcur hpend, resume_segment hf.calm hcur hparked⟩⟩
    | returning A x y _ c hpend hk =>
      obtain ⟨-, -, prev, caller, hs, -⟩ := hpend
      cases hsw
      obtain rfl := Option.some.inj (hk.trans hs)
      exact ⟨Nat.le_of_eq (resume_issued s.fresh _), Or.inl (hf.return hcpu)⟩
    | back A x y z prev caller c _ hx _ _ => exact (hsw ▸ hx : OnStack _ (.swap _)).elim

theorem start_tracked (config : ValidConfig) (pageSize : BitVec 64)
    (files : Path → Option (List UInt8)) : (State.start config pageSize files).core.Tracked := by
  have hwf := State.start_wf config pageSize files
  rw [State.start_core] at hwf ⊢
  exact ⟨⟨rfl, hwf.body.tids, fun i hi => absurd rfl hi⟩, nofun, trivial,
    .start _ rfl ⟨Nat.le_refl 0, rfl⟩ rfl⟩

end Core

/-! ## The result -/

/-- **Control returns to the dispatcher exactly as long as every departure follows a dispatch**,
    with no activation of `gth_scheduler_run_next` coming back in between. -/
theorem control_returns_iff (W : World) (config : ValidConfig) (pageSize : BitVec 64)
    (files : Path → Option (List UInt8)) (ls : List Label) (s : State)
    (hcreates : creates ls < 2 ^ 64)
    (hrun : Exec.exec (State.step W) (State.start config pageSize files) ls = some s) :
    Exec.Always (State.step W) (fun t => Returns (controls t.core.hist))
        (State.start config pageSize files) ls ↔
      Exec.Along (State.step W) (LeavesFresh W) (State.start config pageSize files) ls := by
  refine Exec.always_iff_along
    (I := fun ls (t : State) => t.core.Tracked ∧ t.core.issued + creates ls < 2 ^ 64)
    (fun l ls t u hI hG hu => ?_) (fun _ t hI => hI.1.returns) (fun l ls t u hI hu hP => ?_) ls _ s
    ⟨Core.start_tracked config pageSize files, ?_⟩ hrun
  · rw [creates_cons] at hI
    obtain ⟨hle, hu'⟩ := hI.1.step (by omega) hu
    refine ⟨?_, by omega⟩
    rcases hu' with ⟨hu', -⟩ | ⟨x, hp, hseg⟩
    · exact hu'
    · exact .segment hI.1.fresh.below hI.1.fresh.returns hp hseg (hG u hu)
  · rw [creates_cons] at hI
    intro u' hu' hleaves
    obtain rfl : u = u' := Option.some.inj (hu.symm.trans hu')
    rcases (hI.1.step (by omega) hu).2 with ⟨-, hno⟩ | ⟨x, hp, hseg⟩
    · rw [hno] at hleaves
      nomatch hleaves
    · cases hseg with
      | stay _ _ _ _ _ _ hctl _ =>
        rw [hctl, hp.not_leaves (x := x) rfl] at hleaves
        nomatch hleaves
      | leave i _ _ _ _ hctl _ =>
        have hP : Returns (controls u.core.hist) := hP
        rw [hctl] at hP
        exact hp.fresh_of_returns hP
  · rw [State.start_core, Nat.zero_add]
    exact hcreates

/-- Main runs the first of two threads, which joins the second one; the second one ends, and the
    join returns on the stack of the first. -/
def nestedJoinRun : List Label :=
  [Sample.main Sample.create, Sample.main Sample.create, Sample.main .yield, .tau, .tau,
    Sample.green 0 (.join 2 false), .tau, .tau, Sample.green 1 (.exit 7), .tau]

/-- Up to here control has returned to the dispatchers. -/
theorem control_returns_nested :
    (Exec.exec (State.step Sample.world) Sample.start nestedJoinRun).isSome ∧
      Exec.Always (State.step Sample.world) (fun t => Returns (controls t.core.hist)) Sample.start
        nestedJoinRun := by
  have hrun : (Exec.exec (State.step Sample.world) Sample.start nestedJoinRun).isSome := by
    decide +kernel
  obtain ⟨s, hs⟩ := Option.isSome_iff_exists.mp hrun
  exact ⟨hrun, (control_returns_iff Sample.world Sample.config 4096#64 (fun _ => none)
    nestedJoinRun s (by decide) hs).mpr (by decide +kernel)⟩

/-- **The first thread then yields, and leaves the CPU for its own join**, which has returned
    already; the activation of `gth_scheduler_run_next` that main waits in is out of reach. -/
theorem nested_join_loses_dispatcher : ∃ s c,
    Exec.exec (State.step Sample.world) Sample.start (nestedJoinRun ++ [Sample.green 0 .yield])
      = some s ∧
    controls s.core.hist
      = .leave (.green 0) (some ⟨.green 0, .runNext 1 1 (.join 2 false 1)⟩) ::
        .resume 1 (.green 0) :: c ∧
    dispatcherOf 0 (controls s.core.hist) = some (0, .main) ∧
    ¬ Returns (controls s.core.hist) := by
  refine ⟨_, _, rfl, rfl, rfl, fun h => ?_⟩
  obtain ⟨⟨i, act, y, prev, caller, -, hk, -, hnot⟩, -⟩ :
    ToDispatcher (.green 0) (some ⟨.green 0, .runNext 1 1 (.join 2 false 1)⟩)
      (.resume 1 (.green 0) :: _) ∧ _ := h
  cases hk
  exact hnot (.green 0) List.mem_cons_self

end Gth
