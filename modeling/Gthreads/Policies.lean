/-
  What the two policies promise (`gth_scheduler_pick_ready_thread`).

  * Round-robin is a search in a circle (`Lib.Rotation`), so a slot that stays `READY` is picked
    within 128 picks, whatever happens to the thread table between them.
  * The priority scan computes `List.argmax` for the order "higher priority, then lower tid".  With
    distinct tids that is a total order on threads, in which slots do not occur.
-/
import Gthreads.Lib.Rotation
import Gthreads.Scheduler

namespace Gth

variable {threads : Slot → ThreadRecord}

/-! ## Round-robin -/

/-- Round-robin looks at slot `(last + 1 + i) % 128` in its `i`-th iteration. -/
theorem rr_place (last i : Nat) : ((last + 1) % 128 + i) % 128 = (last + 1 + i) % 128 := by omega

theorem pickRr_ready {last : Nat} {i : Slot} (h : pickRr threads last = some i) :
    (threads i).state = .ready := by
  have hfound := List.find?_some h
  exact of_decide_eq_true hfound

theorem pickRr_none {last : Nat} (h : pickRr threads last = none) (i : Slot) :
    (threads i).state ≠ .ready := by
  intro hi
  have hall := List.find?_eq_none.mp h i ?_
  · exact hall (decide_eq_true hi)
  · -- the scan from `start` comes past every slot
    refine List.mem_map.mpr ⟨(i + 128 - (last + 1) % 128) % 128, ?_, Fin.ext ?_⟩
    · exact List.mem_range.mpr (Nat.mod_lt _ (by decide))
    · have hlt := i.isLt
      show ((last + 1) % 128 + (i + 128 - (last + 1) % 128) % 128) % 128 = i
      omega

/-- The slot picked is the first `READY` one behind `last`. -/
theorem pickRr_first {last : Nat} (hlast : last < 128) {b c : Slot}
    (h : pickRr threads last = some b) (hc : (threads c).state = .ready) :
    Rotation.gap 128 last b ≤ Rotation.gap 128 last c := by
  unfold pickRr at h
  obtain ⟨-, i, hi, hb, hbefore⟩ := List.find?_eq_some_iff_getElem.mp h
  have hi' : i < 128 := by simpa using hi
  have hgap : Rotation.gap 128 last b = i := by
    rw [← hb]
    simp only [List.getElem_map, List.getElem_range, rr_place]
    exact Rotation.gap_add hlast hi'
  rw [hgap]
  by_contra hlt
  have hskipped := hbefore (Rotation.gap 128 last c) (by omega)
  simp only [List.getElem_map, List.getElem_range, rr_place,
    Rotation.add_gap hlast c.isLt] at hskipped
  simp [hc] at hskipped

/-! ## Priorities -/

/-- Higher priority first, then lower tid. -/
def rank (threads : Slot → ThreadRecord) (i : Slot) : Nat ×ₗ Natᵒᵈ :=
  toLex ((threads i).priority, OrderDual.toDual (threads i).tid)

theorem rank_lt (i j : Slot) : rank threads i < rank threads j ↔
    (threads i).priority < (threads j).priority ∨
      (threads i).priority = (threads j).priority ∧ (threads j).tid < (threads i).tid :=
  Prod.Lex.toLex_lt_toLex

theorem rank_le (i j : Slot) : rank threads i ≤ rank threads j ↔
    (threads i).priority < (threads j).priority ∨
      (threads i).priority = (threads j).priority ∧ (threads j).tid ≤ (threads i).tid :=
  Prod.Lex.toLex_le_toLex

/-- The scan is a maximum over the `READY` slots. -/
theorem pickPriority_eq : pickPriority threads =
    ((List.finRange 128).filter fun i => decide ((threads i).state = .ready)).argmax
      (rank threads) := by
  unfold pickPriority List.argmax
  rw [List.foldl_filter]
  congr 1
  funext best i
  unfold pickPriorityStep
  by_cases hi : (threads i).state = .ready
  · rw [if_neg (not_not_intro hi), if_pos (decide_eq_true hi)]
    cases best with
    | none => rfl
    | some b =>
      show _ = if rank threads b < rank threads i then some i else some b
      rw [if_congr (rank_lt b i) rfl rfl, if_congr (or_congr_right (and_congr_left' eq_comm)) rfl rfl]
      exact (ite_or ..).symm
  · rw [if_pos hi, if_neg (by simpa using hi)]

theorem pickPriority_ready {i : Slot} (h : pickPriority threads = some i) :
    (threads i).state = .ready := by
  rw [pickPriority_eq] at h
  simpa using (List.mem_filter.mp (List.argmax_mem h)).2

theorem pickPriority_none (h : pickPriority threads = none) (i : Slot) :
    (threads i).state ≠ .ready := by
  rw [pickPriority_eq, List.argmax_eq_none, List.filter_eq_nil_iff] at h
  simpa using h i (List.mem_finRange i)

theorem pickPriority_greatest {i j : Slot} (h : pickPriority threads = some i)
    (hj : (threads j).state = .ready) : rank threads j ≤ rank threads i := by
  rw [pickPriority_eq] at h
  refine List.le_of_mem_argmax (List.mem_filter.mpr ⟨List.mem_finRange j, ?_⟩) h
  exact decide_eq_true hj

/-! ## The pick of the policy and of the mode -/

theorem pickReadyThread_ready {u u' : Sub} {policy : Policy} {i : Slot}
    (h : u.pickReadyThread policy threads = (some i, u')) : (threads i).state = .ready := by
  unfold Sub.pickReadyThread at h
  split at h
  · split at h
    · rename_i j hj
      exact Option.some.inj (Prod.mk.inj h).1 ▸ pickRr_ready hj
    · nomatch (Prod.mk.inj h).1
  · exact pickPriority_ready (Prod.mk.inj h).1

theorem pickReadyThread_none {u : Sub} {policy : Policy}
    (h : (u.pickReadyThread policy threads).1 = none) (i : Slot) : (threads i).state ≠ .ready := by
  unfold Sub.pickReadyThread at h
  split at h
  · split at h
    · nomatch h
    · rename_i hnone
      exact pickRr_none hnone i
  · exact pickPriority_none h i

/-- A pick of the policy writes `last_rr_slot` only. -/
theorem pickReadyThread_sub (u : Sub) (policy : Policy) (threads : Slot → ThreadRecord) :
    (u.pickReadyThread policy threads).2
      = { u with lastRrSlot := (u.pickReadyThread policy threads).2.lastRrSlot } := by
  unfold Sub.pickReadyThread
  split
  · split <;> rfl
  · rfl

section
variable (W : World) {u u' : Sub} (policy : Policy)

theorem pickReadyThreadMode_replay {r : ReplayState} (hmode : u.mode = .replay)
    (hr : u.replay = some r) : u.pickReadyThreadMode W policy threads =
      some ((replayNextThread threads r).1,
        { u with replay := some (replayNextThread threads r).2 }) := by
  unfold Sub.pickReadyThreadMode
  rw [hmode, hr]

theorem pickReadyThreadMode_fuzz {f : FuzzState} (hmode : u.mode = .fuzz) (hf : u.fuzz = some f) :
    u.pickReadyThreadMode W policy threads =
      (fuzzPickThread threads f (u.pickReadyThread policy threads).1 W.fuel).map fun r =>
        (r.1, { (u.pickReadyThread policy threads).2 with fuzz := some r.2 }) := by
  have hmode' := congrArg Sub.mode (pickReadyThread_sub u policy threads)
  have hfuzz' := congrArg Sub.fuzz (pickReadyThread_sub u policy threads)
  unfold Sub.pickReadyThreadMode
  rw [hmode]
  dsimp only
  rw [hmode', hfuzz', hmode, hf]

/-- Without a replay and a fuzzer the policy decides. -/
theorem pickReadyThreadMode_policy (hreplay : u.mode = .replay → u.replay = none)
    (hfuzz : u.mode = .fuzz → u.fuzz = none) :
    u.pickReadyThreadMode W policy threads = some (u.pickReadyThread policy threads) := by
  have hmode' := congrArg Sub.mode (pickReadyThread_sub u policy threads)
  have hfuzz' := congrArg Sub.fuzz (pickReadyThread_sub u policy threads)
  unfold Sub.pickReadyThreadMode
  split
  · next hm hr =>
    rw [hreplay hm] at hr
    cases hr
  · dsimp only
    split
    · next hm hf =>
      rw [hfuzz', hfuzz (hmode'.symm.trans hm)] at hf
      cases hf
    · rfl

variable {W policy}

/-- **Inversion of a pick.** -/
theorem pickReadyThreadMode_cases {pick : Option Slot}
    (h : u.pickReadyThreadMode W policy threads = some (pick, u')) :
    (∃ r, u.mode = .replay ∧ u.replay = some r ∧ pick = (replayNextThread threads r).1 ∧
      u' = { u with replay := some (replayNextThread threads r).2 }) ∨
    (∃ f f', u.mode = .fuzz ∧ u.fuzz = some f ∧
      fuzzPickThread threads f (u.pickReadyThread policy threads).1 W.fuel = some (pick, f') ∧
      u' = { (u.pickReadyThread policy threads).2 with fuzz := some f' }) ∨
    ((u.mode = .replay → u.replay = none) ∧ (u.mode = .fuzz → u.fuzz = none) ∧
      (pick, u') = u.pickReadyThread policy threads) := by
  by_cases hreplay : u.mode = .replay → u.replay = none
  · by_cases hfuzz : u.mode = .fuzz → u.fuzz = none
    · rw [pickReadyThreadMode_policy W policy hreplay hfuzz] at h
      exact Or.inr (Or.inr ⟨hreplay, hfuzz, (Option.some.inj h).symm⟩)
    · obtain ⟨hmode, hf⟩ := Classical.not_imp.mp hfuzz
      obtain ⟨f, hf⟩ := Option.ne_none_iff_exists'.mp hf
      rw [pickReadyThreadMode_fuzz W policy hmode hf] at h
      obtain ⟨⟨p, f'⟩, hp, heq⟩ := Option.map_eq_some_iff.mp h
      obtain ⟨rfl, rfl⟩ := Prod.mk.inj heq
      exact Or.inr (Or.inl ⟨f, f', hmode, hf, hp, rfl⟩)
  · obtain ⟨hmode, hr⟩ := Classical.not_imp.mp hreplay
    obtain ⟨r, hr⟩ := Option.ne_none_iff_exists'.mp hr
    rw [pickReadyThreadMode_replay W policy hmode hr] at h
    obtain ⟨rfl, rfl⟩ := Prod.mk.inj (Option.some.inj h)
    exact Or.inl ⟨r, hmode, hr, rfl, rfl⟩

end

/-! ## Round-robin does not starve -/

/-- Picks under round-robin.  At pick number `k` the thread table is `tables k`, and the scheduler's
    state is `us k`, except that `last_rr_slot` is what the picks before have left there. -/
def rrPicks (W : World) (us : Nat → Sub) (tables : Nat → Slot → ThreadRecord) (last : Nat) :
    Nat → Option (Option Slot × Sub)
  | 0 => Sub.pickReadyThreadMode W { us 0 with lastRrSlot := last } .rr (tables 0)
  | k + 1 => (rrPicks W us tables last k).bind fun r =>
    Sub.pickReadyThreadMode W { us (k + 1) with lastRrSlot := r.2.lastRrSlot } .rr (tables (k + 1))

/-- The slot of pick number `k`. -/
def rrPicked (W : World) (us : Nat → Sub) (tables : Nat → Slot → ThreadRecord) (last k : Nat) :
    Option Slot := (rrPicks W us tables last k).bind Prod.fst

/-- `last_rr_slot` after a search behind `last`. -/
def rrNext (threads : Slot → ThreadRecord) (last : Nat) : Nat :=
  ((pickRr threads last).map Fin.val).getD last

/-- `last_rr_slot` before pick number `k`. -/
def rrLast (tables : Nat → Slot → ThreadRecord) (last : Nat) : Nat → Nat
  | 0 => last
  | k + 1 => rrNext (tables k) (rrLast tables last k)

theorem pickReadyThreadMode_rr (W : World) (u : Sub) (threads : Slot → ThreadRecord)
    (hmode : u.mode = .normal ∨ u.mode = .record) :
    u.pickReadyThreadMode W .rr threads = some (pickRr threads u.lastRrSlot,
      { u with lastRrSlot := rrNext threads u.lastRrSlot }) := by
  rw [pickReadyThreadMode_policy]
  · unfold Sub.pickReadyThread rrNext
    cases pickRr threads u.lastRrSlot <;> rfl
  · intro hm
    rcases hmode with h | h <;> cases h.symm.trans hm
  · intro hm
    rcases hmode with h | h <;> cases h.symm.trans hm

theorem rrLast_lt (tables : Nat → Slot → ThreadRecord) {last : Nat} (hlast : last < 128) (k : Nat) :
    rrLast tables last k < 128 := by
  induction k with
  | zero => exact hlast
  | succ k ih =>
    rw [rrLast, rrNext]
    cases pickRr (tables k) (rrLast tables last k) with
    | none => exact ih
    | some i => exact i.isLt

section
variable (W : World) {us : Nat → Sub} (tables : Nat → Slot → ThreadRecord) (last : Nat)

/-- The picks are searches, each behind the slot found last. -/
theorem rrPicks_eq (hmode : ∀ k, (us k).mode = .normal ∨ (us k).mode = .record) (k : Nat) :
    ∃ u, rrPicks W us tables last k = some (pickRr (tables k) (rrLast tables last k), u) ∧
      u.lastRrSlot = rrLast tables last (k + 1) := by
  induction k with
  | zero => exact ⟨_, pickReadyThreadMode_rr W _ _ (hmode 0), rfl⟩
  | succ k ih =>
    obtain ⟨u, hu, hlast⟩ := ih
    have hpick := pickReadyThreadMode_rr W { us (k + 1) with lastRrSlot := u.lastRrSlot }
      (tables (k + 1)) (hmode (k + 1))
    rw [hlast] at hpick
    rw [rrPicks, hu, Option.bind_some, hlast]
    exact ⟨_, hpick, rfl⟩

theorem rrPicked_eq (hmode : ∀ k, (us k).mode = .normal ∨ (us k).mode = .record) (k : Nat) :
    rrPicked W us tables last k = pickRr (tables k) (rrLast tables last k) := by
  obtain ⟨u, hu, -⟩ := rrPicks_eq W tables last hmode k
  rw [rrPicked, hu]
  rfl

end

/-- **Round-robin does not starve.**  Start with any `last_rr_slot` and change the thread table as
    you like between the picks.  Every pick ends, with no slot only if none is `READY`.  And a slot
    that is `READY` at every pick until it is picked, is picked by the 128-th pick, and no other
    slot is picked twice before. -/
theorem rr_does_not_starve (W : World) (us : Nat → Sub) (tables : Nat → Slot → ThreadRecord)
    (last : Nat) (hlast : last < 128)
    (hmode : ∀ k, (us k).mode = .normal ∨ (us k).mode = .record) :
    (∀ k, rrPicks W us tables last k ≠ none ∧
      (rrPicked W us tables last k = none → ∀ i, (tables k i).state ≠ .ready)) ∧
    ∀ j, (∀ k, (∀ m < k, rrPicked W us tables last m ≠ some j) → (tables k j).state = .ready) →
      ∃ k < 128, rrPicked W us tables last k = some j ∧
        ∀ m m', m < m' → m' < k →
          rrPicked W us tables last m ≠ rrPicked W us tables last m' := by
  have hpicked := rrPicked_eq W tables last hmode
  refine ⟨fun k => ⟨?_, fun hnone i => ?_⟩, fun j hready => ?_⟩
  · obtain ⟨u, hu, -⟩ := rrPicks_eq W tables last hmode k
    rw [hu]
    exact Option.some_ne_none _
  · rw [hpicked] at hnone
    exact pickRr_none hnone i
  · -- until `j` is picked, each pick finds a slot, and none behind `j`
    have hfound : ∀ k, (∀ m < k, rrPicked W us tables last m ≠ some j) →
        ∃ b, rrPicked W us tables last k = some b ∧ rrLast tables last (k + 1) = b := by
      intro k hk
      cases hp : pickRr (tables k) (rrLast tables last k) with
      | none => exact absurd (hready k hk) (pickRr_none hp j)
      | some b =>
        refine ⟨b, (hpicked k).trans hp, ?_⟩
        rw [rrLast, rrNext, hp]
        rfl
    have hnot : ∀ k, (∀ m < k, rrLast tables last (m + 1) ≠ j) →
        ∀ m < k, rrPicked W us tables last m ≠ some j := by
      intro k hk m hm hp
      apply hk m hm
      rw [hpicked] at hp
      rw [rrLast, rrNext, hp]
      rfl
    have hcloser : ∀ k, (∀ m < k, rrLast tables last (m + 1) ≠ j) →
        rrLast tables last (k + 1) < 128 ∧
          Rotation.gap 128 (rrLast tables last k) (rrLast tables last (k + 1))
            ≤ Rotation.gap 128 (rrLast tables last k) j := by
      intro k hk
      obtain ⟨b, hb, hb'⟩ := hfound k (hnot k hk)
      rw [hpicked] at hb
      rw [hb']
      exact ⟨b.isLt, pickRr_first (rrLast_lt tables hlast k) hb (hready k (hnot k hk))⟩
    obtain ⟨k, hk, hj, hbefore, hdiff⟩ := Rotation.fair hlast j.isLt hcloser
    obtain ⟨b, hb, hb'⟩ := hfound k (hnot k hbefore)
    refine ⟨k, hk, ?_, fun m m' hm hm' heq => ?_⟩
    · rw [hb, Fin.ext (hb'.symm.trans hj)]
    · obtain ⟨c, hc, hc'⟩ := hfound m fun i hi => hnot k hbefore i (by omega)
      obtain ⟨d, hd, hd'⟩ := hfound m' fun i hi => hnot k hbefore i (by omega)
      rw [hc, hd] at heq
      apply hdiff m m' hm hm'
      rw [hc', hd', Option.some.inj heq]

namespace Sample

/-- A thread table that begins with these threads. -/
def table (threads : List (Tid × Nat × ThreadState)) (i : Slot) : ThreadRecord :=
  match threads[i.val]? with
  | some (tid, priority, state) => { tid := tid, priority := priority, state := state }
  | none => {}

end Sample

/-- Three threads, of which the one in slot 2 waits. -/
theorem rr_does_not_starve_three : ∃ k < 128,
    rrPicked ⟨fun _ => ⟨true, 0, none⟩, 0⟩ (fun _ => {})
      (fun _ => Sample.table [(1, 0, .ready), (2, 0, .ready), (3, 0, .ready)]) 127 k = some 2 := by
  obtain ⟨k, hk, hpick, -⟩ := (rr_does_not_starve ⟨fun _ => ⟨true, 0, none⟩, 0⟩ (fun _ => {})
    (fun _ => Sample.table [(1, 0, .ready), (2, 0, .ready), (3, 0, .ready)]) 127 (by decide)
    fun _ => Or.inl rfl).2 2 fun _ _ => rfl
  exact ⟨k, hk, hpick⟩

/-! ## The priority pick is the greatest thread -/

/-- The threads of a table, without their slots. -/
def entries (threads : Slot → ThreadRecord) : Set (Tid × Nat × ThreadState) :=
  { e | ∃ i, (threads i).state ≠ .empty ∧
    e = ((threads i).tid, (threads i).priority, (threads i).state) }

/-- `i` is `READY` and no `READY` thread comes before it. -/
def Greatest (threads : Slot → ThreadRecord) (i : Slot) : Prop :=
  (threads i).state = .ready ∧ ∀ j, (threads j).state = .ready →
    (threads j).priority < (threads i).priority ∨
      (threads j).priority = (threads i).priority ∧ (threads i).tid ≤ (threads j).tid

theorem Greatest.rank_le {i j : Slot} (h : Greatest threads i) (hj : (threads j).state = .ready) :
    rank threads j ≤ rank threads i := (Gth.rank_le j i).mpr (h.2 j hj)

theorem rank_inj {threads threads' : Slot → ThreadRecord} {i j : Slot}
    (h : rank threads i = rank threads' j) : (threads i).tid = (threads' j).tid := by
  have hpair := congrArg (fun r => (ofLex r).2) h
  exact OrderDual.toDual_inj.mp hpair

theorem pickPriority_isGreatest {i : Slot} (h : pickPriority threads = some i) :
    Greatest threads i :=
  ⟨pickPriority_ready h, fun j hj => (rank_le j i).mp (pickPriority_greatest h hj)⟩

theorem pickPriority_iff (hdistinct : DistinctTids threads) (i : Slot) :
    pickPriority threads = some i ↔ Greatest threads i := by
  refine ⟨pickPriority_isGreatest, fun h => ?_⟩
  have hne : ∀ {k}, (threads k).state = .ready → (threads k).state ≠ .empty := by
    intro k hk
    rw [hk]
    decide
  cases hp : pickPriority threads with
  | none => exact absurd h.1 (pickPriority_none hp i)
  | some j =>
    have hj := pickPriority_isGreatest hp
    have hrank := le_antisymm (h.rank_le hj.1) (hj.rank_le h.1)
    rw [hdistinct j i (hne hj.1) (hne h.1) (rank_inj hrank)]

/-- A thread of one table as a thread of another with the same entries. -/
theorem entries_transfer {threads threads' : Slot → ThreadRecord}
    (h : entries threads' = entries threads) {i : Slot} (hi : (threads i).state = .ready) :
    ∃ k, (threads' k).state = .ready ∧ rank threads' k = rank threads i := by
  have hmem : ((threads i).tid, (threads i).priority, (threads i).state) ∈ entries threads' := by
    rw [h]
    refine ⟨i, ?_, rfl⟩
    rw [hi]
    decide
  obtain ⟨k, -, heq⟩ := hmem
  obtain ⟨htid, hrest⟩ := Prod.mk.inj heq
  obtain ⟨hprio, hstate⟩ := Prod.mk.inj hrest
  refine ⟨k, hstate.symm.trans hi, ?_⟩
  rw [rank, rank, htid, hprio]

/-- **The priority pick.**  There is none iff no thread is `READY`; otherwise it is the `READY`
    thread of the highest priority with the lowest tid, and tables with the same threads in other
    slots give the same tid. -/
theorem priority_pick_is_greatest (u : Sub) (threads : Slot → ThreadRecord)
    (hdistinct : DistinctTids threads) :
    ((u.pickReadyThread .priority threads).1 = none ↔ ∀ i, (threads i).state ≠ .ready) ∧
    (∀ i, (u.pickReadyThread .priority threads).1 = some i ↔ Greatest threads i) ∧
    ∀ (u' : Sub) (threads' : Slot → ThreadRecord), entries threads' = entries threads →
      (u'.pickReadyThread .priority threads').1.map (fun i => (threads' i).tid)
        = (u.pickReadyThread .priority threads).1.map fun i => (threads i).tid := by
  refine ⟨⟨pickPriority_none, fun hnone => ?_⟩, pickPriority_iff hdistinct,
    fun u' threads' heq => ?_⟩
  · show pickPriority threads = none
    cases hp : pickPriority threads with
    | none => rfl
    | some i => exact absurd (pickPriority_ready hp) (hnone i)
  · show (pickPriority threads').map _ = (pickPriority threads).map _
    cases hp : pickPriority threads with
    | none =>
      cases hp' : pickPriority threads' with
      | none => rfl
      | some i' =>
        obtain ⟨k, hk, -⟩ := entries_transfer heq.symm (pickPriority_ready hp')
        exact absurd hk (pickPriority_none hp k)
    | some i =>
      have hi := pickPriority_isGreatest hp
      obtain ⟨k', hk', hrank'⟩ := entries_transfer heq hi.1
      cases hp' : pickPriority threads' with
      | none => exact absurd hk' (pickPriority_none hp' k')
      | some i' =>
        have hi' := pickPriority_isGreatest hp'
        obtain ⟨k, hk, hrank⟩ := entries_transfer heq.symm hi'.1
        -- each of the two is at least as great as the other
        have hle : rank threads' i' ≤ rank threads i := hrank ▸ hi.rank_le hk
        have hge : rank threads i ≤ rank threads' i' := hrank' ▸ hi'.rank_le hk'
        exact congrArg some (rank_inj (le_antisymm hle hge))

/-- The threads in other slots. -/
theorem entries_comp (σ : Equiv.Perm Slot) : entries (threads ∘ σ) = entries threads := by
  ext e
  constructor
  · rintro ⟨i, hi, he⟩
    exact ⟨σ i, hi, he⟩
  · rintro ⟨i, hi, he⟩
    refine ⟨σ.symm i, ?_, ?_⟩
    · rw [Function.comp_apply, Equiv.apply_symm_apply]
      exact hi
    · rw [Function.comp_apply, Equiv.apply_symm_apply]
      exact he

/-- Three threads, two of them of the higher priority, and the same with slots 0 and 1 exchanged. -/
theorem priority_pick_is_greatest_moved :
    Greatest (Sample.table [(1, 5, .ready), (2, 7, .ready), (3, 7, .ready)]) 1 ∧
    (Sub.pickReadyThread {} .priority (Sample.table [(1, 5, .ready), (2, 7, .ready), (3, 7, .ready)]
      ∘ Equiv.swap 0 1)).1.map (fun i => ((Sample.table [(1, 5, .ready), (2, 7, .ready),
        (3, 7, .ready)] ∘ Equiv.swap 0 1) i).tid) = some 2 := by
  obtain ⟨-, hgreatest, hmoved⟩ := priority_pick_is_greatest {}
    (Sample.table [(1, 5, .ready), (2, 7, .ready), (3, 7, .ready)])
    (by unfold DistinctTids; decide +kernel)
  refine ⟨(hgreatest 1).mp (by decide +kernel), ?_⟩
  rw [hmoved {} _ (entries_comp _)]
  decide +kernel

end Gth
