/-
  The wait queue of the synchronisation objects (`src/sync/wait_queue.h`).

  A ring of `uint8_t` slot numbers: `head`, `tail`, `count`, `capacity` and a fixed array.  The
  fields are modelled as naturals.  Every value the code stores in one of them is a remainder
  modulo `capacity` or at most `capacity`, itself a `uint8_t`, so no 8-bit store truncates; the C
  expressions in between are computed in `int`.  The array is a function on indices; `Wf` says
  that only the indices below the capacity (at most `GTH_WQ_FIXED_SLOTS = 52`) are ever used.

  Each operation is related to its list meaning through `toList` (the ring read from the head):
  enqueue appends, dequeue takes the first element, remove erases the first occurrence.
-/
import Gthreads.Lib.Ring

namespace Gth

/-- `GTH_WQ_FIXED_SLOTS`, also the capacity every synchronisation object passes to `gth_wq_init`. -/
abbrev wqFixedSlots : Nat := 52

/-- `gth_wait_queue_t`.  The all-zero value is what `memset` leaves. -/
structure WaitQueue where
  head : Nat := 0
  tail : Nat := 0
  count : Nat := 0
  capacity : Nat := 0
  slots : Nat → Nat := fun _ => 0

namespace WaitQueue

/-- `gth_wq_init`: the slot array is left as it is. -/
def wqInit (wq : WaitQueue) (capacity : Nat) : WaitQueue :=
  { wq with head := 0, tail := 0, count := 0, capacity := capacity }

def wqIsEmpty (wq : WaitQueue) : Bool := wq.count == 0

def wqIsFull (wq : WaitQueue) : Bool := decide (wq.capacity ≤ wq.count)

/-- `gth_wq_enqueue`. -/
def wqEnqueue (wq : WaitQueue) (slotIndex : Nat) : WaitQueue :=
  if wq.capacity ≤ wq.count then wq
  else { wq with
    slots := Function.update wq.slots wq.tail slotIndex
    tail := (wq.tail + 1) % wq.capacity
    count := wq.count + 1 }

/-- `gth_wq_dequeue`: the slot number (`0xFF` when empty) and the queue after. -/
def wqDequeue (wq : WaitQueue) : Nat × WaitQueue :=
  if wq.count = 0 then (0xFF, wq)
  else (wq.slots wq.head,
    { wq with head := (wq.head + 1) % wq.capacity, count := wq.count - 1 })

/-- The inner loop of `gth_wq_remove`, `n` iterations from offset `j` on: each cell takes the
    value of the next one. -/
def wqShift (wq : WaitQueue) : Nat → Nat → WaitQueue
  | _, 0 => wq
  | j, n + 1 =>
    let cur := (wq.head + j) % wq.capacity
    let nxt := (wq.head + j + 1) % wq.capacity
    wqShift { wq with slots := Function.update wq.slots cur (wq.slots nxt) } (j + 1) n

/-- The outer loop of `gth_wq_remove`, with `n` offsets left to look at from offset `i` on. -/
def wqRemoveFrom (wq : WaitQueue) (slotValue : Nat) : Nat → Nat → Bool × WaitQueue
  | _, 0 => (false, wq)
  | i, n + 1 =>
    if wq.slots ((wq.head + i) % wq.capacity) = slotValue then
      -- the shift loop runs while `j + 1 < count`, that is `n` more times
      let wq' := wq.wqShift i n
      (true, { wq' with
        tail := (wq'.tail + wq'.capacity - 1) % wq'.capacity
        count := wq'.count - 1 })
    else wqRemoveFrom wq slotValue (i + 1) n

/-- `gth_wq_remove`: whether an entry was removed, and the queue after. -/
def wqRemove (wq : WaitQueue) (slotValue : Nat) : Bool × WaitQueue :=
  if wq.count = 0 then (false, wq) else wqRemoveFrom wq slotValue 0 wq.count

/-! ## The queue as a list -/

/-- The entries from the head on. -/
def toList (wq : WaitQueue) : List Nat := Ring.read wq.slots wq.capacity wq.head wq.count

/-- The ring invariant.  A zeroed queue (capacity 0) is well-formed too: it holds nothing and
    accepts nothing. -/
structure Wf (wq : WaitQueue) : Prop where
  capacity_le : wq.capacity ≤ wqFixedSlots
  count_le : wq.count ≤ wq.capacity
  head_lt : 0 < wq.capacity → wq.head < wq.capacity
  tail_eq : 0 < wq.capacity → wq.tail = (wq.head + wq.count) % wq.capacity

theorem length_toList (wq : WaitQueue) : wq.toList.length = wq.count :=
  Ring.length_read _ _ _ _

theorem wqIsEmpty_iff (wq : WaitQueue) : wq.wqIsEmpty = true ↔ wq.toList = [] := by
  rw [wqIsEmpty, beq_iff_eq, ← length_toList, List.length_eq_zero_iff]

theorem toList_zero : toList {} = [] := rfl

theorem wf_zero : Wf {} :=
  ⟨by decide, Nat.le_refl _, fun h => absurd h (Nat.lt_irrefl 0), fun h => absurd h (Nat.lt_irrefl 0)⟩

theorem wf_wqInit (wq : WaitQueue) {capacity : Nat} (h : capacity ≤ wqFixedSlots) :
    (wq.wqInit capacity).Wf :=
  ⟨h, Nat.zero_le _, id, fun _ => (Nat.zero_mod _).symm⟩

/-! ## Enqueue and dequeue -/

/-- Enqueueing into a queue with room appends. -/
theorem toList_wqEnqueue {wq : WaitQueue} (h : wq.Wf) (hroom : wq.wqIsFull = false) (n : Nat) :
    (wq.wqEnqueue n).toList = wq.toList ++ [n] := by
  have hlt : wq.count < wq.capacity := by
    rw [wqIsFull, decide_eq_false_iff_not] at hroom
    omega
  rw [wqEnqueue, if_neg (by omega), toList, h.tail_eq (by omega)]
  exact Ring.read_push _ hlt n

theorem wf_wqEnqueue {wq : WaitQueue} (h : wq.Wf) (n : Nat) : (wq.wqEnqueue n).Wf := by
  rw [wqEnqueue]
  by_cases hfull : wq.capacity ≤ wq.count
  · rw [if_pos hfull]
    exact h
  · rw [if_neg hfull]
    refine ⟨h.capacity_le, by show wq.count + 1 ≤ wq.capacity; omega, h.head_lt, fun hc => ?_⟩
    show (wq.tail + 1) % wq.capacity = (wq.head + (wq.count + 1)) % wq.capacity
    rw [h.tail_eq hc, Nat.mod_add_mod, Nat.add_assoc]

theorem capacity_wqEnqueue (wq : WaitQueue) (n : Nat) :
    (wq.wqEnqueue n).capacity = wq.capacity := by
  rw [wqEnqueue]
  split <;> rfl

theorem capacity_wqDequeue (wq : WaitQueue) : wq.wqDequeue.2.capacity = wq.capacity := by
  rw [wqDequeue]
  split <;> rfl

/-- Dequeueing from a non-empty queue takes its first entry. -/
theorem toList_wqDequeue {wq : WaitQueue} (h : wq.Wf) (hne : wq.wqIsEmpty = false) :
    wq.toList = wq.wqDequeue.1 :: wq.wqDequeue.2.toList := by
  have hpos : wq.count ≠ 0 := by
    rw [wqIsEmpty, beq_eq_false_iff_ne] at hne
    exact hne
  obtain ⟨n, hn⟩ := Nat.exists_eq_succ_of_ne_zero hpos
  have hcap : 0 < wq.capacity := by
    have := h.count_le
    omega
  rw [wqDequeue, if_neg hpos]
  show Ring.read wq.slots wq.capacity wq.head wq.count = wq.slots wq.head
    :: Ring.read wq.slots wq.capacity ((wq.head + 1) % wq.capacity) (wq.count - 1)
  rw [hn, Ring.read_pop, Nat.mod_eq_of_lt (h.head_lt hcap)]
  rfl

theorem wf_wqDequeue {wq : WaitQueue} (h : wq.Wf) : wq.wqDequeue.2.Wf := by
  rw [wqDequeue]
  by_cases hz : wq.count = 0
  · rw [if_pos hz]
    exact h
  · rw [if_neg hz]
    refine ⟨h.capacity_le, by show wq.count - 1 ≤ wq.capacity; have := h.count_le; omega,
      fun hc => Nat.mod_lt _ hc, fun hc => ?_⟩
    show wq.tail = ((wq.head + 1) % wq.capacity + (wq.count - 1)) % wq.capacity
    rw [h.tail_eq hc, Nat.mod_add_mod]
    congr 1
    omega

/-! ## Remove -/

/-- The shift loop moves the cells at the offsets `j, …, j + n - 1` one place down and touches
    nothing else.  Induction on the iterations left, the queue changing with each one. -/
theorem wqShift_spec : ∀ (n j : Nat) (wq : WaitQueue), j + n < wq.capacity →
    (wq.wqShift j n).head = wq.head ∧ (wq.wqShift j n).tail = wq.tail ∧
    (wq.wqShift j n).count = wq.count ∧ (wq.wqShift j n).capacity = wq.capacity ∧
    ∀ k, k < wq.capacity → (wq.wqShift j n).slots ((wq.head + k) % wq.capacity)
      = if j ≤ k ∧ k < j + n then wq.slots ((wq.head + (k + 1)) % wq.capacity)
        else wq.slots ((wq.head + k) % wq.capacity) := by
  intro n
  induction n with
  | zero =>
    intro j wq _
    refine ⟨rfl, rfl, rfl, rfl, fun k _ => ?_⟩
    rw [if_neg (by omega)]
    rfl
  | succ n ih =>
    intro j wq hcap
    obtain ⟨hh, ht, hc, hcp, hs⟩ := ih (j + 1)
      { wq with
        slots := Function.update wq.slots ((wq.head + j) % wq.capacity)
          (wq.slots ((wq.head + j + 1) % wq.capacity)) }
      (by show j + 1 + n < wq.capacity; omega)
    refine ⟨hh, ht, hc, hcp, fun k hk => ?_⟩
    -- a cell read by this iteration or later is not yet overwritten: its offset is above `j`
    have hkeep : ∀ k', k' < wq.capacity → k' ≠ j → Function.update wq.slots
        ((wq.head + j) % wq.capacity) (wq.slots ((wq.head + j + 1) % wq.capacity))
        ((wq.head + k') % wq.capacity) = wq.slots ((wq.head + k') % wq.capacity) := by
      intro k' hk' hne
      apply Function.update_of_ne
      intro heq
      exact hne (Ring.offset_inj hk' (by omega) heq)
    refine (hs k hk).trans ?_
    by_cases hin : j + 1 ≤ k ∧ k < j + 1 + n
    · rw [if_pos hin, if_pos (by omega)]
      exact hkeep (k + 1) (by omega) (by omega)
    · rw [if_neg hin]
      by_cases hkj : k = j
      · subst hkj
        rw [if_pos (by omega)]
        exact Function.update_self _ _ _
      · rw [if_neg (by omega)]
        exact hkeep k hk hkj

/-- What `gth_wq_remove` does once it has found its value at offset `i`. -/
theorem toList_wqShift {wq : WaitQueue} (h : wq.Wf) {i : Nat} (hi : i < wq.count) :
    Ring.read (wq.wqShift i (wq.count - 1 - i)).slots (wq.wqShift i (wq.count - 1 - i)).capacity
      (wq.wqShift i (wq.count - 1 - i)).head (wq.count - 1) = wq.toList.eraseIdx i := by
  have hcount := h.count_le
  obtain ⟨hh, -, -, hcp, hs⟩ := wqShift_spec (wq.count - 1 - i) i wq (by omega)
  rw [hh, hcp]
  apply Ring.read_eraseIdx hi
  · intro j hj
    rw [hs j (by omega), if_neg (by omega)]
  · intro j hij hj
    rw [hs j (by omega), if_pos (by omega)]

/-- The search loop, from offset `i` on, when no entry before `i` is the value looked for. -/
theorem wqRemoveFrom_spec {wq : WaitQueue} (h : wq.Wf) (v : Nat) : ∀ (n i : Nat), i + n = wq.count →
    (∀ j, j < i → wq.slots ((wq.head + j) % wq.capacity) ≠ v) →
    ((wq.wqRemoveFrom v i n).1 = true ↔ v ∈ wq.toList) ∧
    (wq.wqRemoveFrom v i n).2.toList = wq.toList.erase v ∧ (wq.wqRemoveFrom v i n).2.Wf ∧
    (v ∉ wq.toList → (wq.wqRemoveFrom v i n).2 = wq) := by
  intro n
  induction n with
  | zero =>
    intro i hin hbefore
    have hnot : v ∉ wq.toList := by
      intro hmem
      obtain ⟨j, hj, hjv⟩ := List.mem_map.mp hmem
      exact hbefore j (by have := List.mem_range.mp hj; omega) hjv
    exact ⟨⟨fun hf => Bool.noConfusion hf, fun hm => absurd hm hnot⟩,
      (List.erase_of_not_mem hnot).symm, h, fun _ => rfl⟩
  | succ n ih =>
    intro i hin hbefore
    rw [wqRemoveFrom]
    by_cases hv : wq.slots ((wq.head + i) % wq.capacity) = v
    · rw [if_pos hv]
      have hcount := h.count_le
      have hn : n = wq.count - 1 - i := by omega
      have hget : wq.toList[i]? = some v := by
        rw [toList, Ring.read_getElem? _ _ _ (by omega), hv]
      have hmem : v ∈ wq.toList := List.mem_of_getElem? hget
      have hidx : wq.toList.idxOf v = i := by
        have hlen := length_toList wq
        rw [List.idxOf, List.findIdx_eq (by omega)]
        have hgetk : ∀ k (hk : k < wq.toList.length),
            wq.toList[k] = wq.slots ((wq.head + k) % wq.capacity) := by
          intro k hk
          have hk' := Ring.read_getElem? wq.slots wq.capacity wq.head (show k < wq.count by omega)
          rw [show Ring.read wq.slots wq.capacity wq.head wq.count = wq.toList from rfl,
            List.getElem?_eq_getElem hk] at hk'
          exact Option.some.inj hk'
        refine ⟨by rw [hgetk, hv, beq_self_eq_true], fun j hj => ?_⟩
        rw [hgetk j (by omega), beq_eq_false_iff_ne]
        exact hbefore j hj
      obtain ⟨hh, ht, hc, hcp, -⟩ := wqShift_spec n i wq (by omega)
      refine ⟨⟨fun _ => hmem, fun _ => rfl⟩, ?_, ?_, fun hnot => absurd hmem hnot⟩
      · show Ring.read (wq.wqShift i n).slots (wq.wqShift i n).capacity (wq.wqShift i n).head
          ((wq.wqShift i n).count - 1) = wq.toList.erase v
        rw [hc, hn, toList_wqShift h (by omega), List.erase_eq_eraseIdx_of_idxOf hidx]
      · refine ⟨hcp ▸ h.capacity_le, ?_, fun hpos => ?_, fun hpos => ?_⟩
        · show (wq.wqShift i n).count - 1 ≤ (wq.wqShift i n).capacity
          omega
        · show (wq.wqShift i n).head < (wq.wqShift i n).capacity
          rw [hh, hcp]
          exact h.head_lt (by omega)
        · show ((wq.wqShift i n).tail + (wq.wqShift i n).capacity - 1) % (wq.wqShift i n).capacity
            = ((wq.wqShift i n).head + ((wq.wqShift i n).count - 1)) % (wq.wqShift i n).capacity
          rw [hh, ht, hc, hcp, h.tail_eq (by omega),
            show (wq.head + wq.count) % wq.capacity + wq.capacity - 1
              = (wq.head + wq.count) % wq.capacity + (wq.capacity - 1) by omega,
            Nat.mod_add_mod, show wq.head + wq.count + (wq.capacity - 1)
              = wq.head + (wq.count - 1) + wq.capacity by omega, Nat.add_mod_right]
    · rw [if_neg hv]
      refine ih (i + 1) (by omega) fun j hj => ?_
      by_cases hji : j = i
      · exact hji ▸ hv
      · exact hbefore j (by omega)

/-- `gth_wq_remove` erases the first occurrence, keeps the ring invariant, and leaves a queue
    without the value exactly as it is. -/
theorem wqRemove_spec {wq : WaitQueue} (h : wq.Wf) (v : Nat) :
    ((wq.wqRemove v).1 = true ↔ v ∈ wq.toList) ∧ (wq.wqRemove v).2.toList = wq.toList.erase v ∧
    (wq.wqRemove v).2.Wf ∧ (v ∉ wq.toList → (wq.wqRemove v).2 = wq) := by
  rw [wqRemove]
  by_cases hz : wq.count = 0
  · have hnil : wq.toList = [] := by
      rw [← List.length_eq_zero_iff, length_toList, hz]
    rw [if_pos hz]
    exact ⟨⟨fun hf => Bool.noConfusion hf, fun hm => absurd (hnil ▸ hm) List.not_mem_nil⟩,
      by rw [hnil]; rfl, h, fun _ => rfl⟩
  · rw [if_neg hz]
    exact wqRemoveFrom_spec h v wq.count 0 (by omega) fun j hj => absurd hj (Nat.not_lt_zero j)

theorem capacity_wqShift : ∀ (n j : Nat) (wq : WaitQueue), (wq.wqShift j n).capacity = wq.capacity := by
  intro n
  induction n with
  | zero => exact fun _ _ => rfl
  | succ n ih => exact fun j _ => ih (j + 1) _

theorem capacity_wqRemove (wq : WaitQueue) (v : Nat) :
    (wq.wqRemove v).2.capacity = wq.capacity := by
  have hfrom : ∀ n i, (wq.wqRemoveFrom v i n).2.capacity = wq.capacity := by
    intro n
    induction n with
    | zero => exact fun _ => rfl
    | succ n ih =>
      intro i
      rw [wqRemoveFrom]
      split
      · exact capacity_wqShift n i wq
      · exact ih (i + 1)
  rw [wqRemove]
  split
  · rfl
  · exact hfrom wq.count 0

end WaitQueue

/-! ## Sequences of operations -/

/-- The operations on a queue that has been initialised. -/
inductive WqOp where
  | enqueue (slotIndex : Nat)
  | dequeue
  | remove (slotValue : Nat)

/-- What an operation returns (nothing is 0) and leaves. -/
def WqOp.run (wq : WaitQueue) : WqOp → Nat × WaitQueue
  | .enqueue v => (0, wq.wqEnqueue v)
  | .dequeue => wq.wqDequeue
  | .remove v => (if (wq.wqRemove v).1 then 1 else 0, (wq.wqRemove v).2)

/-- The same for a list of at most `capacity` elements. -/
def WqOp.runList (capacity : Nat) (l : List Nat) : WqOp → Nat × List Nat
  | .enqueue v => (0, if l.length < capacity then l ++ [v] else l)
  | .dequeue => match l with
    | [] => (0xFF, [])
    | v :: rest => (v, rest)
  | .remove v => if v ∈ l then (1, l.erase v) else (0, l)

namespace WaitQueue
variable {wq : WaitQueue}

theorem wf_run (h : wq.Wf) (op : WqOp) : (op.run wq).2.Wf := by
  cases op with
  | enqueue v => exact wf_wqEnqueue h v
  | dequeue => exact wf_wqDequeue h
  | remove v => exact (wqRemove_spec h v).2.2.1

theorem capacity_run (wq : WaitQueue) (op : WqOp) : (op.run wq).2.capacity = wq.capacity := by
  cases op with
  | enqueue v => exact capacity_wqEnqueue wq v
  | dequeue => exact capacity_wqDequeue wq
  | remove v => exact capacity_wqRemove wq v

/-- **One operation** returns and leaves what it does on the list; where the list stays, nothing of
    the queue changes. -/
theorem run_refines (h : wq.Wf) (op : WqOp) :
    ((op.run wq).1, (op.run wq).2.toList) = op.runList wq.capacity wq.toList ∧
      ((op.runList wq.capacity wq.toList).2 = wq.toList → (op.run wq).2 = wq) := by
  have hlen := length_toList wq
  cases op with
  | enqueue v =>
    have hop : WqOp.runList wq.capacity wq.toList (.enqueue v)
        = (0, if wq.toList.length < wq.capacity then wq.toList ++ [v] else wq.toList) := rfl
    show (0, (wq.wqEnqueue v).toList) = _ ∧ (_ → wq.wqEnqueue v = wq)
    rw [hop]
    by_cases hroom : wq.toList.length < wq.capacity
    · have hfull : wq.wqIsFull = false := decide_eq_false (by omega)
      rw [if_pos hroom, toList_wqEnqueue h hfull]
      refine ⟨rfl, fun heq => ?_⟩
      have hsame : (wq.toList ++ [v]).length = wq.toList.length := congrArg List.length heq
      rw [List.length_append, List.length_singleton] at hsame
      omega
    · have hfull : wq.wqEnqueue v = wq := if_pos (by omega)
      rw [if_neg hroom, hfull]
      exact ⟨rfl, fun _ => rfl⟩
  | dequeue =>
    show (wq.wqDequeue.1, wq.wqDequeue.2.toList) = _ ∧ (_ → wq.wqDequeue.2 = wq)
    by_cases hempty : wq.count = 0
    · have hnil : wq.toList = [] := List.length_eq_zero_iff.mp (hlen.trans hempty)
      have hdeq : wq.wqDequeue = (0xFF, wq) := if_pos hempty
      rw [hdeq, hnil]
      exact ⟨rfl, fun _ => rfl⟩
    · have hcons := toList_wqDequeue h (beq_eq_false_iff_ne.mpr hempty)
      rw [hcons]
      exact ⟨rfl, fun heq => absurd heq (List.cons_ne_self _ _).symm⟩
  | remove v =>
    obtain ⟨hfound, herase, -, hsame⟩ := wqRemove_spec h v
    have hop : WqOp.runList wq.capacity wq.toList (.remove v)
        = if v ∈ wq.toList then (1, wq.toList.erase v) else (0, wq.toList) := rfl
    show (if (wq.wqRemove v).1 then 1 else 0, (wq.wqRemove v).2.toList) = _ ∧
      (_ → (wq.wqRemove v).2 = wq)
    rw [hop]
    by_cases hmem : v ∈ wq.toList
    · rw [if_pos hmem, hfound.mpr hmem, herase]
      refine ⟨rfl, fun heq => ?_⟩
      have hsame : (wq.toList.erase v).length = wq.toList.length := congrArg List.length heq
      rw [List.length_erase_of_mem hmem] at hsame
      have hpos := List.length_pos_of_mem hmem
      omega
    · rw [if_neg hmem, hsame hmem]
      refine ⟨?_, fun _ => rfl⟩
      rw [if_neg (mt hfound.mp hmem)]

end WaitQueue

/-- **The wait queue is a bounded FIFO list.**  After any operations on an initialised queue of
    capacity 1 to 52 the indices are in range, `tail` is `count` places behind `head`, and the next
    operation does to the list of entries what it is to do, and nothing where that is nothing. -/
theorem wait_queue_bounded_fifo (capacity : Nat) (hpos : 1 ≤ capacity) (hmax : capacity ≤ 52)
    (wq₀ wq : WaitQueue) (ops : List WqOp)
    (hrun : wq = ops.foldl (fun wq op => (op.run wq).2) (wq₀.wqInit capacity)) :
    wq.head < capacity ∧ wq.tail < capacity ∧ wq.count ≤ capacity ∧
    wq.tail = (wq.head + wq.count) % capacity ∧
    wq.toList = (List.range wq.count).map (fun i => wq.slots ((wq.head + i) % capacity)) ∧
    wq.toList = ops.foldl (fun l op => (op.runList capacity l).2) [] ∧
    ∀ op : WqOp, ((op.run wq).1, (op.run wq).2.toList) = op.runList capacity wq.toList ∧
      ((op.runList capacity wq.toList).2 = wq.toList → (op.run wq).2 = wq) := by
  have hsteps : ∀ (ops : List WqOp) (wq : WaitQueue), wq.Wf → wq.capacity = capacity →
      (ops.foldl (fun wq op => (op.run wq).2) wq).Wf ∧
      (ops.foldl (fun wq op => (op.run wq).2) wq).capacity = capacity ∧
      (ops.foldl (fun wq op => (op.run wq).2) wq).toList
        = ops.foldl (fun l op => (op.runList capacity l).2) wq.toList := by
    intro ops
    induction ops with
    | nil => exact fun wq hwf hcap => ⟨hwf, hcap, rfl⟩
    | cons op ops ih =>
      intro wq hwf hcap
      have hlist := congrArg Prod.snd (WaitQueue.run_refines hwf op).1
      rw [hcap] at hlist
      rw [List.foldl_cons, List.foldl_cons, ← hlist]
      exact ih _ (WaitQueue.wf_run hwf op) ((WaitQueue.capacity_run wq op).trans hcap)
  obtain ⟨hwf, hcap, hlist⟩ := hsteps ops _ (WaitQueue.wf_wqInit wq₀ hmax) rfl
  rw [← hrun] at hwf hcap hlist
  have htail := hwf.tail_eq (by omega)
  have hcount := hwf.count_le
  have hhead := hwf.head_lt (by omega)
  have hrefines := WaitQueue.run_refines hwf
  have hread : wq.toList = (List.range wq.count).map (fun i => wq.slots ((wq.head + i) % wq.capacity)) :=
    rfl
  rw [hcap] at htail hcount hhead hrefines hread
  refine ⟨hhead, ?_, hcount, htail, hread, hlist, hrefines⟩
  rw [htail]
  exact Nat.mod_lt _ hpos

/-- A queue of two, filled, taken from and filled again: the entry in the middle of the wrapped ring
    is removed. -/
theorem wait_queue_bounded_fifo_wrapped :
    ((WqOp.remove 8).run ((WaitQueue.wqInit {} 2).wqEnqueue 7 |>.wqEnqueue 8 |>.wqDequeue.2
      |>.wqEnqueue 9)).2.toList = [9] := by
  have hfifo := wait_queue_bounded_fifo 2 (by decide) (by decide) {} _
    [.enqueue 7, .enqueue 8, .dequeue, .enqueue 9] rfl
  have hlist := hfifo.2.2.2.2.2.1
  exact (congrArg Prod.snd (hfifo.2.2.2.2.2.2 (.remove 8)).1).trans (by rw [hlist]; rfl)

end Gth
