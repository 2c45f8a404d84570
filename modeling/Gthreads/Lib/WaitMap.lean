/-
  Who waits where, kept twice: in queues and in a map.

  A system that suspends clients on resources keeps, for every resource `k`, the queue `q k` of
  the clients to wake, and for every client `i`, in its own record, what it waits for: `w i`.
  Nothing ties the two together but the code that changes them in step.

  * `Sound w q`  — a queued client waits for exactly that resource, and is queued there once.
    Wake-ups then reach the right client, and no client is in two queues (`Sound.unique`).
  * `QueuedAt k w q` — every client that waits for the resource `k` is queued there.
  * `AgreeAt k w q` — both.
  * `Agree w q`  — both for all resources.

  A client starts to wait by being pushed (`push`), a wake-up pops the head (`pop`), and a client
  that does not wait is queued and taken back (`erase`).  All these properties survive the three
  moves (`Stable`).
-/
import Mathlib

namespace WaitMap

variable {ι κ : Type*}

/-- Every queued client waits for the resource it is queued at, and is queued there once. -/
structure Sound (w : ι → Option κ) (q : κ → List ι) : Prop where
  nodup : ∀ k, (q k).Nodup
  waits : ∀ k i, i ∈ q k → w i = some k

/-- Every client that waits for `k` is queued there. -/
def QueuedAt (k : κ) (w : ι → Option κ) (q : κ → List ι) : Prop := ∀ i, w i = some k → i ∈ q k

/-- The queue of `k` holds exactly the clients that wait for `k`. -/
structure AgreeAt (k : κ) (w : ι → Option κ) (q : κ → List ι) : Prop extends Sound w q where
  queued : QueuedAt k w q

/-- The queues hold exactly the waiting clients. -/
structure Agree (w : ι → Option κ) (q : κ → List ι) : Prop extends Sound w q where
  queued : ∀ k, QueuedAt k w q

variable {w : ι → Option κ} {q : κ → List ι}

/-- No client is in two queues. -/
theorem Sound.unique (h : Sound w q) {i : ι} {k l : κ} (hk : i ∈ q k) (hl : i ∈ q l) : k = l :=
  Option.some.inj ((h.waits k i hk).symm.trans (h.waits l i hl))

/-- A client that waits for nothing is in no queue. -/
theorem Sound.notMem (h : Sound w q) {i : ι} (hi : w i = none) (k : κ) : i ∉ q k := by
  intro hmem
  have hk := h.waits k i hmem
  rw [hi] at hk
  nomatch hk

/-- Under agreement a waiting client is in exactly one queue. -/
theorem Agree.existsUnique (h : Agree w q) {i : ι} {k : κ} (hi : w i = some k) :
    ∃! l, i ∈ q l :=
  ⟨k, h.queued k i hi, fun _ hl => h.toSound.unique hl (h.queued k i hi)⟩

variable [DecidableEq ι] [DecidableEq κ]

/-- **A client starts to wait**: it is entered in the map and at the end of the queue. -/
theorem Sound.push (h : Sound w q) {i : ι} (hi : w i = none) (k : κ) :
    Sound (Function.update w i (some k)) (Function.update q k (q k ++ [i])) := by
  have hnot := h.notMem hi
  refine ⟨fun l => ?_, fun l j hj => ?_⟩
  · by_cases hl : l = k
    · subst hl
      rw [Function.update_self]
      exact List.nodup_append.mpr ⟨h.nodup l, List.nodup_singleton i, fun a ha b hb hab =>
        hnot l (by rw [List.mem_singleton.mp hb] at hab; exact hab ▸ ha)⟩
    · rw [Function.update_of_ne hl]
      exact h.nodup l
  · by_cases hl : l = k
    · subst hl
      rw [Function.update_self] at hj
      rcases List.mem_append.mp hj with hj | hj
      · have hji : j ≠ i := fun e => hnot l (e ▸ hj)
        rw [Function.update_of_ne hji]
        exact h.waits l j hj
      · rw [List.mem_singleton.mp hj, Function.update_self]
    · rw [Function.update_of_ne hl] at hj
      have hji : j ≠ i := fun e => hnot l (e ▸ hj)
      rw [Function.update_of_ne hji]
      exact h.waits l j hj

/-- **A wake-up**: the head of a queue leaves it and waits no longer. -/
theorem Sound.pop (h : Sound w q) {i : ι} {k : κ} {is : List ι} (hq : q k = i :: is) :
    Sound (Function.update w i none) (Function.update q k is) := by
  have hnd : i ∉ is ∧ is.Nodup := List.nodup_cons.mp (hq ▸ h.nodup k)
  have hmem : i ∈ q k := hq ▸ List.mem_cons_self
  refine ⟨fun l => ?_, fun l j hj => ?_⟩
  · by_cases hl : l = k
    · subst hl
      rw [Function.update_self]
      exact hnd.2
    · rw [Function.update_of_ne hl]
      exact h.nodup l
  · by_cases hl : l = k
    · subst hl
      rw [Function.update_self] at hj
      have hji : j ≠ i := fun e => hnd.1 (e ▸ hj)
      rw [Function.update_of_ne hji]
      exact h.waits l j (hq ▸ List.mem_cons_of_mem i hj)
    · rw [Function.update_of_ne hl] at hj
      have hji : j ≠ i := fun e => hl (h.unique (e ▸ hj) hmem)
      rw [Function.update_of_ne hji]
      exact h.waits l j hj

omit [DecidableEq ι] in
/-- A resource whose queue is emptied wakes nobody wrong. -/
theorem Sound.clear (h : Sound w q) (k : κ) : Sound w (Function.update q k []) := by
  refine ⟨fun l => ?_, fun l j hj => ?_⟩
  · by_cases hl : l = k
    · subst hl
      rw [Function.update_self]
      exact List.nodup_nil
    · rw [Function.update_of_ne hl]
      exact h.nodup l
  · by_cases hl : l = k
    · subst hl
      rw [Function.update_self] at hj
      exact absurd hj List.not_mem_nil
    · rw [Function.update_of_ne hl] at hj
      exact h.waits l j hj

/-- A client that does not wait is queued and taken back. -/
theorem Sound.erase (h : Sound w q) {i : ι} (hi : w i = none) (k : κ) :
    Sound w (Function.update q k ((q k ++ [i]).erase i)) := by
  rw [List.erase_append_right _ (h.notMem hi k), List.erase_cons_head, List.append_nil,
    Function.update_eq_self]
  exact h

section
variable {l : κ}

theorem QueuedAt.push (h : QueuedAt l w q) {i : ι} (k : κ) :
    QueuedAt l (Function.update w i (some k)) (Function.update q k (q k ++ [i])) := by
  intro j hj
  by_cases hji : j = i
  · subst hji
    rw [Function.update_self] at hj
    obtain rfl : k = l := Option.some.inj hj
    rw [Function.update_self]
    exact List.mem_append_right _ (List.mem_singleton.mpr rfl)
  · rw [Function.update_of_ne hji] at hj
    by_cases hl : l = k
    · subst hl
      rw [Function.update_self]
      exact List.mem_append_left _ (h j hj)
    · rw [Function.update_of_ne hl]
      exact h j hj

theorem QueuedAt.pop (h : QueuedAt l w q) {i : ι} {k : κ} {is : List ι} (hq : q k = i :: is) :
    QueuedAt l (Function.update w i none) (Function.update q k is) := by
  intro j hj
  by_cases hji : j = i
  · subst hji
    rw [Function.update_self] at hj
    nomatch hj
  · rw [Function.update_of_ne hji] at hj
    have hmem := h j hj
    by_cases hl : l = k
    · subst hl
      rw [Function.update_self]
      rw [hq] at hmem
      exact (List.mem_cons.mp hmem).resolve_left hji
    · rw [Function.update_of_ne hl]
      exact hmem

theorem QueuedAt.erase (h : QueuedAt l w q) {i : ι} (hi : w i = none) (k : κ) :
    QueuedAt l w (Function.update q k ((q k ++ [i]).erase i)) := by
  intro j hj
  have hji : j ≠ i := by
    rintro rfl
    rw [hi] at hj
    nomatch hj
  by_cases hl : l = k
  · subst hl
    rw [Function.update_self, List.mem_erase_of_ne hji]
    exact List.mem_append_left _ (h j hj)
  · rw [Function.update_of_ne hl]
    exact h j hj

omit [DecidableEq κ] in
/-- A client stops to wait and stays in the queue. -/
theorem QueuedAt.forget (h : QueuedAt l w q) (i : ι) : QueuedAt l (Function.update w i none) q := by
  intro j hj
  by_cases hji : j = i
  · rw [hji, Function.update_self] at hj
    nomatch hj
  · rw [Function.update_of_ne hji] at hj
    exact h j hj

omit [DecidableEq ι] in
/-- Another resource is emptied. -/
theorem QueuedAt.clear (h : QueuedAt l w q) {k : κ} (hk : l ≠ k) :
    QueuedAt l w (Function.update q k []) := by
  intro j hj
  rw [Function.update_of_ne hk]
  exact h j hj

omit [DecidableEq ι] in
theorem AgreeAt.clear (h : AgreeAt l w q) {k : κ} (hk : l ≠ k) :
    AgreeAt l w (Function.update q k []) := ⟨h.toSound.clear k, h.queued.clear hk⟩

end

/-! ## Properties kept by the moves -/

/-- A property of maps and queues that the moves keep. -/
structure Stable (P : (ι → Option κ) → (κ → List ι) → Prop) : Prop where
  push : ∀ {w q} {i : ι}, P w q → w i = none → ∀ k,
    P (Function.update w i (some k)) (Function.update q k (q k ++ [i]))
  pop : ∀ {w q} {i : ι} {k : κ} {is : List ι}, P w q → q k = i :: is →
    P (Function.update w i none) (Function.update q k is)
  erase : ∀ {w q} {i : ι}, P w q → w i = none → ∀ k,
    P w (Function.update q k ((q k ++ [i]).erase i))

theorem stable_sound : Stable (Sound (ι := ι) (κ := κ)) :=
  ⟨fun h hi k => h.push hi k, fun h hq => h.pop hq, fun h hi k => h.erase hi k⟩

theorem stable_queuedAt (l : κ) : Stable (QueuedAt (ι := ι) l) :=
  ⟨fun h _ k => h.push k, fun h hq => h.pop hq, fun h hi k => h.erase hi k⟩

theorem stable_agreeAt (l : κ) : Stable (AgreeAt (ι := ι) l) :=
  ⟨fun h hi k => ⟨h.toSound.push hi k, h.queued.push k⟩,
    fun h hq => ⟨h.toSound.pop hq, h.queued.pop hq⟩,
    fun h hi k => ⟨h.toSound.erase hi k, h.queued.erase hi k⟩⟩

theorem stable_agree : Stable (Agree (ι := ι) (κ := κ)) :=
  ⟨fun h hi k => ⟨h.toSound.push hi k, fun l => (h.queued l).push k⟩,
    fun h hq => ⟨h.toSound.pop hq, fun l => (h.queued l).pop hq⟩,
    fun h hi k => ⟨h.toSound.erase hi k, fun l => (h.queued l).erase hi k⟩⟩

end WaitMap
