/-
  Mutex events in a trace.

  A reader of a trace who follows the `MUTEX_LOCK` and `MUTEX_UNLOCK` records of a mutex wants to
  know its owner at every point.  `gth_mutex_lock` and `gth_mutex_unlock` (also when `gth_cond_wait`
  calls them) record what they do, but `gth_mutex_trylock` takes the mutex without a record.  So with
  complete writes the records are well bracketed, and tell the owner, up to the first
  `gth_mutex_trylock` that succeeds.

  1. `KeyMove.tells`: what one code segment does to the events and the fields of a mutex.
  2. `mutexRecords_eq`: the records in the file and in the buffer say what the events say; a record
     keeps 64 bits of the address, and 32 bits of the tid.
  3. `Traced.step`: both along a run.
-/
import Gthreads.Exclusion
import Gthreads.Lib.Brackets
import Gthreads.RecordReplay
import Gthreads.UserMemory

namespace Gth

open Brackets (WellBracketed)

/-! ## The events of one mutex -/

/-- What an event says about `m`: this thread has locked it (`true`) or unlocked it (`false`). -/
def Event.onMutex (m : Addr) (e : Event) : Option (Tid × Bool) :=
  if e.data1 = m then
    match e.type with
    | .mutexLock => some (e.tid, true)
    | .mutexUnlock => some (e.tid, false)
    | _ => none
  else none

/-- The `MUTEX_LOCK` and `MUTEX_UNLOCK` events whose payload is `m`, in order. -/
def mutexEvents (m : Addr) (es : List Event) : List (Tid × Bool) := es.filterMap (Event.onMutex m)

theorem mutexEvents_append (m : Addr) (es fs : List Event) :
    mutexEvents m (es ++ fs) = mutexEvents m es ++ mutexEvents m fs := List.filterMap_append

theorem mutexEvents_isKey (m : Addr) (es : List Event) :
    mutexEvents m (es.filter Event.isKey) = mutexEvents m es := by
  rw [mutexEvents, List.filterMap_filter]
  refine List.filterMap_congr fun e _ => ?_
  unfold Event.onMutex Event.isKey
  cases e.type <;> simp

theorem onMutex_lock (t : Tid) (m : Addr) : (traceMutexLock t m).onMutex m = some (t, true) :=
  if_pos rfl

theorem onMutex_unlock (t : Tid) (m : Addr) :
    (traceMutexUnlock t m).onMutex m = some (t, false) := if_pos rfl

theorem onMutex_of_ne {e : Event} {m : Addr} (h : e.data1 ≠ m) : e.onMutex m = none := if_neg h

/-- The thread that has the mutex, by its own fields. -/
def MutexCell.holder (cell : MutexCell) : Option Tid :=
  if cell.locked ≠ 0 then some cell.owner else none

/-- **The log tells the owner**: it is well bracketed, and who reads it from left to right ends up
    with the owner. -/
structure Tells (log : List (Tid × Bool)) (cell : MutexCell) : Prop where
  brackets : WellBracketed log
  owner : Brackets.owner log = cell.holder

instance (log : List (Tid × Bool)) (cell : MutexCell) : Decidable (Tells log cell) :=
  decidable_of_iff (WellBracketed log ∧ Brackets.owner log = cell.holder)
    ⟨fun h => ⟨h.1, h.2⟩, fun h => ⟨h.brackets, h.owner⟩⟩

section
variable {log : List (Tid × Bool)} {cell : MutexCell}

theorem holder_free (h : cell.locked = 0) : cell.holder = none := if_neg (not_not_intro h)

theorem holder_locked (h : cell.locked ≠ 0) : cell.holder = some cell.owner := if_pos h

/-- A free mutex is set to another free one. -/
theorem Tells.free (h : Tells log cell) (hfree : cell.locked = 0) (i : Nat) : Tells log ⟨i, 0, 0⟩ :=
  ⟨h.brackets, h.owner.trans (holder_free hfree)⟩

theorem Tells.lock (h : Tells log cell) (hfree : cell.locked = 0) (i : Nat) (t : Tid) :
    Tells (log ++ [(t, true)]) ⟨i, 1, t⟩ := by
  refine ⟨(Brackets.wellBracketed_concat _ log).mpr ⟨h.brackets, ?_⟩, Brackets.owner_concat log _⟩
  exact h.owner.trans (holder_free hfree)

theorem Tells.unlock (h : Tells log cell) (hlocked : cell.locked ≠ 0) (i : Nat) :
    Tells (log ++ [(cell.owner, false)]) ⟨i, 0, 0⟩ := by
  refine ⟨(Brackets.wellBracketed_concat _ log).mpr ⟨h.brackets, ?_⟩, Brackets.owner_concat log _⟩
  exact h.owner.trans (holder_locked hlocked)

end

/-- `gth_mutex_trylock(m)` does not succeed. -/
def NoTrylock (m : Addr) (s : Core) (_ : Ctx) (c : Call) : Prop :=
  c = .mutexTrylock m → (s.mutexTrylock m).1 ≠ .ok

instance (m : Addr) (s : Core) (x : Ctx) (c : Call) : Decidable (NoTrylock m s x c) :=
  inferInstanceAs (Decidable (_ → _))

/-! ## The records of one mutex -/

/-- What a record says about `m`. -/
def recordOnMutex (m : Addr) (record : List UInt8) : Option (Nat × Bool) :=
  if recordData record = m then
    if recordType record = EventType.mutexLock.code then some (recordTid record, true)
    else if recordType record = EventType.mutexUnlock.code then some (recordTid record, false)
    else none
  else none

/-- The `MUTEX_LOCK` and `MUTEX_UNLOCK` records whose payload is `m`, in order. -/
def mutexRecords (m : Addr) (rs : List (List UInt8)) : List (Nat × Bool) :=
  rs.filterMap (recordOnMutex m)

/-- The mutex an event is about has a 64-bit address. -/
def Event.Fits (e : Event) : Prop := e.type = .mutexLock ∨ e.type = .mutexUnlock → e.data1 < 2 ^ 64

/-- A record has 32 bits of the tid. -/
def narrow : Tid × Bool → Nat × Bool := Prod.map (· % 2 ^ 32) id

theorem recordOnMutex_encodes {record : List UInt8} {e : Event} (h : Encodes record e)
    (hfits : e.Fits) (m : Addr) : recordOnMutex m record = (e.onMutex m).map narrow := by
  obtain ⟨-, -, htype, htid, hdata⟩ := h.fields
  obtain ⟨type, tid, data1, data2⟩ := e
  rw [recordOnMutex, htype, htid, hdata, Event.onMutex]
  have hmod : type = .mutexLock ∨ type = .mutexUnlock → data1 % 2 ^ 64 = data1 := fun ht =>
    Nat.mod_eq_of_lt (hfits ht)
  cases type with
  | mutexLock =>
    simp only [packData, hmod (Or.inl rfl), if_true]
    split <;> rfl
  | mutexUnlock =>
    simp only [packData, hmod (Or.inr rfl), EventType.code, if_true]
    split <;> rfl
  | _ =>
    -- no other type of event counts
    simp [EventType.code]

/-- **The records say what the events say.** -/
theorem mutexRecords_eq {rs : List (List UInt8)} {es : List Event} (h : List.Forall₂ Encodes rs es)
    (hfits : ∀ e ∈ es, e.Fits) (m : Addr) :
    mutexRecords m rs = (mutexEvents m es).map narrow := by
  induction h with
  | nil => rfl
  | @cons r e rs es he _ ih =>
    obtain ⟨hfit, hrest⟩ := List.forall_mem_cons.mp hfits
    have hhead := recordOnMutex_encodes he hfit m
    have ih : rs.filterMap (recordOnMutex m) = (es.filterMap (Event.onMutex m)).map narrow := ih hrest
    show List.filterMap _ (r :: rs) = (List.filterMap _ (e :: es)).map narrow
    rw [List.filterMap_cons, List.filterMap_cons, hhead]
    cases e.onMutex m with
    | none => exact ih
    | some p => exact congrArg (narrow p :: ·) ih

/-- The owner as far as a record tells it. -/
def MutexCell.narrow (cell : MutexCell) : MutexCell := { cell with owner := cell.owner % 2 ^ 32 }

theorem MutexCell.holder_narrow (cell : MutexCell) :
    cell.narrow.holder = cell.holder.map (· % 2 ^ 32) := by
  by_cases hl : cell.locked = 0
  · rw [holder_free hl, show cell.narrow.holder = none from holder_free hl]
    rfl
  · rw [holder_locked hl, show cell.narrow.holder = some (cell.owner % 2 ^ 32) from holder_locked hl]
    rfl

theorem Tells.narrow {log : List (Tid × Bool)} {cell : MutexCell} (h : Tells log cell) :
    Tells (log.map narrow) cell.narrow := by
  refine ⟨h.brackets.map _, ?_⟩
  rw [cell.holder_narrow, ← h.owner]
  exact Brackets.owner_map _ log

/-! ## One code segment -/

namespace Core
variable {s t : Core} {m : Addr}

theorem mutexEvents_keys (m : Addr) (s : Core) :
    mutexEvents m s.keys.events = mutexEvents m s.events := mutexEvents_isKey m s.events

theorem mutexEvents_record (m : Addr) (k : Keys) (e : Event) :
    mutexEvents m (k.record e).events = mutexEvents m k.events ++ (e.onMutex m).toList := by
  show mutexEvents m (k.events ++ [e]) = _
  rw [mutexEvents_append]
  refine congrArg (_ ++ ·) ?_
  show List.filterMap _ [e] = _
  cases h : e.onMutex m with
  | none => exact List.filterMap_cons_none h
  | some _ => exact List.filterMap_cons_some h

theorem cells_set (k : Keys) (m : Addr) (cell : MutexCell) : (k.set m cell).cells m = cell :=
  Function.update_self _ _ _

theorem cells_set_of_ne {k : Keys} {a : Addr} (h : a ≠ m) (cell : MutexCell) :
    (k.set a cell).cells m = k.cells m := Function.update_of_ne (Ne.symm h) _ _

/-- An event about another mutex, and the fields of that mutex. -/
theorem tells_other {k : Keys} {log : List (Tid × Bool)} {a : Addr}
    (hlog : Tells (log ++ mutexEvents m k.events) (k.cells m)) (ha : a ≠ m) (cell : MutexCell)
    {e : Event} (he : e.data1 = a) :
    Tells (log ++ mutexEvents m ((k.set a cell).record e).events)
      (((k.set a cell).record e).cells m) := by
  rw [mutexEvents_record, onMutex_of_ne (he ▸ ha), Option.toList_none, List.append_nil]
  show Tells _ ((k.set a cell).cells m)
  rw [cells_set_of_ne ha]
  exact hlog

/-- An event about a semaphore. -/
theorem tells_sem {k : Keys} {log : List (Tid × Bool)}
    (hlog : Tells (log ++ mutexEvents m k.events) (k.cells m)) (a : Addr) (n : Nat) {e : Event}
    (he : e.onMutex m = none) :
    Tells (log ++ mutexEvents m ((k.count a n).record e).events)
      (((k.count a n).record e).cells m) := by
  rw [mutexEvents_record, he, Option.toList_none, List.append_nil]
  exact hlog

/-- **Between two picks the log goes on telling the owner**, unless `m` is destroyed or taken by
    `gth_mutex_trylock`; an owner is not 0, and `m` is initialised only while it is not locked. -/
theorem KeyMove.tells {c : Option Call} (h : KeyMove s c t) {log : List (Tid × Bool)}
    (hlog : Tells (log ++ mutexEvents m s.events) (s.mutexes m).cell)
    (hgreen : (s.mutexes m).locked ≠ 0 → (s.mutexes m).owner ≠ 0)
    (hinit : c = some (.mutexInit m) → (s.mutexes m).locked = 0)
    (hdestroy : c ≠ some (.mutexDestroy m))
    (htry : c = some (.mutexTrylock m) → (s.mutexTrylock m).1 ≠ .ok) :
    Tells (log ++ mutexEvents m t.events) (t.mutexes m).cell := by
  change Tells _ (t.keys.cells m)
  rw [← mutexEvents_keys m s] at hlog
  rw [← mutexEvents_keys m t]
  cases h with
  | same h =>
    rw [h]
    exact hlog
  | create _ h =>
    rw [h]
    exact hlog
  | init a hc h =>
    rw [h]
    by_cases ha : a = m
    · subst ha
      rw [cells_set]
      exact hlog.free (hinit hc) 1
    · rw [cells_set_of_ne ha]
      exact hlog
  | destroy a hc h =>
    have ha : a ≠ m := by
      rintro rfl
      exact hdestroy hc
    rw [h, cells_set_of_ne ha]
    exact hlog
  | trylock a hc hok h =>
    have ha : a ≠ m := by
      rintro rfl
      exact htry hc hok
    rw [h, keysTaken, cells_set_of_ne ha]
    exact hlog
  | lock a hfree h =>
    rw [h]
    by_cases ha : a = m
    · subst ha
      rw [mutexEvents_record, onMutex_lock, ← List.append_assoc]
      show Tells _ ((s.keysTaken a).cells a)
      rw [keysTaken, cells_set]
      exact hlog.lock hfree _ _
    · exact tells_other hlog ha _ rfl
  | unlock a hl howner h =>
    rw [h]
    by_cases ha : a = m
    · subst ha
      rw [mutexEvents_record, onMutex_unlock, ← howner.resolve_left (hgreen hl),
        ← List.append_assoc]
      show Tells _ ((s.keysFreed a).cells a)
      rw [keysFreed, cells_set]
      exact hlog.unlock hl _
    · exact tells_other hlog ha _ rfl
  | semReset d a n _ _ h =>
    rw [h]
    exact hlog
  | semWait a h =>
    rw [h]
    exact tells_sem hlog a _ (ite_self _)
  | semPost a n h =>
    rw [h]
    exact tells_sem hlog a n (ite_self _)

/-- A pick says nothing about mutexes. -/
theorem runNext_mutexEvents (s : Core) (x : Ctx) (caller : Caller) (pick : Option Slot) :
    mutexEvents m (s.runNext x caller pick).events = mutexEvents m s.events ∧
      (s.runNext x caller pick).mutexes = s.mutexes := by
  cases pick with
  | none => cases caller <;> exact ⟨rfl, rfl⟩
  | some i =>
    refine ⟨?_, rfl⟩
    show mutexEvents m (s.events ++ [_]) = _
    rw [mutexEvents_append]
    have hevent : (traceContextSwitch s.currentTid (s.threads i).tid).onMutex m = none := ite_self _
    rw [show mutexEvents m [_] = [] from List.filterMap_cons_none hevent, List.append_nil]

/-- The events of a segment are about mutexes with 64-bit addresses if it leaves all others alone. -/
theorem KeyMove.fits {c : Option Call} (h : KeyMove s c t) (hs : s.events = [])
    (hframe : ∀ m, 2 ^ 64 ≤ m → t.mutexes m = s.mutexes m) : ∀ e ∈ t.events, e.Fits := by
  have hempty := keys_events_nil hs
  -- the mutex of the event has changed
  have hone : ∀ (a : Addr) (cell : MutexCell) (e₀ : Event), e₀.data1 = a →
      t.keys = (s.keys.set a cell).record e₀ → cell.locked ≠ (s.mutexes a).locked →
      ∀ e ∈ t.keys.events, e.data1 < 2 ^ 64 := by
    intro a cell e₀ he₀ hkeys hne e he
    rw [hkeys, Keys.events_record (k := s.keys.set a cell) hempty, List.mem_singleton] at he
    rw [he, he₀]
    by_contra hwide
    have hcell : t.keys.cells a = (s.mutexes a).cell :=
      congrArg MutexImpl.cell (hframe a (Nat.not_lt.mp hwide))
    rw [hkeys] at hcell
    exact hne (congrArg MutexCell.locked ((cells_set s.keys a cell).symm.trans hcell))
  intro e he htype
  have hkey : e ∈ t.keys.events := by
    refine List.mem_filter.mpr ⟨he, ?_⟩
    unfold Event.isKey
    rcases htype with htype | htype <;> rw [htype]
  have hnone : t.keys.events = [] → e.data1 < 2 ^ 64 := by
    intro hnil
    rw [hnil] at hkey
    cases hkey
  -- an event about a semaphore is none about a mutex
  have hsem : ∀ (a : Addr) (n : Nat) (e₀ : Event), t.keys = (s.keys.count a n).record e₀ →
      ¬ (e₀.type = .mutexLock ∨ e₀.type = .mutexUnlock) → e.data1 < 2 ^ 64 := by
    intro a n e₀ hkeys htype₀
    rw [hkeys, Keys.events_record (k := s.keys.count a n) hempty, List.mem_singleton] at hkey
    exact absurd (hkey ▸ htype) htype₀
  cases h with
  | same h => exact hnone (by rw [h]; exact hempty)
  | create _ h => exact hnone (by rw [h]; exact hempty)
  | init a _ h => exact hnone (by rw [h]; exact hempty)
  | destroy a _ h => exact hnone (by rw [h]; exact hempty)
  | trylock a _ _ h => exact hnone (by rw [h]; exact hempty)
  | lock a hfree h =>
    refine hone a _ _ rfl h ?_ e hkey
    rw [hfree]
    exact Nat.one_ne_zero
  | unlock a hl _ h => exact hone a _ _ rfl h (Ne.symm hl) e hkey
  | semReset d a n _ _ h => exact hnone (by rw [h]; exact hempty)
  | semWait a h => exact hsem a _ _ h (by rintro (h | h) <;> cases h)
  | semPost a n h => exact hsem a n _ h (by rintro (h | h) <;> cases h)

end Core

/-! ## Addresses -/

/-- The objects without a 64-bit address: a C program has none. -/
def Raw.wide : Raw := fun o => decide (2 ^ 64 ≤ o.addr)

/-- The call is made on objects with 64-bit addresses. -/
def Label.Fits : Label → Prop
  | .call _ c => ∀ o ∈ c.uses ++ c.inits.toList, o.addr < 2 ^ 64
  | _ => True

instance decidableLabelFits : ∀ l : Label, Decidable l.Fits
  | .call _ c => inferInstanceAs (Decidable (∀ o ∈ c.uses ++ c.inits.toList, o.addr < 2 ^ 64))
  | .sub _ _ => isTrue trivial
  | .tau => isTrue trivial

namespace Label
variable {l : Label}

theorem Fits.off (h : l.Fits) : l.Off Raw.wide := by
  cases l with
  | call x c =>
    intro o ho _
    exact decide_eq_false (Nat.not_le.mpr (h o (List.mem_append_left _ ho)))
  | sub x c => trivial
  | tau => trivial

theorem Fits.claim (h : l.Fits) : l.claim Raw.wide = Raw.wide := by
  cases l with
  | call x c =>
    show c.claim Raw.wide = Raw.wide
    cases hc : c.inits with
    | none => rw [Call.claim, hc]
    | some o =>
      have ho : o.addr < 2 ^ 64 := h o (List.mem_append_right _ (by rw [hc]; exact .head _))
      by_cases h0 : o.addr = 0
      · exact Call.claim_null hc h0
      · rw [Call.claim_init hc h0]
        exact Core.update_off (decide_eq_false (Nat.not_le.mpr ho))
  | sub x c => rfl
  | tau => rfl

end Label

/-- **One step** of calls on objects with 64-bit addresses. -/
theorem State.step_fits {W : World} {s t : State} {l : Label} (hs : s.core.Clear Raw.wide)
    (hl : l.Fits) (hstep : State.step W s l = some t) :
    t.core.Clear Raw.wide ∧ ((∀ x c, l ≠ .sub x c) → ∀ e ∈ t.core.events, e.Fits) := by
  have hclear := State.step_clear hs hl.off hstep
  rw [hl.claim] at hclear
  refine ⟨hclear, fun hsub => ?_⟩
  rcases State.step_cases hstep with ⟨x, c, rfl, -, rfl⟩ | ⟨x, c, rfl, -, -, rfl⟩ |
      ⟨x, caller, pick, sub, rfl, -, -, rfl⟩ | ⟨k, rfl, hcpu, rfl⟩
  · exact absurd rfl (hsub x c)
  · exact (Core.exec_keyMove s.fresh x c).fits rfl fun m hm =>
      Core.exec_off hl.off hl.claim (decide_eq_true hm)
  · intro e he htype
    obtain ⟨i, rfl⟩ : ∃ i, pick = some i := by
      cases pick with
      | none => cases caller <;> cases he
      | some i => exact ⟨i, rfl⟩
    have he : e ∈ [traceContextSwitch s.core.currentTid (s.core.threads i).tid] := he
    rw [List.mem_singleton.mp he] at htype
    rcases htype with htype | htype <;> cases htype
  · exact (Core.resume_keyMove s.fresh k).fits rfl fun m hm =>
      Core.resume_off (hs.loaded k hcpu) (decide_eq_true hm)

/-! ## Runs -/

/-- The mutex events emitted since `n` events had been emitted tell the owner of `m`. -/
def Bracketed (m : Addr) (n : Nat) (s : State) : Prop :=
  Tells (mutexEvents m (s.emitted.drop n)) (s.core.mutexes m).cell

namespace State
variable {W : World} {s t : State} {m : Addr} {l : Label}

/-- What a step adds to the emitted events. -/
theorem step_emitted (hstep : step W s l = some t) :
    ∃ es, t.emitted = s.emitted ++ es ∧ ((∀ x c, l ≠ .sub x c) → es = t.core.events) ∧
      (∀ x c, l = .sub x c → es = [] ∧ t = { s with sub := (s.subExec W c).2 }) := by
  rcases step_cases hstep with ⟨x, c, rfl, -, rfl⟩ | ⟨x, c, rfl, -, -, rfl⟩ |
      ⟨x, caller, pick, sub, rfl, -, -, rfl⟩ | ⟨k, rfl, -, rfl⟩
  · refine ⟨[], (List.append_nil _).symm, fun h => absurd rfl (h x c), fun y d h => ?_⟩
    cases h
    exact ⟨rfl, rfl⟩
  · exact ⟨_, rfl, fun _ => rfl, nofun⟩
  · exact ⟨_, rfl, fun _ => rfl, nofun⟩
  · exact ⟨_, rfl, fun _ => rfl, nofun⟩

/-- One step. -/
theorem step_bracketed {n : Nat} (hstep : step W s l = some t) (hn : n ≤ s.emitted.length)
    (h : Bracketed m n s) (howned : s.core.kernel.Owned m)
    (hcalls : OnCalls (fun s => GreenOnly m (s.mutexes m).initialized) s l)
    (htry : OnCalls (NoTrylock m) s l) : Bracketed m n t := by
  have hgreen : (s.core.mutexes m).locked ≠ 0 → (s.core.mutexes m).owner ≠ 0 := howned.green
  have hfresh : ∀ es, mutexEvents m ((s.emitted ++ es).drop n)
      = mutexEvents m (s.emitted.drop n) ++ mutexEvents m es := by
    intro es
    rw [List.drop_append_of_le_length hn, mutexEvents_append]
  have h' : Tells (mutexEvents m (s.emitted.drop n) ++ mutexEvents m s.fresh.events)
      (s.fresh.mutexes m).cell := by
    rw [show mutexEvents m s.fresh.events = [] from rfl, List.append_nil]
    exact h
  rcases step_cases hstep with ⟨x, c, rfl, -, rfl⟩ | ⟨x, c, rfl, -, -, rfl⟩ |
      ⟨x, caller, pick, sub, rfl, -, -, rfl⟩ | ⟨k, rfl, -, rfl⟩
  · exact h
  · have hcall := hcalls x c rfl
    show Tells (mutexEvents m ((s.emitted ++ _).drop n)) _
    rw [hfresh]
    refine (Core.exec_keyMove s.fresh x c).tells h' hgreen (fun hc => ?_) (fun hc => ?_)
      (fun hc => htry x c rfl (Option.some.inj hc))
    · exact (howned.fresh (hcall.2.1 (Option.some.inj hc))).1
    · exact hcall.2.2 (Option.some.inj hc)
  · obtain ⟨hevents, hmutexes⟩ := Core.runNext_mutexEvents (m := m) s.fresh x caller pick
    show Tells (mutexEvents m ((s.emitted ++ _).drop n)) _
    rw [hfresh]
    show Tells (_ ++ mutexEvents m (s.fresh.runNext x caller pick).events)
      ((s.fresh.runNext x caller pick).mutexes m).cell
    rw [hevents, hmutexes]
    exact h'
  · show Tells (mutexEvents m ((s.emitted ++ _).drop n)) _
    rw [hfresh]
    exact (Core.resume_keyMove s.fresh k).tells h' hgreen nofun nofun nofun

/-- A `gth_mutex_trylock(m)` that succeeds: its caller has the mutex, and who reads the events that
    were there before, and there are no new ones, finds no owner. -/
theorem step_trylock {n : Nat} {x : Ctx} (hstep : step W s (.call x (.mutexTrylock m)) = some t)
    (h : Bracketed m n s) (hok : (s.fresh.mutexTrylock m).1 = .ok) :
    (t.core.mutexes m).cell.holder = some s.fresh.threadSelf ∧ t.emitted = s.emitted ∧
      Brackets.owner (mutexEvents m (s.emitted.drop n)) = none := by
  obtain ⟨hfree, heq⟩ := Core.mutexTrylock_ok hok
  have hcore : t.core = Core.done x (.mutexTrylock m) (s.fresh.mutexTrylock m) :=
    (step_call_inv hstep).2
  rw [heq] at hcore
  refine ⟨?_, ?_, h.owner.trans (holder_free hfree)⟩
  · rw [hcore]
    simp only [Core.done, Core.ret, Core.setMutex, Function.update_self]
    rfl
  · obtain ⟨es, hem, hes, -⟩ := step_emitted hstep
    rw [hem, hes (by rintro _ _ ⟨⟩), hcore]
    exact List.append_nil _

end State

/-! ## The trace of a run -/

/-- The trace holds the records of what was emitted since `S`. -/
def Traced (path : Path) (header : List UInt8) (S t : State) : Prop :=
  ∃ es, t.emitted = S.emitted ++ es ∧ (∀ e ∈ es, e.Fits) ∧
    t.sub.Traces path header (⟨.runtimeInit, 0, 0, 0⟩ :: es)

/-- **One step** while the trace is open and the mode is not `REPLAY`, with complete writes. -/
theorem Traced.step {W : World} (hW : W.Complete) {path : Path} {header : List UInt8}
    {S t u : State} {l : Label} (h : Traced path header S t) (hopen : t.sub.Records path)
    (hopen' : u.sub.Records path) (hclear : t.core.Clear Raw.wide) (hl : l.Fits)
    (hu : State.step W t l = some u) : Traced path header S u := by
  obtain ⟨es, hes, hfits, htraces⟩ := h
  obtain ⟨fs, hfs, hcode, hsub⟩ := State.step_emitted hu
  by_cases hx : ∃ x c, l = .sub x c
  · obtain ⟨x, c, rfl⟩ := hx
    obtain ⟨rfl, rfl⟩ := hsub x c rfl
    exact ⟨es, hes, hfits, State.subExec_traces hW htraces c hopen'⟩
  · have hx : ∀ x c, l ≠ .sub x c := fun x c he => hx ⟨x, c, he⟩
    refine ⟨es ++ u.core.events, by rw [hfs, hes, hcode hx, List.append_assoc], ?_,
      (State.step_traces hW htraces hopen.2 hx hu).1⟩
    intro e he
    rcases List.mem_append.mp he with he | he
    · exact hfits e he
    · exact (State.step_fits hclear hl hu).2 hx e he

theorem Traced.length_le {path : Path} {header : List UInt8} {S t : State}
    (h : Traced path header S t) : S.emitted.length ≤ t.emitted.length := by
  obtain ⟨es, hes, -⟩ := h
  rw [hes, List.length_append]
  exact Nat.le_add_right _ _

/-- Who reads the trace sees the mutex events since `S`. -/
theorem Traced.mutexRecords {path : Path} {header : List UInt8} {S t : State}
    (h : Traced path header S t) (hlen : header.length = traceHeaderSize) (m : Addr) :
    mutexRecords m (t.sub.records path)
      = (mutexEvents m (t.emitted.drop S.emitted.length)).map narrow := by
  obtain ⟨es, hes, hfits, htraces⟩ := h
  have hinit : Event.Fits ⟨.runtimeInit, 0, 0, 0⟩ := fun h0 => by
    rcases h0 with h0 | h0 <;> cases h0
  have hstart : (⟨.runtimeInit, 0, 0, 0⟩ : Event).onMutex m = none := ite_self _
  rw [mutexRecords_eq (htraces.records hlen) (List.forall_mem_cons.mpr ⟨hinit, hfits⟩), hes,
    List.drop_left]
  exact congrArg (List.map narrow) (List.filterMap_cons_none hstart)

/-- **The records of the trace tell the owner of `m`**: those in the file and in the buffer are well
    bracketed, and who reads them from left to right ends up with the owner. -/
def RecordsTell (m : Addr) (path : Path) (s : State) : Prop :=
  Tells (mutexRecords m (s.sub.records path)) (s.core.mutexes m).cell.narrow

instance (m : Addr) (path : Path) (s : State) : Decidable (RecordsTell m path s) :=
  inferInstanceAs (Decidable (Tells _ _))

theorem Traced.recordsTell {path : Path} {header : List UInt8} {S t : State} {m : Addr}
    (h : Traced path header S t) (hlen : header.length = traceHeaderSize)
    (hb : Bracketed m S.emitted.length t) : RecordsTell m path t := by
  rw [RecordsTell, h.mutexRecords hlen m]
  exact Tells.narrow hb

/-- After a `gth_mutex_trylock(m)` that succeeded the records do not tell the owner. -/
theorem Traced.not_recordsTell {W : World} {path : Path} {header : List UInt8} {S t u : State}
    {m : Addr} {x : Ctx} (h : Traced path header S u) (hlen : header.length = traceHeaderSize)
    (hstep : State.step W t (.call x (.mutexTrylock m)) = some u)
    (hb : Bracketed m S.emitted.length t) (hok : (t.fresh.mutexTrylock m).1 = .ok) :
    ¬ RecordsTell m path u := by
  intro hu
  obtain ⟨howner, hemitted, hnone⟩ := State.step_trylock hstep hb hok
  have hsays := hu.owner
  rw [h.mutexRecords hlen m, MutexCell.holder_narrow, howner, hemitted] at hsays
  have hreads : Brackets.owner ((mutexEvents m (t.emitted.drop S.emitted.length)).map narrow)
      = (none : Option Tid).map (· % 2 ^ 32) := by
    rw [← hnone]
    exact Brackets.owner_map _ _
  cases hreads.symm.trans hsays

/-- What stays so while the run goes on with `ls`: the mutex is as the calls so far leave it, those
    to come are proper, and the trace is open and up to date. -/
structure Watched (W : World) (m : Addr) (path : Path) (header : List UInt8) (S : State)
    (ls : List Label) (t : State) : Prop where
  owned : t.core.QueuesWf ∧ t.core.kernel.Owned m
  calls : Exec.Along (State.step W) (fun t l => State.Tame W t l ∧
    State.OnCalls (fun s => GreenOnly m (s.mutexes m).initialized) t l) t ls
  opened : Exec.Along (State.step W) (fun t l => t.sub.Records path ∧
    ∀ u, State.step W t l = some u → u.sub.Records path) t ls
  fits : ∀ l ∈ ls, l.Fits
  clear : t.core.Clear Raw.wide
  traced : Traced path header S t

namespace Watched
variable {W : World} {m : Addr} {path : Path} {header : List UInt8} {S t u : State} {l : Label}
  {ls : List Label}

/-- **One step.** -/
theorem step (hW : W.Complete) (h : Watched W m path header S (l :: ls) t)
    (hu : State.step W t l = some u) : Watched W m path header S ls u := by
  obtain ⟨hl, hfits⟩ := List.forall_mem_cons.mp h.fits
  exact
    { owned := (Kernel.owned_inv m).keeps.step t l u h.owned h.calls.1 hu
      calls := h.calls.2 u hu
      opened := h.opened.2 u hu
      fits := hfits
      clear := (State.step_fits h.clear hl hu).1
      traced := h.traced.step hW h.opened.1.1 (h.opened.1.2 u hu) h.clear hl hu }

/-- A step that is no successful `gth_mutex_trylock(m)`. -/
theorem bracketed (h : Watched W m path header S (l :: ls) t)
    (hb : Bracketed m S.emitted.length t) (hl : State.OnCalls (NoTrylock m) t l)
    (hu : State.step W t l = some u) : Bracketed m S.emitted.length u :=
  State.step_bracketed hu h.traced.length_le hb h.owned.2 h.calls.1.2 hl

end Watched

/-- In a run that works on objects with 64-bit addresses no thread waits for another one. -/
theorem State.reach_clear {W : World} {config : ValidConfig} {pageSize : BitVec 64}
    {files : Path → Option (List UInt8)} {ls : List Label} {s : State} (hfits : ∀ l ∈ ls, l.Fits)
    (hrun : Exec.exec (State.step W) (State.start config pageSize files) ls = some s) :
    s.core.Clear Raw.wide := by
  refine Exec.exec_inv (I := fun t : State => t.core.Clear Raw.wide) (G := fun _ l => l.Fits)
    (fun t l u ht hl hu => (State.step_fits ht hl hu).1) ls _ s ?_
    (Exec.along_of_forall ls _ fun l hl _ => hfits l hl) hrun
  rw [State.start_core]
  exact ⟨fun i k hk => (by cases hk), fun k hk => (by cases hk), fun k hk => (by cases hk)⟩

/-- Main initialises mutex 1 and creates two threads. -/
def mutexSetup : List Label :=
  [Sample.main (.mutexInit 1), Sample.main Sample.create, Sample.main Sample.create]

/-- Thread 1 locks the mutex and yields, thread 2 blocks; thread 1 unlocks it, thread 2 gets it. -/
def handoverRun : List Label :=
  [Sample.main .yield, .tau, .tau, Sample.green 0 (.mutexLock 1), Sample.green 0 .yield, .tau,
    Sample.main .yield, .tau, .tau, Sample.green 1 (.mutexLock 1), .tau,
    Sample.main .yield, .tau, .tau, Sample.green 0 (.mutexUnlock 1), Sample.green 0 .yield, .tau,
    Sample.main .yield, .tau, .tau, Sample.green 1 (.mutexUnlock 1)]

/-- The state after `mutexSetup`. -/
def mutexReady : State :=
  (Exec.exec (State.step Sample.world) Sample.start mutexSetup).getD Sample.start

/-- Thread 1 takes the mutex with `gth_mutex_trylock` and unlocks it. -/
def trylockRun : List Label :=
  [Sample.main .yield, .tau, .tau, Sample.green 0 (.mutexTrylock 1),
    Sample.green 0 (.mutexUnlock 1)]

end Gth
