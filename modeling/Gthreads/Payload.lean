/-
  What a trace record tells about the call that made it.

  The instrumentation functions pass two 64-bit arguments to `gth_trace_record`, which has 64 bits
  for them.  Where there is one argument it is stored whole.  Where there are two, each keeps its
  lower half: that is enough for tids and counts, but not for the address of a semaphore or a
  condition variable.
-/
import Gthreads.TraceFile

namespace Gth

/-! ## Calls -/

/-- A call of an instrumentation function, with its arguments. -/
inductive TraceCall where
  | contextSwitch (fromTid toTid : Tid)
  | threadCreate (tid : Tid)
  | threadExit (tid : Tid) (retval : Nat)
  | threadCancel (targetTid : Tid)
  | threadBlock (tid : Tid) (reason : Nat)
  | threadUnblock (tid : Tid)
  | threadYield (tid : Tid)
  | mutexLock (tid : Tid) (m : Addr)
  | mutexUnlock (tid : Tid) (m : Addr)
  | mutexWait (tid : Tid) (m : Addr)
  | mutexWake (tid : Tid) (m : Addr)
  | semWait (tid : Tid) (s : Addr) (countBefore : Nat)
  | semPost (tid : Tid) (s : Addr) (countAfter : Nat)
  | semWake (tid : Tid) (s : Addr)
  | condWait (tid : Tid) (c : Addr)
  | condSignal (tid : Tid) (c : Addr) (targetTid : Tid)
  | condBroadcast (tid : Tid) (c : Addr) (wakeCount : Nat)
  deriving DecidableEq

namespace TraceCall

/-- What the call passes to `gth_trace_record`. -/
def event : TraceCall → Event
  | .contextSwitch fromTid toTid => traceContextSwitch fromTid toTid
  | .threadCreate tid => traceThreadCreate tid
  | .threadExit tid retval => traceThreadExit tid retval
  | .threadCancel targetTid => traceThreadCancel targetTid
  | .threadBlock tid reason => traceThreadBlock tid reason
  | .threadUnblock tid => traceThreadUnblock tid
  | .threadYield tid => traceThreadYield tid
  | .mutexLock tid m => traceMutexLock tid m
  | .mutexUnlock tid m => traceMutexUnlock tid m
  | .mutexWait tid m => traceMutexWait tid m
  | .mutexWake tid m => traceMutexWake tid m
  | .semWait tid s countBefore => traceSemWait tid s countBefore
  | .semPost tid s countAfter => traceSemPost tid s countAfter
  | .semWake tid s => traceSemWake tid s
  | .condWait tid c => traceCondWait tid c
  | .condSignal tid c targetTid => traceCondSignal tid c targetTid
  | .condBroadcast tid c wakeCount => traceCondBroadcast tid c wakeCount

/-- The call, read off its event. -/
def ofEvent (e : Event) : Option TraceCall :=
  match e.type with
  | .contextSwitch => some (.contextSwitch e.tid e.data2)
  | .threadCreate => some (.threadCreate e.tid)
  | .threadExit => some (.threadExit e.tid e.data1)
  | .threadCancel => some (.threadCancel e.tid)
  | .threadBlock => some (.threadBlock e.tid e.data1)
  | .threadUnblock => some (.threadUnblock e.tid)
  | .threadYield => some (.threadYield e.tid)
  | .mutexLock => some (.mutexLock e.tid e.data1)
  | .mutexUnlock => some (.mutexUnlock e.tid e.data1)
  | .mutexWait => some (.mutexWait e.tid e.data1)
  | .mutexWake => some (.mutexWake e.tid e.data1)
  | .semWait => some (.semWait e.tid e.data1 e.data2)
  | .semPost => some (.semPost e.tid e.data1 e.data2)
  | .semWake => some (.semWake e.tid e.data1)
  | .condWait => some (.condWait e.tid e.data1)
  | .condSignal => some (.condSignal e.tid e.data1 e.data2)
  | .condBroadcast => some (.condBroadcast e.tid e.data1 e.data2)
  | .none | .runtimeInit | .runtimeShutdown => none

theorem ofEvent_event (c : TraceCall) : ofEvent c.event = some c := by
  cases c <;> rfl

/-- Different calls pass different arguments to `gth_trace_record`. -/
theorem event_injective : Function.Injective event := by
  intro c d h
  have hsome := congrArg ofEvent h
  rw [ofEvent_event, ofEvent_event] at hsome
  exact Option.some.inj hsome

/-- Tids and counts of 32 bits, addresses and other values of 64. -/
def InRange (c : TraceCall) : Prop :=
  c.event.tid < 2 ^ 32 ∧ c.event.data1 < 2 ^ 64 ∧ c.event.data2 < 2 ^ 32

instance (c : TraceCall) : Decidable c.InRange := inferInstanceAs (Decidable (_ ∧ _ ∧ _))

/-- The functions that pass the address of an object and a second value. -/
def PacksAddress (c : TraceCall) : Prop := c.event.type = .semWait ∨ c.event.type = .semPost ∨
  c.event.type = .condSignal ∨ c.event.type = .condBroadcast

end TraceCall

/-! ## Packing -/

theorem EventType.code_injective : Function.Injective EventType.code := by
  intro s t h
  cases s <;> cases t <;> first | rfl | exact absurd h (by decide)

/-- The event types for which `gth_trace_record` packs two halves. -/
def EventType.packs : EventType → Bool
  | .contextSwitch | .semWait | .semPost | .condBroadcast | .condSignal => true
  | _ => false

theorem packData_eq (type : EventType) (data1 data2 : Nat) : packData type data1 data2
    = if type.packs then data1 % 2 ^ 32 * 2 ^ 32 + data2 % 2 ^ 32 else data1 := by
  cases type <;> rfl

/-- Two halves that fit in 32 bits come apart again. -/
theorem halves_injective {a b a' b' : Nat} (hb : b < 2 ^ 32) (hb' : b' < 2 ^ 32)
    (h : a % 2 ^ 32 * 2 ^ 32 + b % 2 ^ 32 = a' % 2 ^ 32 * 2 ^ 32 + b' % 2 ^ 32) :
    a % 2 ^ 32 = a' % 2 ^ 32 ∧ b = b' := by
  omega

namespace TraceCall
variable {c d : TraceCall}

/-- Without packing there is no second value. -/
theorem data2_eq_zero (h : c.event.type.packs = false) : c.event.data2 = 0 := by
  cases c <;> first | rfl | exact absurd h.symm Bool.false_ne_true

/-- The one function that packs and passes no address is `gth_trace_context_switch`; its first value
    is the tid of the record. -/
theorem data1_eq_tid (h : c.event.type.packs = true) (hpacks : ¬ c.PacksAddress) :
    c.event.data1 = c.event.tid := by
  cases c with
  | contextSwitch fromTid toTid => rfl
  | semWait tid s n => exact absurd (Or.inl rfl) hpacks
  | semPost tid s n => exact absurd (Or.inr (Or.inl rfl)) hpacks
  | condSignal tid s n => exact absurd (Or.inr (Or.inr (Or.inl rfl))) hpacks
  | condBroadcast tid s n => exact absurd (Or.inr (Or.inr (Or.inr rfl))) hpacks
  | _ => exact absurd h Bool.false_ne_true

end TraceCall

/-- Two records are equal in type, tid and `data.raw`. -/
def SamePayload (r r' : List UInt8) : Prop :=
  recordType r = recordType r' ∧ recordTid r = recordTid r' ∧ recordData r = recordData r'

instance (r r' : List UInt8) : Decidable (SamePayload r r') :=
  inferInstanceAs (Decidable (_ ∧ _ ∧ _))

/-- What equal records say about the events. -/
theorem SamePayload.event {c d : TraceCall} {t t' : Nat} (hc : c.InRange) (hd : d.InRange)
    (h : SamePayload (c.event.record t) (d.event.record t')) :
    c.event.type = d.event.type ∧ c.event.tid = d.event.tid ∧
      packData c.event.type c.event.data1 c.event.data2
        = packData d.event.type d.event.data1 d.event.data2 := by
  obtain ⟨hctid, hc1, hc2⟩ := hc
  obtain ⟨hdtid, hd1, hd2⟩ := hd
  obtain ⟨-, -, htype, htid, hdata⟩ := Encodes.fields ⟨t, rfl⟩ (e := c.event)
  obtain ⟨-, -, htype', htid', hdata'⟩ := Encodes.fields ⟨t', rfl⟩ (e := d.event)
  obtain ⟨ht, hi, hr⟩ := h
  have hfits : ∀ e : Event, e.data1 < 2 ^ 64 → packData e.type e.data1 e.data2 < 2 ^ 64 := by
    intro e he
    rw [packData_eq]
    split <;> omega
  refine ⟨EventType.code_injective ?_, ?_, ?_⟩
  · rw [← htype, ← htype', ht]
  · rw [htid, htid', Nat.mod_eq_of_lt hctid, Nat.mod_eq_of_lt hdtid] at hi
    exact hi
  · rw [hdata, hdata', Nat.mod_eq_of_lt (hfits _ hc1), Nat.mod_eq_of_lt (hfits _ hd1)] at hr
    exact hr

/-- **When a record identifies its call.**  Take two calls of instrumentation functions whose
    records are equal in type, tid and `data.raw`.  They are calls of the same function with equal
    arguments iff the function does not pack an address, or the two addresses agree in their upper
    halves. -/
theorem payload_recoverable_iff (c d : TraceCall) (hc : c.InRange) (hd : d.InRange) (t t' : Nat)
    (hsame : SamePayload (c.event.record t) (d.event.record t')) :
    c = d ↔ (c.PacksAddress → c.event.data1 / 2 ^ 32 = d.event.data1 / 2 ^ 32) := by
  obtain ⟨htype, htid, hdata⟩ := hsame.event hc hd
  constructor
  · rintro rfl _
    rfl
  · intro hhigh
    apply TraceCall.event_injective
    have hd2 := hd.2.2
    have hc2 := hc.2.2
    rw [packData_eq, packData_eq, ← htype] at hdata
    have hargs : c.event.data1 = d.event.data1 ∧ c.event.data2 = d.event.data2 := by
      cases hpacks : c.event.type.packs with
      | false =>
        rw [hpacks, if_neg Bool.false_ne_true, if_neg Bool.false_ne_true] at hdata
        rw [TraceCall.data2_eq_zero hpacks, TraceCall.data2_eq_zero (htype ▸ hpacks)]
        exact ⟨hdata, rfl⟩
      | true =>
        rw [hpacks, if_pos rfl, if_pos rfl] at hdata
        obtain ⟨hlow, hsecond⟩ := halves_injective hc2 hd2 hdata
        refine ⟨?_, hsecond⟩
        by_cases haddr : c.PacksAddress
        · have := hhigh haddr
          omega
        · have haddr' : ¬ d.PacksAddress := by
            unfold TraceCall.PacksAddress at haddr ⊢
            rw [← htype]
            exact haddr
          rw [TraceCall.data1_eq_tid hpacks haddr, TraceCall.data1_eq_tid (htype ▸ hpacks) haddr', htid]
    calc c.event = ⟨c.event.type, c.event.tid, c.event.data1, c.event.data2⟩ := rfl
      _ = ⟨d.event.type, d.event.tid, d.event.data1, d.event.data2⟩ := by
        rw [htype, htid, hargs.1, hargs.2]

/-- Two records of one lock, taken at different times. -/
theorem payload_recoverable_lock :
    let c : TraceCall := .mutexLock 1 0x7f0000001000
    SamePayload (c.event.record 5) (c.event.record 9) ∧ ¬ c.PacksAddress ∧ c = c := by
  have hsame : SamePayload ((TraceCall.mutexLock 1 0x7f0000001000).event.record 5)
      ((TraceCall.mutexLock 1 0x7f0000001000).event.record 9) := by decide +kernel
  have hpacks : ¬ (TraceCall.mutexLock 1 0x7f0000001000).PacksAddress := by
    rintro (h | h | h | h) <;> cases h
  exact ⟨hsame, hpacks, (payload_recoverable_iff _ _ (by decide) (by decide) 5 9 hsame).mpr
    fun h => absurd h hpacks⟩

/-- **Two semaphores that a trace does not tell apart**: their addresses differ by 4 GiB. -/
theorem payload_not_recoverable :
    let c : TraceCall := .semWait 1 0x7f0000001000 0
    let d : TraceCall := .semWait 1 0x7f0100001000 0
    c.InRange ∧ d.InRange ∧ c ≠ d ∧ SamePayload (c.event.record 5) (d.event.record 9) := by
  decide +kernel

end Gth
