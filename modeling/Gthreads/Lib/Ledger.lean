/-
  A ledger of resources.

  A program obtains resources and gives them back.  What it holds is a multiset; giving back a
  resource that is not held (a double free) is not a step of the ledger, so a sequence of operations
  that runs has none, and what the last state holds is all that has not been given back.

  `Settles before ops after` says that `ops` turns `before` into `after`, whatever else is held.
  Because of this frame the triples of parts compose: one after the other (`append`), side by side
  (`frame`), and over a list (`flatMap`).
-/
import Gthreads.Lib.Exec

namespace Ledger

variable {ρ : Type*}

inductive Op (ρ : Type*) where
  | take (r : ρ)
  | give (r : ρ)
  deriving DecidableEq

/-- **A table of holdings**: one entry is exchanged for another. -/
theorem sum_update {ι : Type*} [Fintype ι] [DecidableEq ι] (held : ι → Multiset ρ) (i : ι)
    (b : Multiset ρ) :
    ∃ rest, ∑ j, held j = held i + rest ∧ ∑ j, Function.update held i b j = b + rest := by
  refine ⟨∑ j ∈ Finset.univ \ {i}, held j, ?_, ?_⟩
  · rw [Finset.sdiff_singleton_eq_erase, Finset.add_sum_erase _ _ (Finset.mem_univ i)]
  · exact Finset.sum_update_of_mem (Finset.mem_univ i) held b

variable [DecidableEq ρ]

/-- One operation on what is held. -/
def post (held : Multiset ρ) : Op ρ → Option (Multiset ρ)
  | .take r => some (r ::ₘ held)
  | .give r => if r ∈ held then some (held.erase r) else none

/-- The operations turn `before` into `after`, whatever else is held. -/
def Settles (before : Multiset ρ) (ops : List (Op ρ)) (after : Multiset ρ) : Prop :=
  ∀ rest, Exec.exec post (before + rest) ops = some (after + rest)

namespace Settles
variable {a b c rest : Multiset ρ} {ops ops' : List (Op ρ)} {r : ρ}

/-- A triple, run where nothing else is held. -/
theorem exec (h : Settles a ops b) : Exec.exec post a ops = some b := by
  simpa using h 0

theorem nil (a : Multiset ρ) : Settles a [] a := fun _ => rfl

theorem of_eq (h : a = b) : Settles a [] b := h ▸ nil a

/-- With no operation nothing changes. -/
theorem eq_of_nil (h : Settles a [] b) : a = b := Option.some.inj h.exec

theorem take (r : ρ) : Settles 0 [.take r] {r} := by
  intro rest
  show some (r ::ₘ (0 + rest)) = some ({r} + rest)
  rw [zero_add, Multiset.singleton_add]

theorem give (r : ρ) : Settles {r} [.give r] 0 := by
  intro rest
  have hmem : r ∈ {r} + rest := Multiset.mem_add.mpr (Or.inl (Multiset.mem_singleton_self r))
  show (if r ∈ {r} + rest then some (({r} + rest).erase r) else none).bind some = some (0 + rest)
  rw [if_pos hmem, Multiset.singleton_add, Multiset.erase_cons_head, zero_add]
  rfl

theorem append (h : Settles a ops b) (h' : Settles b ops' c) : Settles a (ops ++ ops') c := by
  intro rest
  rw [Exec.exec_append, h rest]
  exact h' rest

/-- **The frame rule.** -/
theorem frame (h : Settles a ops b) (rest : Multiset ρ) : Settles (a + rest) ops (b + rest) := by
  intro more
  rw [add_assoc, add_assoc]
  exact h (rest + more)

theorem frame_left (h : Settles a ops b) (rest : Multiset ρ) :
    Settles (rest + a) ops (rest + b) := by
  rw [add_comm rest a, add_comm rest b]
  exact h.frame rest

/-- A part that is there on a condition. -/
theorem ite {p : Prop} [Decidable p] (h : Settles a ops b) :
    Settles (if p then a else b) (if p then ops else []) b := by
  split
  · exact h
  · exact nil b

/-- Everything in a list is given back. -/
theorem flatMap {ι : Type*} {held : ι → Multiset ρ} {ops : ι → List (Op ρ)}
    (h : ∀ i, Settles (held i) (ops i) 0) :
    ∀ is : List ι, Settles (is.map held).sum (is.flatMap ops) 0 := by
  intro is
  induction is with
  | nil => exact nil 0
  | cons i is ih =>
    rw [List.map_cons, List.sum_cons, List.flatMap_cons]
    refine append ?_ ih
    simpa using (h i).frame (is.map held).sum

end Settles

end Ledger
