/-
  Logs of acquisitions and releases.

  An entry `(t, true)` says that `t` has acquired something, `(t, false)` that `t` has released it.
  A log is WELL BRACKETED if it starts with an acquisition, acquisitions and releases alternate, and
  each release is by the party that acquired last; the last acquisition may be still open.  Then
  reading the log from left to right gives the owner at every point.
-/
import Mathlib

namespace Brackets

variable {α β : Type*}

/-- Acquisitions and releases alternate, in pairs of one party; the last pair may be open. -/
def WellBracketed : List (α × Bool) → Prop
  | [] => True
  | [e] => e.2 = true
  | e :: f :: log => e.2 = true ∧ f.2 = false ∧ e.1 = f.1 ∧ WellBracketed log

/-- The owner after one more entry. -/
def next (e : α × Bool) : Option α := if e.2 then some e.1 else none

/-- The owner that a reader of the log makes out. -/
def owner (log : List (α × Bool)) : Option α := log.foldl (fun _ e => next e) none

instance decidableWellBracketed [DecidableEq α] :
    ∀ log : List (α × Bool), Decidable (WellBracketed log)
  | [] => isTrue trivial
  | [e] => inferInstanceAs (Decidable (e.2 = true))
  | _ :: _ :: log =>
    have : Decidable (WellBracketed log) := decidableWellBracketed log
    inferInstanceAs (Decidable (_ ∧ _ ∧ _ ∧ _))

theorem owner_concat (log : List (α × Bool)) (e : α × Bool) : owner (log ++ [e]) = next e :=
  List.foldl_append

/-- **One more entry**: an acquisition needs a log without an owner, a release needs to be the
    owner's. -/
theorem wellBracketed_concat (e : α × Bool) : ∀ log : List (α × Bool),
    WellBracketed (log ++ [e]) ↔
      WellBracketed log ∧ owner log = if e.2 then none else some e.1
  | [] => by
    cases h : e.2 <;> simp [WellBracketed, owner, h]
  | [f] => by
    cases h : e.2 <;> cases h' : f.2 <;> simp [WellBracketed, owner, next, h, h']
  | f :: g :: log => by
    have ih := wellBracketed_concat e log
    show f.2 = true ∧ g.2 = false ∧ f.1 = g.1 ∧ WellBracketed (log ++ [e]) ↔
      (f.2 = true ∧ g.2 = false ∧ f.1 = g.1 ∧ WellBracketed log) ∧ _
    rw [ih]
    cases hg : g.2 with
    | true => simp
    | false =>
      -- the first two entries are a closed pair
      have hskip : owner (f :: g :: log) = owner log := by
        show log.foldl _ (next g) = _
        rw [next, hg]
        rfl
      rw [hskip]
      tauto

/-! ## Renaming the parties -/

theorem owner_map (f : α → β) (log : List (α × Bool)) :
    owner (log.map (Prod.map f id)) = (owner log).map f := by
  induction log using List.reverseRecOn with
  | nil => rfl
  | append_singleton log e _ =>
    rw [List.map_append, List.map_singleton, owner_concat, owner_concat]
    obtain ⟨t, _ | _⟩ := e <;> rfl

theorem WellBracketed.map (f : α → β) : ∀ {log : List (α × Bool)}, WellBracketed log →
    WellBracketed (log.map (Prod.map f id))
  | [], _ => trivial
  | [_], h => h
  | _ :: _ :: _, h => ⟨h.1, h.2.1, congrArg f h.2.2.1, h.2.2.2.map f⟩

end Brackets
