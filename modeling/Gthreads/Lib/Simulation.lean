/-
  Further rules for runs.

  `Lib.Exec` has the invariant rule, in which an invariant speaks of the state alone.  Here an
  invariant may speak of the labels to come (`exec_ahead`); a run of one system is followed by
  another one that leaves some of the labels out (`exec_erase`); and a system left alone comes to
  rest because a measure goes down with each of its internal steps (`exec_rests`).
-/
import Gthreads.Lib.Exec

namespace Exec
variable {σ τ κ : Type*} {step : σ → κ → Option σ} {step' : τ → κ → Option τ}

/-- **The invariant rule with a view ahead**: `I` may speak of the labels that are still to come. -/
theorem exec_ahead {I : List κ → σ → Prop}
    (hstep : ∀ l ls s t, I (l :: ls) s → step s l = some t → I ls t) :
    ∀ (ls : List κ) (s t : σ), I ls s → exec step s ls = some t → I [] t := by
  intro ls
  induction ls with
  | nil =>
    intro s t hI hrun
    obtain rfl : s = t := Option.some.inj hrun
    exact hI
  | cons l ls ih =>
    intro s t hI hrun
    obtain ⟨u, hu, hut⟩ := Option.bind_eq_some_iff.mp hrun
    exact ih u t (hstep l ls s u hI hu) hut

/-- **Simulation up to erased labels.**  Steps with a label that is kept are followed by a step
    with the same label, steps with any other label by no step.  Then every run is followed by the
    run of its kept labels. -/
theorem exec_erase {keep : κ → Bool} {ok : κ → Prop} {R : σ → τ → Prop}
    (hkeep : ∀ s s' l t, R s s' → ok l → keep l = true → step s l = some t →
      ∃ t', step' s' l = some t' ∧ R t t')
    (hskip : ∀ s s' l t, R s s' → ok l → keep l = false → step s l = some t → R t s') :
    ∀ (ls : List κ) (s t : σ) (s' : τ), R s s' → (∀ l ∈ ls, ok l) → exec step s ls = some t →
      ∃ t', exec step' s' (ls.filter keep) = some t' ∧ R t t' := by
  intro ls
  induction ls with
  | nil =>
    intro s t s' hR _ hrun
    cases hrun
    exact ⟨s', rfl, hR⟩
  | cons l ls ih =>
    intro s t s' hR hok hrun
    obtain ⟨hl, hls⟩ := List.forall_mem_cons.mp hok
    obtain ⟨m, hm, hmt⟩ := Option.bind_eq_some_iff.mp hrun
    by_cases hk : keep l = true
    · obtain ⟨m', hm', hRm⟩ := hkeep s s' l m hR hl hk hm
      obtain ⟨t', ht', hRt⟩ := ih m t m' hRm hls hmt
      rw [List.filter_cons_of_pos hk]
      exact ⟨t', Option.bind_eq_some_iff.mpr ⟨m', hm', ht'⟩, hRt⟩
    · rw [List.filter_cons_of_neg hk]
      exact ih m t s' (hskip s s' l m hR hl (Bool.not_eq_true _ ▸ hk) hm) hls hmt

/-- **Internal steps come to rest.**  If outside `Q` the internal step `l` is possible, keeps `I`
    and makes the measure smaller, then from every state in `I` at most as many internal steps as
    the measure says lead to a state in `Q`. -/
theorem exec_rests {l : κ} {I Q : σ → Prop} {μ : σ → Nat}
    (hstep : ∀ s, I s → ¬ Q s → ∃ t, step s l = some t ∧ I t ∧ μ t < μ s) :
    ∀ (n : Nat) (s : σ), μ s ≤ n → I s →
      ∃ k ≤ n, ∃ t, exec step s (List.replicate k l) = some t ∧ I t ∧ Q t := by
  intro n
  induction n with
  | zero =>
    intro s hμ hI
    by_cases hQ : Q s
    · exact ⟨0, le_rfl, s, rfl, hI, hQ⟩
    · obtain ⟨t, -, -, hlt⟩ := hstep s hI hQ
      omega
  | succ n ih =>
    intro s hμ hI
    by_cases hQ : Q s
    · exact ⟨0, Nat.zero_le _, s, rfl, hI, hQ⟩
    · obtain ⟨t, hst, hIt, hlt⟩ := hstep s hI hQ
      obtain ⟨k, hk, u, hu, hIu, hQu⟩ := ih t (by omega) hIt
      refine ⟨k + 1, Nat.succ_le_succ hk, u, ?_, hIu, hQu⟩
      rw [List.replicate_succ]
      exact Option.bind_eq_some_iff.mpr ⟨t, hst, hu⟩

end Exec
