/-
  Finite executions of a labelled step function: the run-induction library.

  A system is a partial step function `step : σ → κ → Option σ`: in state `s` the label `l` is
  either enabled, with exactly one successor, or it is not (`none`).  All the nondeterminism of
  the system sits in the labels, so a RUN is a start state together with a list of labels, and
  `exec` computes the state it ends in.  Three run properties are needed everywhere:

  * `Along G s ls`    — every step of the run meets `G` (state BEFORE the step, label);
  * `Always P s ls`   — every state VISITED by the run, the two ends included, meets `P`;
  * `Unless R Q s ls` — every step meets `R`, up to one that meets `Q` (states before and after).

  They are defined by recursion on the labels, so that they can be evaluated on a concrete run.
  `exec_inv` is the one induction: an invariant that holds at the start and that every step
  meeting `G` preserves holds at the end of every run whose steps all meet `G`.
-/
import Mathlib

namespace Exec

variable {σ κ : Type*} (step : σ → κ → Option σ)

/-- The state a run ends in; `none` when one of its labels is not enabled where it stands. -/
def exec : σ → List κ → Option σ
  | s, [] => some s
  | s, l :: ls => (step s l).bind fun t => exec t ls

/-- Every step of the run meets `G`, a condition on the state before the step and its label. -/
def Along (G : σ → κ → Prop) : σ → List κ → Prop
  | _, [] => True
  | s, l :: ls => G s l ∧ ∀ t, step s l = some t → Along G t ls

/-- Every state the run visits meets `P`. -/
def Always (P : σ → Prop) : σ → List κ → Prop
  | s, [] => P s
  | s, l :: ls => P s ∧ ∀ t, step s l = some t → Always P t ls

/-- Every step of the run meets `R`, up to one that meets `Q`, if there is one. -/
def Unless (R Q : σ → σ → Prop) : σ → List κ → Prop
  | _, [] => True
  | s, l :: ls => ∀ t, step s l = some t → Q s t ∨ R s t ∧ Unless R Q t ls

variable {step}

/-! ## Evaluation -/

/-- A property of the next state, if there is one. -/
def decideNext {P : σ → Prop} [∀ t, Decidable (P t)] :
    ∀ o : Option σ, Decidable (∀ t, o = some t → P t)
  | none => isTrue nofun
  | some t => decidable_of_iff (P t) ⟨fun h _ e => Option.some.inj e ▸ h, fun h => h t rfl⟩

instance decidableAlong {G : σ → κ → Prop} [∀ s l, Decidable (G s l)] :
    ∀ (s : σ) (ls : List κ), Decidable (Along step G s ls)
  | _, [] => isTrue trivial
  | s, l :: ls =>
    have (t : σ) : Decidable (Along step G t ls) := decidableAlong t ls
    have := decideNext (P := fun t => Along step G t ls) (step s l)
    inferInstanceAs (Decidable (_ ∧ _))

instance decidableAlways {P : σ → Prop} [∀ s, Decidable (P s)] :
    ∀ (s : σ) (ls : List κ), Decidable (Always step P s ls)
  | s, [] => inferInstanceAs (Decidable (P s))
  | s, l :: ls =>
    have (t : σ) : Decidable (Always step P t ls) := decidableAlways t ls
    have := decideNext (P := fun t => Always step P t ls) (step s l)
    inferInstanceAs (Decidable (_ ∧ _))

/-! ## Composition of runs -/

theorem exec_append (s : σ) (ls ms : List κ) :
    exec step s (ls ++ ms) = (exec step s ls).bind fun t => exec step t ms := by
  induction ls generalizing s with
  | nil => rfl
  | cons l ls ih =>
    show (step s l).bind _ = ((step s l).bind _).bind _
    cases step s l with
    | none => rfl
    | some t => exact ih t

/-- Where every label is enabled, every run goes through. -/
theorem exec_total (h : ∀ s l, ∃ t, step s l = some t) : ∀ (ls : List κ) (s : σ),
    ∃ t, exec step s ls = some t
  | [], s => ⟨s, rfl⟩
  | l :: ls, s => by
    obtain ⟨t, ht⟩ := h s l
    obtain ⟨u, hu⟩ := exec_total h ls t
    refine ⟨u, ?_⟩
    show (step s l).bind _ = some u
    rw [ht]
    exact hu

/-- A run that ends in one more step is a run and that step. -/
theorem exec_snoc {s u : σ} {ls : List κ} {l : κ} (h : exec step s (ls ++ [l]) = some u) :
    ∃ t, exec step s ls = some t ∧ step t l = some u := by
  rw [exec_append] at h
  obtain ⟨t, ht, hu⟩ := Option.bind_eq_some_iff.mp h
  refine ⟨t, ht, ?_⟩
  obtain ⟨v, hv, hvu⟩ := Option.bind_eq_some_iff.mp hu
  rw [hv]
  exact hvu

/-- **Run induction**, at the end of the run: `P` may speak of the labels so far. -/
theorem exec_induct {s : σ} {P : List κ → σ → Prop} (h0 : P [] s)
    (hstep : ∀ ls l t u, exec step s ls = some t → P ls t → step t l = some u → P (ls ++ [l]) u) :
    ∀ ls t, exec step s ls = some t → P ls t := by
  intro ls
  induction ls using List.reverseRecOn with
  | nil =>
    intro t ht
    obtain rfl : s = t := Option.some.inj ht
    exact h0
  | append_singleton ls l ih =>
    intro u hu
    obtain ⟨t, ht, hstp⟩ := exec_snoc hu
    exact hstep ls l t u ht (ih t ht) hstp

/-! ## Conditions on all steps, properties of all states -/

/-- **The invariant rule**: `I` holds at the start and every step that meets `G` keeps it, so it
    holds at the end of every run whose steps all meet `G`. -/
theorem exec_inv {I : σ → Prop} {G : σ → κ → Prop}
    (hstep : ∀ t l u, I t → G t l → step t l = some u → I u) :
    ∀ (ls : List κ) (s u : σ), I s → Along step G s ls → exec step s ls = some u → I u := by
  intro ls
  induction ls with
  | nil =>
    intro s u hs _ hu
    obtain rfl : s = u := Option.some.inj hu
    exact hs
  | cons l ls ih =>
    intro s u hs hG hu
    obtain ⟨t, ht, htu⟩ := Option.bind_eq_some_iff.mp hu
    exact ih t u (hstep s l t hs hG.1 ht) (hG.2 t ht) htu

/-- The same rule for all the states on the way. -/
theorem always_inv {I : σ → Prop} {G : σ → κ → Prop}
    (hstep : ∀ t l u, I t → G t l → step t l = some u → I u) :
    ∀ (ls : List κ) (s : σ), I s → Along step G s ls → Always step I s ls := by
  intro ls
  induction ls with
  | nil => intro s hs _; exact hs
  | cons l ls ih =>
    intro s hs hG
    exact ⟨hs, fun t ht => ih t (hstep s l t hs hG.1 ht) (hG.2 t ht)⟩

/-- A condition on the labels alone. -/
theorem along_of_forall {G : σ → κ → Prop} :
    ∀ (ls : List κ) (s : σ), (∀ l ∈ ls, ∀ t, G t l) → Along step G s ls
  | [], _, _ => trivial
  | l :: ls, s, h =>
    ⟨h l List.mem_cons_self s,
      fun t _ => along_of_forall ls t fun m hm u => h m (List.mem_cons_of_mem l hm) u⟩

/-- A machine with more state, whose steps project to those of `step`. -/
theorem along_comap {τ ι : Type*} {step' : τ → ι → Option τ} (π : τ → σ) (f : ι → κ)
    (hstep : ∀ t l u, step' t l = some u → step (π t) (f l) = some (π u)) {G : σ → κ → Prop} :
    ∀ (ls : List ι) (t : τ), Along step G (π t) (ls.map f) →
      Along step' (fun t l => G (π t) (f l)) t ls
  | [], _, _ => trivial
  | _ :: ls, t, h => ⟨h.1, fun u hu => along_comap π f hstep ls u (h.2 (π u) (hstep t _ u hu))⟩

theorem along_mono {G H : σ → κ → Prop} (hGH : ∀ t l, G t l → H t l) :
    ∀ (ls : List κ) (s : σ), Along step G s ls → Along step H s ls
  | [], _, _ => trivial
  | l :: ls, s, h => ⟨hGH s l h.1, fun t ht => along_mono hGH ls t (h.2 t ht)⟩

theorem along_and {G H : σ → κ → Prop} :
    ∀ (ls : List κ) (s : σ), Along step G s ls → Along step H s ls →
      Along step (fun t l => G t l ∧ H t l) s ls
  | [], _, _, _ => trivial
  | _ :: ls, _, hG, hH =>
    ⟨⟨hG.1, hH.1⟩, fun t ht => along_and ls t (hG.2 t ht) (hH.2 t ht)⟩

theorem always_head {P : σ → Prop} : ∀ (ls : List κ) (s : σ), Always step P s ls → P s
  | [], _, h => h
  | _ :: _, _, h => h.1

theorem always_mono {P Q : σ → Prop} (hPQ : ∀ t, P t → Q t) :
    ∀ (ls : List κ) (s : σ), Always step P s ls → Always step Q s ls
  | [], s, h => hPQ s h
  | _ :: ls, s, h => ⟨hPQ s h.1, fun t ht => always_mono hPQ ls t (h.2 t ht)⟩

theorem always_last {P : σ → Prop} : ∀ (ls : List κ) (s t : σ), Always step P s ls →
    exec step s ls = some t → P t
  | [], _, _, h, ht => Option.some.inj ht ▸ h
  | _ :: ls, _, t, h, ht => by
    obtain ⟨u, hu, hut⟩ := Option.bind_eq_some_iff.mp ht
    exact always_last ls u t (h.2 u hu) hut

/-- A property of all states, seen from the middle of the run. -/
theorem always_append {P : σ → Prop} {ms : List κ} :
    ∀ (ls : List κ) (s t : σ), exec step s ls = some t → Always step P s ls → Always step P t ms →
      Always step P s (ls ++ ms) := by
  intro ls
  induction ls with
  | nil =>
    intro s t ht _ hms
    obtain rfl : s = t := Option.some.inj ht
    exact hms
  | cons l ls ih =>
    intro s t ht hls hms
    obtain ⟨u, hu, hut⟩ := Option.bind_eq_some_iff.mp ht
    refine ⟨hls.1, fun v hv => ?_⟩
    obtain rfl : u = v := Option.some.inj (hu.symm.trans hv)
    exact ih u t hut (hls.2 u hu) hms

/-- What holds of every state holds before and after every step. -/
theorem along_of_always {P : σ → Prop} : ∀ (ls : List κ) (s : σ), Always step P s ls →
    Along step (fun t l => P t ∧ ∀ u, step t l = some u → P u) s ls
  | [], _, _ => trivial
  | _ :: ls, _, h =>
    ⟨⟨h.1, fun t ht => always_head ls t (h.2 t ht)⟩, fun t ht => along_of_always ls t (h.2 t ht)⟩

/-- **The exactness rule**: as long as every step meets `G` the invariant `I` holds, and with it
    `P`; and a step that does not meet `G` leads to a state without `P`.  Then `P` holds all along
    a run iff all its steps meet `G`.  `I` may speak of the labels to come. -/
theorem always_iff_along {I : List κ → σ → Prop} {P : σ → Prop} {G : σ → κ → Prop}
    (hkeep : ∀ l ls s t, I (l :: ls) s → G s l → step s l = some t → I ls t)
    (hgood : ∀ ls s, I ls s → P s)
    (hbad : ∀ l ls s t, I (l :: ls) s → step s l = some t → P t → G s l) :
    ∀ (ls : List κ) (s u : σ), I ls s → exec step s ls = some u →
      (Always step P s ls ↔ Along step G s ls) := by
  intro ls
  induction ls with
  | nil => exact fun s u hI _ => ⟨fun _ => trivial, fun _ => hgood [] s hI⟩
  | cons l ls ih =>
    intro s u hI hu
    obtain ⟨t, ht, htu⟩ := Option.bind_eq_some_iff.mp hu
    have hnext : G s l → (Always step P t ls ↔ Along step G t ls) :=
      fun hG => ih t u (hkeep l ls s t hI hG ht) htu
    constructor
    · intro hP
      have hG : G s l := hbad l ls s t hI ht (always_head ls t (hP.2 t ht))
      refine ⟨hG, fun t' ht' => ?_⟩
      obtain rfl : t = t' := Option.some.inj (ht.symm.trans ht')
      exact (hnext hG).mp (hP.2 t ht)
    · intro hG
      refine ⟨hgood _ s hI, fun t' ht' => ?_⟩
      obtain rfl : t = t' := Option.some.inj (ht.symm.trans ht')
      exact (hnext hG.1).mpr (hG.2 t ht)

/-- **The exactness rule for conditions on steps**: `I` survives the steps that meet `P`, and under
    `I` a step that can be taken meets `P` iff it meets `G`. -/
theorem along_iff_along {I : List κ → σ → Prop} {P G : σ → κ → Prop}
    (hkeep : ∀ l ls s t, I (l :: ls) s → P s l → step s l = some t → I ls t)
    (hiff : ∀ l ls s t, I (l :: ls) s → step s l = some t → (P s l ↔ G s l)) :
    ∀ (ls : List κ) (s u : σ), I ls s → exec step s ls = some u →
      (Along step P s ls ↔ Along step G s ls) := by
  intro ls
  induction ls with
  | nil => exact fun _ _ _ _ => Iff.rfl
  | cons l ls ih =>
    intro s u hI hu
    obtain ⟨t, ht, htu⟩ := Option.bind_eq_some_iff.mp hu
    have hhere := hiff l ls s t hI ht
    have hnext : P s l → (Along step P t ls ↔ Along step G t ls) :=
      fun hP => ih t u (hkeep l ls s t hI hP ht) htu
    constructor
    · rintro ⟨hP, hrest⟩
      refine ⟨hhere.mp hP, fun t' ht' => ?_⟩
      obtain rfl : t = t' := Option.some.inj (ht.symm.trans ht')
      exact (hnext hP).mp (hrest t ht)
    · rintro ⟨hG, hrest⟩
      refine ⟨hhere.mpr hG, fun t' ht' => ?_⟩
      obtain rfl : t = t' := Option.some.inj (ht.symm.trans ht')
      exact (hnext (hhere.mpr hG)).mpr (hrest t ht)

/-- Conditions on steps, seen from the middle of the run. -/
theorem along_append {G : σ → κ → Prop} {ms : List κ} :
    ∀ (ls : List κ) (s t : σ), exec step s ls = some t →
      (Along step G s (ls ++ ms) ↔ Along step G s ls ∧ Along step G t ms) := by
  intro ls
  induction ls with
  | nil =>
    intro s t ht
    obtain rfl : s = t := Option.some.inj ht
    exact (and_iff_right trivial).symm
  | cons l ls ih =>
    intro s t ht
    obtain ⟨u, hu, hut⟩ := Option.bind_eq_some_iff.mp ht
    constructor
    · intro h
      obtain ⟨hls, hms⟩ := (ih u t hut).mp (h.2 u hu)
      exact ⟨⟨h.1, fun v hv => Option.some.inj (hu.symm.trans hv) ▸ hls⟩, hms⟩
    · rintro ⟨hls, hms⟩
      refine ⟨hls.1, fun v hv => ?_⟩
      obtain rfl : u = v := Option.some.inj (hu.symm.trans hv)
      exact (ih u t hut).mpr ⟨hls.2 u hu, hms⟩

/-- A condition on all steps is a condition on each of them. -/
theorem along_of_steps {G : σ → κ → Prop} {s u : σ} {ls : List κ} (hu : exec step s ls = some u)
    (h : ∀ ls₁ l ls₂ t, ls = ls₁ ++ l :: ls₂ → exec step s ls₁ = some t → G t l) :
    Along step G s ls := by
  induction ls generalizing s with
  | nil => trivial
  | cons l ls ih =>
    obtain ⟨t, ht, htu⟩ := Option.bind_eq_some_iff.mp hu
    refine ⟨h [] l ls s rfl rfl, fun t' ht' => ?_⟩
    obtain rfl : t = t' := Option.some.inj (ht.symm.trans ht')
    refine ih htu fun ls₁ l' ls₂ v hls hv => h (l :: ls₁) l' ls₂ v (congrArg (l :: ·) hls) ?_
    show (step s l).bind _ = some v
    rw [ht]
    exact hv

/-- **The rule for `Unless`**: while `I` holds, a step that meets `G` meets `Q`, or it meets `R` and
    keeps `I`. -/
theorem unless_inv {I : σ → Prop} {G : σ → κ → Prop} {R Q : σ → σ → Prop}
    (hstep : ∀ s l t, I s → G s l → step s l = some t → Q s t ∨ R s t ∧ I t) :
    ∀ (ls : List κ) (s : σ), I s → Along step G s ls → Unless step R Q s ls := by
  intro ls
  induction ls with
  | nil => exact fun _ _ _ => trivial
  | cons l ls ih =>
    intro s hs hG t ht
    rcases hstep s l t hs hG.1 ht with hQ | ⟨hR, hI⟩
    · exact Or.inl hQ
    · exact Or.inr ⟨hR, ih t hI (hG.2 t ht)⟩

/-- What holds unless `Q` still holds after a part of the run in which `Q` did not happen. -/
theorem unless_append {P : σ → Prop} {R Q : σ → σ → Prop} {ms : List κ}
    (hQ : ∀ s t, P t → ¬ Q s t) :
    ∀ (ls : List κ) (s t : σ), exec step s ls = some t → Always step P s ls →
      Unless step R Q s (ls ++ ms) → Unless step R Q t ms := by
  intro ls
  induction ls with
  | nil =>
    intro s t ht _ h
    obtain rfl : s = t := Option.some.inj ht
    exact h
  | cons l ls ih =>
    intro s t ht hP h
    obtain ⟨u, hu, hut⟩ := Option.bind_eq_some_iff.mp ht
    rcases h u hu with hq | ⟨-, hrest⟩
    · exact absurd hq (hQ s u (always_head ls u (hP.2 u hu)))
    · exact ih u t hut (hP.2 u hu) hrest

/-! ## Driven runs

    A driver looks at the state and says which label comes next. -/

variable (step) in
/-- The state after `n` steps with the labels that `next` chooses. -/
def drive (next : σ → κ) : Nat → σ → Option σ
  | 0, s => some s
  | n + 1, s => (step s (next s)).bind (drive next n)

theorem drive_succ {next : σ → κ} {n : Nat} {s u : σ} (h : drive step next (n + 1) s = some u) :
    ∃ t, step s (next s) = some t ∧ drive step next n t = some u := Option.bind_eq_some_iff.mp h

/-- **The invariant rule for driven runs**: what every step keeps holds at the end. -/
theorem drive_inv {next : σ → κ} {I : σ → Prop}
    (hstep : ∀ s t, I s → step s (next s) = some t → I t) :
    ∀ (n : Nat) (s u : σ), I s → drive step next n s = some u → I u := by
  intro n
  induction n with
  | zero =>
    intro s u hs hu
    obtain rfl : s = u := Option.some.inj hu
    exact hs
  | succ n ih =>
    intro s u hs hu
    obtain ⟨t, ht, htu⟩ := drive_succ hu
    exact ih t u (hstep s t hs ht) htu

/-- **Two driven runs in lockstep**: while the states of the one meet `G` and those of the other
    `H`, related states step to related states, or none of them steps. -/
theorem drive_lockstep {τ ι : Type*} {step' : τ → ι → Option τ} {next : σ → κ} {next' : τ → ι}
    {R : σ → τ → Prop} {G : σ → Prop} {H : τ → Prop}
    (hstep : ∀ s t, R s t → G s → H t → Option.Rel R (step s (next s)) (step' t (next' t))) :
    ∀ (n : Nat) (s : σ) (t : τ), R s t → (∀ m < n, ∀ u, drive step next m s = some u → G u) →
      (∀ m < n, ∀ u, drive step' next' m t = some u → H u) →
      Option.Rel R (drive step next n s) (drive step' next' n t) := by
  intro n
  induction n with
  | zero => exact fun s t h _ _ => .some h
  | succ n ih =>
    intro s t h hG hH
    have hnow := hstep s t h (hG 0 n.succ_pos s rfl) (hH 0 n.succ_pos t rfl)
    have hgoal : ∀ o o', step s (next s) = o → step' t (next' t) = o' → Option.Rel R o o' →
        Option.Rel R (o.bind (drive step next n)) (o'.bind (drive step' next' n)) := by
      intro o o' ho ho' hrel
      cases hrel with
      | none => exact .none
      | some hR =>
        refine ih _ _ hR (fun m hm u hu => hG (m + 1) (Nat.succ_lt_succ hm) u ?_)
          (fun m hm u hu => hH (m + 1) (Nat.succ_lt_succ hm) u ?_)
        · rw [drive, ho]
          exact hu
        · rw [drive, ho']
          exact hu
    exact hgoal _ _ rfl rfl hnow

/-- A long driven run is a short one, continued. -/
theorem drive_add {next : σ → κ} (k n : Nat) : ∀ s : σ,
    drive step next (k + n) s = (drive step next k s).bind (drive step next n) := by
  induction k with
  | zero =>
    intro s
    rw [Nat.zero_add]
    rfl
  | succ k ih =>
    intro s
    rw [Nat.add_right_comm]
    show (step s (next s)).bind _ = ((step s (next s)).bind _).bind _
    cases step s (next s) with
    | none => rfl
    | some t => exact ih t

/-- **Induction over a driven run**, with its last step. -/
theorem drive_induct {next : σ → κ} {s : σ} {P : Nat → σ → Prop} (hzero : P 0 s)
    (hstep : ∀ n t u, drive step next n s = some t → P n t → step t (next t) = some u →
      P (n + 1) u) :
    ∀ (n : Nat) (u : σ), drive step next n s = some u → P n u := by
  intro n
  induction n with
  | zero =>
    intro u hu
    obtain rfl : s = u := Option.some.inj hu
    exact hzero
  | succ n ih =>
    intro u hu
    rw [drive_add] at hu
    obtain ⟨t, ht, hlast⟩ := Option.bind_eq_some_iff.mp hu
    obtain ⟨v, hv, hvu⟩ := drive_succ hlast
    obtain rfl : v = u := Option.some.inj hvu
    exact hstep n t v ht (ih t ht) hv

theorem drive_snoc {next : σ → κ} {k : Nat} {s t u : σ} (h : drive step next k s = some t)
    (hstep : step t (next t) = some u) : drive step next (k + 1) s = some u := by
  rw [drive_add, h]
  show (step t (next t)).bind _ = some u
  rw [hstep]
  rfl

/-- **Forward simulation of driven runs**: if two systems can take their next steps together, and
    are related again with one step less to go, they stay together all the way. -/
theorem drive_sim {τ ι : Type*} {step' : τ → ι → Option τ} {next : σ → κ} {next' : τ → ι}
    {R : Nat → σ → τ → Prop}
    (hstep : ∀ n s s', R (n + 1) s s' →
      ∃ t t', step s (next s) = some t ∧ step' s' (next' s') = some t' ∧ R n t t') :
    ∀ (k n : Nat) (s : σ) (s' : τ), R (n + k) s s' →
      ∃ t t', drive step next k s = some t ∧ drive step' next' k s' = some t' ∧ R n t t' := by
  intro k
  induction k with
  | zero => exact fun n s s' h => ⟨s, s', rfl, rfl, h⟩
  | succ k ih =>
    intro n s s' h
    obtain ⟨t, t', ht, ht', hR⟩ := hstep (n + k) s s' h
    obtain ⟨u, u', hu, hu', hR'⟩ := ih n t t' hR
    exact ⟨u, u', Option.bind_eq_some_iff.mpr ⟨t, ht, hu⟩,
      Option.bind_eq_some_iff.mpr ⟨t', ht', hu'⟩, hR'⟩

end Exec
