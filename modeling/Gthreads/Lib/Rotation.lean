/-
  Searches in a circle.

  `n` places stand in a circle.  A search that starts behind place `a` looks at `a + 1`, `a + 2`,
  ... and stops at the first place that qualifies; the next search starts behind that one.  `gap`
  counts the places passed over on the way from `a` to `b`.

  THE RULE (`fair`).  Suppose that place `j` qualifies at every search until it is found.  Then each
  search ends at `j` or strictly closer to it, so `j` is found by the `n`-th search, and no place is
  found twice before.
-/
import Mathlib

namespace Rotation

variable {n a b j : Nat}

/-- The places between `a` and `b`, on the way from `a` round to `b`. -/
def gap (n a b : Nat) : Nat := (b + (n - 1 - a)) % n

theorem gap_lt (hn : 0 < n) : gap n a b < n := Nat.mod_lt _ hn

theorem gap_ahead (h : a < b) (hb : b < n) : gap n a b = b - a - 1 := by
  unfold gap
  have hsum : b + (n - 1 - a) = (b - a - 1) + n := by omega
  rw [hsum, Nat.add_mod_right, Nat.mod_eq_of_lt (by omega)]

theorem gap_behind (h : b ≤ a) (ha : a < n) : gap n a b = b + (n - 1 - a) := by
  unfold gap
  exact Nat.mod_eq_of_lt (by omega)

/-- The place behind `gap n a b` others is `b`. -/
theorem add_gap (ha : a < n) (hb : b < n) : (a + 1 + gap n a b) % n = b := by
  rcases Nat.lt_or_ge a b with h | h
  · rw [gap_ahead h hb, Nat.mod_eq_of_lt (by omega)]
    omega
  · have hsum : a + 1 + (b + (n - 1 - a)) = b + n := by omega
    rw [gap_behind h ha, hsum, Nat.add_mod_right, Nat.mod_eq_of_lt hb]

theorem gap_add (ha : a < n) {d : Nat} (hd : d < n) : gap n a ((a + 1 + d) % n) = d := by
  rcases Nat.lt_or_ge (a + 1 + d) n with h | h
  · rw [Nat.mod_eq_of_lt h, gap_ahead (by omega) h]
    omega
  · have hmod : (a + 1 + d) % n = a + 1 + d - n := by
      rw [Nat.mod_eq_sub_mod h, Nat.mod_eq_of_lt (by omega)]
    rw [hmod, gap_behind (by omega) ha]
    omega

/-- A place that is found before `j` is closer to `j`. -/
theorem gap_closer (ha : a < n) (hb : b < n) (hj : j < n) (hne : b ≠ j)
    (h : gap n a b ≤ gap n a j) : gap n b j < gap n a j := by
  rcases Nat.lt_or_ge a b with hab | hab <;> rcases Nat.lt_or_ge a j with haj | haj
  · rw [gap_ahead hab hb, gap_ahead haj hj] at h
    rw [gap_ahead haj hj, gap_ahead (by omega) hj]
    omega
  · rw [gap_behind haj ha, gap_behind (by omega) hb]
    omega
  · rw [gap_behind hab ha, gap_ahead haj hj] at h
    omega
  · rw [gap_behind hab ha, gap_behind haj ha] at h
    rw [gap_behind haj ha, gap_ahead (by omega) hj]
    omega

/-- **No place starves.**  `pos k` is where search number `k` starts and `pos (k + 1)` where it
    ends. -/
theorem fair {pos : Nat → Nat} (hpos : pos 0 < n) (hj : j < n)
    (hstep : ∀ k, (∀ m < k, pos (m + 1) ≠ j) →
      pos (k + 1) < n ∧ gap n (pos k) (pos (k + 1)) ≤ gap n (pos k) j) :
    ∃ k < n, pos (k + 1) = j ∧ (∀ m < k, pos (m + 1) ≠ j) ∧
      ∀ m m', m < m' → m' < k → pos (m + 1) ≠ pos (m' + 1) := by
  have hbound : ∀ k, (∀ m < k, pos (m + 1) ≠ j) → pos k < n := by
    intro k hk
    cases k with
    | zero => exact hpos
    | succ k => exact (hstep k fun m hm => hk m (by omega)).1
  -- each search gets closer to `j`
  have hcloser : ∀ d k, (∀ m < k + d, pos (m + 1) ≠ j) →
      gap n (pos (k + d)) j + d ≤ gap n (pos k) j := by
    intro d
    induction d with
    | zero => exact fun k _ => Nat.le_refl _
    | succ d ih =>
      intro k hk
      have hprev := ih k fun m hm => hk m (by omega)
      have hk' : ∀ m < k + d, pos (m + 1) ≠ j := fun m hm => hk m (by omega)
      obtain ⟨hlt, hle⟩ := hstep (k + d) hk'
      have := gap_closer (hbound _ hk') hlt hj (hk (k + d) (by omega)) hle
      rw [show k + (d + 1) = k + d + 1 by omega]
      omega
  have hfound : ∃ k, pos (k + 1) = j := by
    by_contra hnone
    have hnone' : ∀ m, pos (m + 1) ≠ j := fun m hm => hnone ⟨m, hm⟩
    have hn := hcloser n 0 fun m _ => hnone' m
    have hlt := @gap_lt n (pos 0) j (by omega)
    omega
  classical
  obtain ⟨k, hk, hfirst⟩ : ∃ k, pos (k + 1) = j ∧ ∀ m < k, pos (m + 1) ≠ j :=
    ⟨Nat.find hfound, Nat.find_spec hfound, fun m hm => Nat.find_min hfound hm⟩
  refine ⟨k, ?_, hk, hfirst, fun m m' hm hm' heq => ?_⟩
  · have hn := hcloser k 0 fun m hm => hfirst m (by omega)
    have hlt := @gap_lt n (pos 0) j (by omega)
    omega
  · obtain ⟨d, rfl⟩ : ∃ d, m' = m + (d + 1) := ⟨m' - m - 1, by omega⟩
    have hd := hcloser (d + 1) (m + 1) fun i hi => hfirst i (by omega)
    rw [show m + 1 + (d + 1) = m + (d + 1) + 1 by omega, ← heq] at hd
    omega

end Rotation
