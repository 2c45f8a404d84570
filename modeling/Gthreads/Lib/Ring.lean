/-
  A ring of cells read as a list.

  A bounded queue kept in an array of `cap` cells is the list of the cells at
  `(head + i) % cap` for `i < count`.  Two offsets below `cap` address the same cell only if they
  are equal (`offset_inj`); everything else about rings follows from that one fact: writing the
  cell behind the last one appends (`read_push`), moving the head forward drops the first element
  (`read_pop`), and closing the gap at offset `i` by moving each later cell one place down erases
  the `i`-th element (`read_eraseIdx`).
-/
import Mathlib

namespace Ring

variable {α : Type*}

/-- The ring's contents, first element first. -/
def read (cells : Nat → α) (cap head count : Nat) : List α :=
  (List.range count).map fun i => cells ((head + i) % cap)

theorem length_read (cells : Nat → α) (cap head count : Nat) :
    (read cells cap head count).length = count := by
  rw [read, List.length_map, List.length_range]

/-- Offsets below the capacity address different cells. -/
theorem offset_inj {cap head i j : Nat} (hi : i < cap) (hj : j < cap)
    (h : (head + i) % cap = (head + j) % cap) : i = j := by
  have hmod : i % cap = j % cap := Nat.ModEq.add_left_cancel' head h
  rwa [Nat.mod_eq_of_lt hi, Nat.mod_eq_of_lt hj] at hmod

/-- The contents depend only on the cells between head and tail. -/
theorem read_congr {cells cells' : Nat → α} {cap head count : Nat}
    (h : ∀ i, i < count → cells' ((head + i) % cap) = cells ((head + i) % cap)) :
    read cells' cap head count = read cells cap head count := by
  apply List.map_congr_left
  intro i hi
  exact h i (List.mem_range.mp hi)

/-- Writing the cell behind the last element appends. -/
theorem read_push (cells : Nat → α) {cap head count : Nat} (hfree : count < cap) (a : α) :
    read (Function.update cells ((head + count) % cap) a) cap head (count + 1)
      = read cells cap head count ++ [a] := by
  have hold : read (Function.update cells ((head + count) % cap) a) cap head count
      = read cells cap head count := by
    apply read_congr
    intro i hi
    apply Function.update_of_ne
    intro heq
    have := offset_inj (Nat.lt_trans hi hfree) hfree heq
    omega
  rw [← hold]
  simp only [read, List.range_succ, List.map_append, List.map_cons, List.map_nil,
    Function.update_self]

/-- Moving the head one cell forward drops the first element. -/
theorem read_pop (cells : Nat → α) (cap head count : Nat) :
    read cells cap head (count + 1)
      = cells (head % cap) :: read cells cap ((head + 1) % cap) count := by
  simp only [read, List.range_succ_eq_map, List.map_cons, List.map_map, Nat.add_zero]
  congr 1
  apply List.map_congr_left
  intro i _
  show cells ((head + (i + 1)) % cap) = cells (((head + 1) % cap + i) % cap)
  rw [Nat.mod_add_mod, show head + (i + 1) = head + 1 + i by omega]

/-- The `i`-th element is the cell at offset `i`. -/
theorem read_getElem? (cells : Nat → α) (cap head : Nat) {count i : Nat} (hi : i < count) :
    (read cells cap head count)[i]? = some (cells ((head + i) % cap)) := by
  rw [read, List.getElem?_map, List.getElem?_range hi]
  rfl

/-- **Closing a gap**: if every cell from offset `i` on takes its successor's value and the cells
    before it stay, the ring one shorter reads as the list without its `i`-th element. -/
theorem read_eraseIdx {cells cells' : Nat → α} {cap head count i : Nat} (hi : i < count)
    (hbefore : ∀ j, j < i → cells' ((head + j) % cap) = cells ((head + j) % cap))
    (hafter : ∀ j, i ≤ j → j + 1 < count →
      cells' ((head + j) % cap) = cells ((head + (j + 1)) % cap)) :
    read cells' cap head (count - 1) = (read cells cap head count).eraseIdx i := by
  apply List.ext_getElem?
  intro k
  by_cases hk : k < count - 1
  · rw [read_getElem? _ _ _ hk]
    by_cases hki : k < i
    · rw [List.getElem?_eraseIdx_of_lt hki, read_getElem? _ _ _ (by omega), hbefore k hki]
    · rw [List.getElem?_eraseIdx_of_ge (by omega), read_getElem? _ _ _ (by omega),
        hafter k (by omega) (by omega)]
  · have hlen : ((read cells cap head count).eraseIdx i).length = count - 1 := by
      rw [List.length_eraseIdx, if_pos (by rw [length_read]; exact hi), length_read]
    rw [List.getElem?_eq_none (by rw [length_read]; omega),
      List.getElem?_eq_none (by rw [hlen]; omega)]

end Ring
