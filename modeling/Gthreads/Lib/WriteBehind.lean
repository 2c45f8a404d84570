/-
  A write-behind log: records collect in a bounded buffer and go to the disk in batches.

  A write may stop short.  The disk then has the first elements of the batch, and the buffer keeps
  the whole batch for another try.  A record that arrives while the buffer is full and the batch
  cannot be written is dropped.

  * `Intact l rs`  — disk and buffer together hold exactly the records `rs`;
  * `Sound l rs`   — the disk holds a prefix of them.

  Complete writes keep a log intact (`Intact.flush`, `Intact.append`), and so does a write that is
  refused as a whole (`Intact.flush_refused`).  One short write of an intact log still leaves it
  sound (`Intact.flush_sound`, `Intact.append_sound`), but no longer intact; and a log that is not
  intact stays sound as long as nothing more is written (`disk_flush_refused`, `disk_append`).
-/
import Mathlib

namespace WriteBehind

variable {β : Type*}

/-- What is on the disk, and the records that wait in the buffer. -/
structure Log (β : Type*) where
  disk : List β
  buffer : List (List β)

namespace Log

/-- Write the buffer; the disk accepts the first `k` elements. -/
def flush (l : Log β) (k : Nat) : Log β :=
  { disk := l.disk ++ l.buffer.flatten.take k
    buffer := if l.buffer.flatten.length ≤ k then [] else l.buffer }

/-- Add a record, and when the buffer of `cap` records is full, write the buffer first. -/
def append (cap : Nat) (l : Log β) (r : List β) (k : Nat) : Log β :=
  if l.buffer.length < cap then { l with buffer := l.buffer ++ [r] }
  else if (l.flush k).buffer.length < cap then
    { l.flush k with buffer := (l.flush k).buffer ++ [r] }
  else l.flush k

/-- Nothing is lost, nothing is repeated. -/
def Intact (l : Log β) (rs : List (List β)) : Prop := l.disk ++ l.buffer.flatten = rs.flatten

/-- What is on the disk is as it should be, as far as it goes. -/
def Sound (l : Log β) (rs : List (List β)) : Prop := l.disk <+: rs.flatten

variable {l : Log β} {rs : List (List β)} {r : List β} {k cap : Nat}

theorem flush_all (h : l.buffer.flatten.length ≤ k) :
    l.flush k = ⟨l.disk ++ l.buffer.flatten, []⟩ := by
  unfold flush
  rw [List.take_of_length_le h, if_pos h]

theorem Intact.sound (h : Intact l rs) : Sound l rs := ⟨l.buffer.flatten, h⟩

theorem Sound.mono (h : Sound l rs) (rs' : List (List β)) : Sound l (rs ++ rs') := by
  unfold Sound
  rw [List.flatten_append]
  exact h.trans (List.prefix_append _ _)

theorem Intact.push (h : Intact l rs) (r : List β) :
    Intact { l with buffer := l.buffer ++ [r] } (rs ++ [r]) := by
  show l.disk ++ (l.buffer ++ [r]).flatten = (rs ++ [r]).flatten
  rw [List.flatten_append, List.flatten_append, ← List.append_assoc, h]

/-- A complete write keeps the log intact. -/
theorem Intact.flush (h : Intact l rs) (hk : l.buffer.flatten.length ≤ k) :
    Intact (l.flush k) rs := by
  rw [flush_all hk]
  show (l.disk ++ l.buffer.flatten) ++ [] = _
  rw [List.append_nil]
  exact h

theorem disk_flush_refused (l : Log β) : (l.flush 0).disk = l.disk := List.append_nil _

/-- A write that is refused keeps the log intact: the buffer waits for another try. -/
theorem Intact.flush_refused (h : Intact l rs) : Intact (l.flush 0) rs := by
  by_cases hempty : l.buffer.flatten.length ≤ 0
  · exact h.flush hempty
  · have hbuffer : (l.flush 0).buffer = l.buffer := if_neg hempty
    rw [Intact, disk_flush_refused, hbuffer]
    exact h

/-- Any write of an intact log leaves the disk sound. -/
theorem Intact.flush_sound (h : Intact l rs) (k : Nat) : Sound (l.flush k) rs := by
  have hk : l.disk ++ l.buffer.flatten.take k <+: l.disk ++ l.buffer.flatten :=
    (List.prefix_append_right_inj _).mpr (List.take_prefix _ _)
  rw [Intact] at h
  rwa [h] at hk

/-- Adding a record keeps the log intact if a full buffer can be written. -/
theorem Intact.append (h : Intact l rs) (hcap : 0 < cap)
    (hk : cap ≤ l.buffer.length → l.buffer.flatten.length ≤ k) :
    Intact (l.append cap r k) (rs ++ [r]) := by
  unfold Log.append
  split
  · exact h.push r
  · rename_i hfull
    have hk := hk (Nat.not_lt.mp hfull)
    rw [if_pos (by rw [flush_all hk]; exact hcap)]
    exact (h.flush hk).push r

/-- Adding a record writes nothing if a full buffer is refused. -/
theorem disk_append (hk : cap ≤ l.buffer.length → k = 0) : (l.append cap r k).disk = l.disk := by
  unfold Log.append
  split
  · rfl
  · rename_i hfull
    obtain rfl := hk (Nat.not_lt.mp hfull)
    split
    · exact disk_flush_refused l
    · exact disk_flush_refused l

/-- Adding a record to an intact log leaves the disk sound, however much is written. -/
theorem Intact.append_sound (h : Intact l rs) : Sound (l.append cap r k) (rs ++ [r]) := by
  unfold Log.append
  split
  · exact (h.push r).sound
  · split
    · exact (h.flush_sound k).mono [r]
    · exact (h.flush_sound k).mono [r]

end Log
end WriteBehind
