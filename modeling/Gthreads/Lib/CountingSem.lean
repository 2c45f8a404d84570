/-
  A counting semaphore with first-in-first-out waiters.

  The semaphore is a count, the list of the clients blocked on it (longest wait first) and the log
  of everything that happened to it (newest first).  A wait takes a permit from the count, or the
  client blocks; a post gives its permit to the first blocked client, or adds it to the count.  A
  client is, at any time, outside the semaphore, blocked, or granted a permit with its wait about
  to return (`phase`, read off the log); every transition says which phase it needs.

  What holds in every reachable state (`Reach`):
  * permits are neither lost nor made up          (`Reach.conserved`);
  * nobody is blocked while permits are left      (`Reach.count_eq_zero`);
  * blocked clients are granted in the order in which they blocked  (`Reach.fifo`);
  * every grant answers one block, and the wait then returns        (`Reach.legal`);
  * every grant is by one post                                      (`Reach.paired`).
-/
import Mathlib

namespace CountingSem

variable {ι : Type*}

/-- What can happen at a semaphore. -/
inductive Event (ι : Type*) where
  | init (n : Nat)
  /-- A wait took a permit from the count. -/
  | take (i : ι)
  | block (i : ι)
  /-- The first blocked client was given the permit of a post. -/
  | grant (i : ι)
  /-- A post succeeded. -/
  | post (i : ι)
  /-- A wait returned with its permit. -/
  | done (i : ι)
  deriving DecidableEq

structure Sem (ι : Type*) where
  count : Nat
  waiting : List ι
  log : List (Event ι)

inductive Phase where
  | idle | blocked | granted
  deriving DecidableEq

/-! ## Reading the log -/

/-- The client an event moves, and the phase it moves it to. -/
def Event.moves : Event ι → Option (ι × Phase)
  | .take i => some (i, .granted)
  | .block i => some (i, .blocked)
  | .grant i => some (i, .granted)
  | .done i => some (i, .idle)
  | .init _ => none
  | .post _ => none

/-- Where the client `i` is after the events of the log. -/
def phase [DecidableEq ι] (i : ι) : List (Event ι) → Phase
  | [] => .idle
  | e :: h => match e.moves with
    | some (j, p) => if j = i then p else phase i h
    | none => phase i h

/-- The number of permits at the start. -/
def initial : List (Event ι) → Nat
  | [] => 0
  | .init n :: h => n + initial h
  | _ :: h => initial h

def posts (h : List (Event ι)) : Nat := h.countP fun e => match e with | .post _ => true | _ => false

/-- The waits that took a permit from the count. -/
def takes (h : List (Event ι)) : Nat := h.countP fun e => match e with | .take _ => true | _ => false

/-- The waits that returned with a permit. -/
def dones (h : List (Event ι)) : Nat := h.countP fun e => match e with | .done _ => true | _ => false

/-- The clients that blocked, the first one first. -/
def blocked (h : List (Event ι)) : List ι :=
  (h.filterMap fun e => match e with | .block i => some i | _ => none).reverse

/-- The clients that were granted the permit of a post, the first one first. -/
def granted (h : List (Event ι)) : List ι :=
  (h.filterMap fun e => match e with | .grant i => some i | _ => none).reverse

@[simp] theorem initial_cons (e : Event ι) (h : List (Event ι)) :
    initial (e :: h) = initial h + (match e with | .init n => n | _ => 0) := by
  cases e with
  | init n => exact Nat.add_comm _ _
  | _ => rfl

@[simp] theorem posts_cons (e : Event ι) (h : List (Event ι)) :
    posts (e :: h) = posts h + (match e with | .post _ => 1 | _ => 0) := by
  cases e <;> simp [posts]

@[simp] theorem takes_cons (e : Event ι) (h : List (Event ι)) :
    takes (e :: h) = takes h + (match e with | .take _ => 1 | _ => 0) := by
  cases e <;> simp [takes]

@[simp] theorem dones_cons (e : Event ι) (h : List (Event ι)) :
    dones (e :: h) = dones h + (match e with | .done _ => 1 | _ => 0) := by
  cases e <;> simp [dones]

@[simp] theorem blocked_cons (e : Event ι) (h : List (Event ι)) :
    blocked (e :: h) = blocked h ++ (match e with | .block i => [i] | _ => []) := by
  cases e with
  | block i => exact List.reverse_cons
  | _ => exact (List.append_nil _).symm

@[simp] theorem granted_cons (e : Event ι) (h : List (Event ι)) :
    granted (e :: h) = granted h ++ (match e with | .grant i => [i] | _ => []) := by
  cases e with
  | grant i => exact List.reverse_cons
  | _ => exact (List.append_nil _).symm

/-- Every client takes, blocks, is granted and returns in turn: it takes or blocks only when it is
    outside, it is granted only when it is blocked, and it returns only with a permit. -/
def Legal [DecidableEq ι] : List (Event ι) → Prop
  | [] => True
  | .take i :: h => phase i h = .idle ∧ Legal h
  | .block i :: h => phase i h = .idle ∧ Legal h
  | .grant i :: h => phase i h = .blocked ∧ Legal h
  | .done i :: h => phase i h = .granted ∧ Legal h
  | .init _ :: h => Legal h
  | .post _ :: h => Legal h

/-- Every grant is the work of a post of its own, which follows it directly. -/
def Paired : List (Event ι) → Prop
  | [] => True
  | .grant _ :: _ => False
  | .post _ :: .grant _ :: h => Paired h
  | _ :: h => Paired h

theorem paired_post {h : List (Event ι)} (hp : Paired h) (p : ι) : Paired (.post p :: h) := by
  cases h with
  | nil => trivial
  | cons e h =>
    cases e with
    | grant i => exact hp.elim
    | _ => exact hp

section
variable [DecidableEq ι]

theorem phase_skip {e : Event ι} (he : e.moves = none) (i : ι) (h : List (Event ι)) :
    phase i (e :: h) = phase i h := by
  rw [phase, he]

theorem phase_move {e : Event ι} {j : ι} {p : Phase} (he : e.moves = some (j, p)) (i : ι)
    (h : List (Event ι)) : phase i (e :: h) = if j = i then p else phase i h := by
  rw [phase, he]

theorem phase_move_of_ne {e : Event ι} {i j : ι} {p : Phase} (he : e.moves = some (j, p))
    (hij : j ≠ i) (h : List (Event ι)) : phase i (e :: h) = phase i h := by
  rw [phase_move he, if_neg hij]

theorem phase_move_self {e : Event ι} {j : ι} {p : Phase} (he : e.moves = some (j, p))
    (h : List (Event ι)) : phase j (e :: h) = p := by
  rw [phase_move he, if_pos rfl]

end

/-! ## Transitions -/

/-- What the semaphore does. -/
inductive Step [DecidableEq ι] (s : Sem ι) : Sem ι → Prop where
  | init (n : Nat) : s.log = [] → Step s ⟨n, [], .init n :: s.log⟩
  | take (i : ι) : s.count ≠ 0 → s.waiting = [] → phase i s.log = .idle →
      Step s ⟨s.count - 1, s.waiting, .done i :: .take i :: s.log⟩
  | block (i : ι) : s.count = 0 → phase i s.log = .idle →
      Step s ⟨s.count, s.waiting ++ [i], .block i :: s.log⟩
  | grant (i p : ι) (q : List ι) : s.waiting = i :: q → phase i s.log = .blocked →
      Step s ⟨s.count, q, .post p :: .grant i :: s.log⟩
  | give (p : ι) : s.waiting = [] → Step s ⟨s.count + 1, s.waiting, .post p :: s.log⟩
  | finish (i : ι) : phase i s.log = .granted →
      Step s ⟨s.count, s.waiting, .done i :: s.log⟩

/-- The states of a semaphore that starts with no permit and nobody in it. -/
def Reach [DecidableEq ι] (s : Sem ι) : Prop := Relation.ReflTransGen Step ⟨0, [], []⟩ s

/-- **Invariants** hold at the start and survive the transitions. -/
theorem Reach.inv [DecidableEq ι] {J : Sem ι → Prop} (h0 : J ⟨0, [], []⟩)
    (hstep : ∀ s t, Step s t → J s → J t) {s : Sem ι} (h : Reach s) : J s := by
  induction h with
  | refl => exact h0
  | tail _ hst ih => exact hstep _ _ hst ih

section
variable [DecidableEq ι] {s : Sem ι}

/-- Nobody is blocked while permits are left. -/
theorem Reach.count_eq_zero (h : Reach s) : s.waiting ≠ [] → s.count = 0 := by
  refine h.inv (J := fun s => s.waiting ≠ [] → s.count = 0) (fun h => absurd rfl h) ?_
  intro s t hst ih hne
  cases hst with
  | init n _ => exact absurd rfl hne
  | take i _ hw _ => exact absurd hw hne
  | block i hc _ => exact hc
  | grant i p q hw _ => exact ih (by rw [hw]; exact List.cons_ne_nil i q)
  | give p hw => exact absurd hw hne
  | finish i _ => exact ih hne

/-- **Permits are neither lost nor made up.** -/
theorem Reach.conserved (h : Reach s) :
    initial s.log + posts s.log = s.count + takes s.log + (granted s.log).length := by
  refine h.inv (J := fun s => initial s.log + posts s.log
    = s.count + takes s.log + (granted s.log).length) rfl ?_
  intro s t hst ih
  cases hst with
  | init n hlog =>
    rw [hlog]
    simp [initial, posts, takes, granted]
  | take i hc _ _ =>
    simp
    omega
  | block i _ _ => simpa using ih
  | grant i p q _ _ =>
    simp
    omega
  | give p _ =>
    simp
    omega
  | finish i _ => simpa using ih

/-- **First in, first out**: those who blocked are those who were granted, and then those who still
    wait, in this order. -/
theorem Reach.fifo (h : Reach s) : blocked s.log = granted s.log ++ s.waiting := by
  refine h.inv (J := fun s => blocked s.log = granted s.log ++ s.waiting) rfl ?_
  intro s t hst ih
  cases hst with
  | init n hlog =>
    rw [hlog]
    rfl
  | take i _ _ _ => simpa using ih
  | block i _ _ => simp [ih]
  | grant i p q hw _ => simp [ih, hw]
  | give p _ => simpa using ih
  | finish i _ => simpa using ih

/-- **Every grant answers one block**, and a client with a permit does not block again before its
    wait has returned. -/
theorem Reach.legal (h : Reach s) : Legal s.log := by
  refine h.inv (J := fun s => Legal s.log) trivial ?_
  intro s t hst ih
  cases hst with
  | init n _ => exact ih
  | take i _ _ hi => exact ⟨phase_move_self rfl s.log, hi, ih⟩
  | block i _ hi => exact ⟨hi, ih⟩
  | grant i p q _ hi => exact ⟨hi, ih⟩
  | give p _ => exact ih
  | finish i hi => exact ⟨hi, ih⟩

/-- **Every grant is by exactly one post.** -/
theorem Reach.paired (h : Reach s) : Paired s.log := by
  refine h.inv (J := fun s => Paired s.log) trivial ?_
  intro s t hst ih
  cases hst with
  | init n _ => exact ih
  | take i _ _ _ => exact ih
  | block i _ _ => exact ih
  | grant i p q _ _ => exact ih
  | give p _ => exact paired_post ih p
  | finish i _ => exact ih

end

end CountingSem
