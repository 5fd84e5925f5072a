import Mathlib.Data.List.Basic
import Mathlib.Data.Nat.Basic
import Mathlib.Tactic.Cases

/-!
# A queue that mirrors another one

One side submits items to another one, and keeps them in a queue of its own until the other side
reports on them; a report on an item drops everything up to it. The other side works on the items in
the order of their submission, so that its work is a list of items with their numbers.

The queue mirrors the work if every item in it is still part of the work (`Mirror.Covers`). This is
kept by submitting and reporting, and by whatever the other side does of an item except giving it up
silently while it is in the queue (`Mirror.Covers.replicate`).
-/

namespace Mirror

variable {α : Type*}

/-- What is queued are the last items of those submitted, and part of the work, which is in
    order. -/
structure Covers (queue : List α) (submitted : ℕ) (work : List (α × ℕ)) : Prop where
  length_le : queue.length ≤ submitted
  covered {i : ℕ} {a : α} : queue[i]? = some a → (a, submitted - queue.length + i) ∈ work
  sorted : work.Pairwise fun x y => x.2 ≤ y.2
  below : ∀ x ∈ work, x.2 < submitted

variable {queue : List α} {submitted : ℕ} {work front rest : List (α × ℕ)} {x : α × ℕ}

theorem covers_nil : Covers ([] : List α) 0 [] :=
  ⟨le_rfl, nofun, .nil, nofun⟩

/-- The oldest item of the queue is part of the work. -/
theorem Covers.head (h : Covers queue submitted work) {a : α} (ha : queue.head? = some a) :
    (a, submitted - queue.length) ∈ work :=
  h.covered (i := 0) (List.head?_eq_getElem?.symm.trans ha)

/-- Without work, nothing is queued. -/
theorem Covers.eq_nil (h : Covers queue submitted []) : queue = [] := by
  cases hhead : queue.head? with
  | none => exact List.head?_eq_none_iff.1 hhead
  | some a => cases h.head hhead

/-- An item is submitted. -/
theorem Covers.submit (h : Covers queue submitted work) (a : α) :
    Covers (queue ++ [a]) (submitted + 1) (work ++ [(a, submitted)]) := by
  have hle := h.length_le
  refine ⟨?_, fun {i a'} ha' => ?_, ?_, fun x hx => ?_⟩
  · rw [List.length_append, List.length_singleton]
    omega
  · have hnumber : submitted + 1 - (queue ++ [a]).length = submitted - queue.length := by
      rw [List.length_append, List.length_singleton]
      omega
    rw [hnumber]
    rcases Nat.lt_trichotomy i queue.length with hi | rfl | hi
    · rw [List.getElem?_append_left hi] at ha'
      exact List.mem_append_left _ (h.covered ha')
    · rw [List.getElem?_concat_length] at ha'
      cases ha'
      rw [Nat.sub_add_cancel hle]
      exact List.mem_append_right _ List.mem_cons_self
    · rw [List.getElem?_eq_none (by simpa [Nat.succ_le_iff] using hi)] at ha'
      cases ha'
  · refine List.pairwise_append.2 ⟨h.sorted, List.pairwise_singleton .., fun x hx y hy => ?_⟩
    rw [List.mem_singleton.1 hy]
    exact Nat.le_of_lt (h.below x hx)
  · rcases List.mem_append.1 hx with hx | hx
    · exact Nat.lt_succ_of_lt (h.below x hx)
    · rw [List.mem_singleton.1 hx]
      exact Nat.lt_succ_self _

/-- The queue after a report on an item: what is up to the item is dropped, if it is queued. -/
def reported [DecidableEq α] (queue : List α) (a : α) : List α :=
  match queue.findIdx? fun a' => a' = a with
  | some position => queue.drop (position + 1)
  | none => queue

/-- What is first in the work is done, and reported. -/
theorem Covers.report [DecidableEq α] (h : Covers queue submitted (x :: work)) :
    Covers (reported queue x.1) submitted work := by
  have hle := h.length_le
  obtain ⟨hfirst, hsorted⟩ := List.pairwise_cons.1 h.sorted
  have hbelow : ∀ y ∈ work, y.2 < submitted := fun y hy => h.below y (List.mem_cons_of_mem x hy)
  cases hposition : queue.findIdx? fun a => a = x.1 with
  | none =>
    simp only [reported, hposition]
    refine ⟨hle, fun {i a} ha => (List.mem_cons.1 (h.covered ha)).resolve_left fun heq => ?_,
      hsorted, hbelow⟩
    -- the item reported would be queued
    have hne := List.findIdx?_eq_none_iff.1 hposition a (List.mem_of_getElem? ha)
    simp [← heq] at hne
  | some position =>
    have hlt : position < queue.length := (List.findIdx?_eq_some_iff_getElem.1 hposition).1
    simp only [reported, hposition]
    refine ⟨by rw [List.length_drop]; omega, fun {i a} ha => ?_, hsorted, hbelow⟩
    rw [List.getElem?_drop] at ha
    have hnumber : submitted - (queue.drop (position + 1)).length + i =
        submitted - queue.length + (position + 1 + i) := by
      rw [List.length_drop]
      omega
    rw [hnumber]
    refine (List.mem_cons.1 (h.covered ha)).resolve_left fun heq => ?_
    -- what is done first is not after the oldest item of the queue
    have hmin : x.2 ≤ submitted - queue.length := by
      obtain ⟨oldest, holdest⟩ : ∃ oldest, queue.head? = some oldest :=
        Option.ne_none_iff_exists'.1 fun hnone => by
          rw [List.head?_eq_none_iff.1 hnone] at hlt
          cases hlt
      rcases List.mem_cons.1 (h.head holdest) with heq' | hmem
      · rw [← heq']
      · exact hfirst _ hmem
    rw [← heq] at hmin
    dsimp only at hmin
    omega

/-- An item of the work is replaced by as many of it, but by none only if it is not queued. -/
theorem Covers.replicate (h : Covers queue submitted (front ++ x :: rest)) {n : ℕ}
    (hn : n ≠ 0 ∨ x.2 < submitted - queue.length) :
    Covers queue submitted (front ++ (List.replicate n x ++ rest)) := by
  obtain ⟨hfront, hrest, hacross⟩ := List.pairwise_append.1 h.sorted
  obtain ⟨hx, hrest⟩ := List.pairwise_cons.1 hrest
  refine ⟨h.length_le, fun {i a} ha => ?_, ?_, fun y hy => ?_⟩
  · rcases List.mem_append.1 (h.covered ha) with hmem | hmem
    · exact List.mem_append_left _ hmem
    · refine List.mem_append_right _ ?_
      rcases List.mem_cons.1 hmem with heq | hmem
      · refine List.mem_append_left _ (List.mem_replicate.2 ⟨hn.resolve_right ?_, heq⟩)
        rw [← heq]
        dsimp only
        omega
      · exact List.mem_append_right _ hmem
  · refine List.pairwise_append.2 ⟨hfront, List.pairwise_append.2
      ⟨List.pairwise_replicate.2 (.inr le_rfl), hrest, ?_⟩, ?_⟩
    · intro y hy z hz
      rw [List.eq_of_mem_replicate hy]
      exact hx z hz
    · intro y hy z hz
      rcases List.mem_append.1 hz with hz | hz
      · rw [List.eq_of_mem_replicate hz]
        exact hacross y hy x List.mem_cons_self
      · exact hacross y hy z (List.mem_cons_of_mem x hz)
  · refine h.below y ?_
    rcases List.mem_append.1 hy with hy | hy
    · exact List.mem_append_left _ hy
    · refine List.mem_append_right _ ?_
      rcases List.mem_append.1 hy with hy | hy
      · rw [List.eq_of_mem_replicate hy]
        exact List.mem_cons_self
      · exact List.mem_cons_of_mem x hy

end Mirror
