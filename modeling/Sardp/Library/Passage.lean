import Mathlib.Data.List.Chain

/-!
# Passages that drop what finds no room

Items go through a passage in order: they are offered, wait in it, and leave it
(`Passage`). One that finds no room when it is offered is dropped, and the passage goes on with
the next one.

If every item offered is related to the one offered before it, the items that leave are so
related, too, as long as none is dropped. A passage that has dropped an item keeps the relation
all the same if the next one it lets through is related to whatever comes before it
(`Passage.Chained.offer`).
-/

/-- A passage, with the items waiting in it. It also remembers the last item that has left it
    and the last one it was offered. -/
structure Passage (A : Type*) where
  /-- How many items may wait; `none` if there is no bound. -/
  capacity : Option ℕ
  waiting : List A
  left : Option A
  offered : Option A

namespace Passage

variable {A : Type*}

/-- A passage nothing has been offered to. -/
def new (capacity : Option ℕ) : Passage A := ⟨capacity, [], none, none⟩

/-- One more item may wait. -/
def hasRoom (p : Passage A) : Bool := p.capacity.all fun capacity => p.waiting.length < capacity

/-- Offering an item, which is dropped if there is no room. -/
def offer (p : Passage A) (x : A) : Passage A :=
  { p with
    waiting := if p.hasRoom then p.waiting ++ [x] else p.waiting
    offered := some x }

/-- The first item leaves. -/
def take (p : Passage A) : Option (A × Passage A) :=
  match p.waiting with
  | [] => none
  | x :: waiting => some (x, { p with waiting, left := some x })

/-- The last item the passage has let through. -/
def admitted (p : Passage A) : Option A := (p.left.toList ++ p.waiting).getLast?

/-- The last item the passage was offered has been dropped. -/
def Dropping (p : Passage A) : Prop := p.offered ≠ p.admitted

instance [DecidableEq A] (p : Passage A) : Decidable p.Dropping :=
  inferInstanceAs (Decidable (p.offered ≠ p.admitted))

variable {p p' : Passage A} {x : A} {R : A → A → Prop}

theorem take_eq_some : p.take = some (x, p') ↔
    ∃ waiting, p.waiting = x :: waiting ∧ p' = { p with waiting, left := some x } := by
  rw [take]
  constructor
  · intro h
    split at h
    · cases h
    · next hwaiting =>
      cases h
      exact ⟨_, hwaiting, rfl⟩
  · rintro ⟨waiting, hwaiting, rfl⟩
    rw [hwaiting]

/-- Every item let through is related to the one let through before it. -/
def Chained (R : A → A → Prop) (p : Passage A) : Prop :=
  (p.left.toList ++ p.waiting).IsChain R

theorem chained_new (capacity : Option ℕ) : (new capacity : Passage A).Chained R := .nil

/-- A passage stays chained if the item offered is related to the one offered before it, and,
    when that one has been dropped and there is room again, to whatever comes before. -/
theorem Chained.offer (h : p.Chained R) (hoffered : ∀ y ∈ p.offered, R y x)
    (hdropping : p.hasRoom → p.Dropping → ∀ y, R y x) : (p.offer x).Chained R := by
  by_cases hroom : p.hasRoom
  · rw [Chained, Passage.offer, if_pos hroom, ← List.append_assoc]
    refine List.IsChain.append h (.singleton x) fun y hy z hz => ?_
    cases Option.mem_some_iff.1 hz
    -- what comes before `x` is the item offered before it, unless that has been dropped
    by_cases hdropped : p.Dropping
    · exact hdropping hroom hdropped y
    · exact hoffered y ((not_not.1 hdropped).symm ▸ hy)
  · rwa [Chained, Passage.offer, if_neg hroom]

/-- The item that leaves is related to the one that left before it. -/
theorem Chained.take (h : p.Chained R) (htake : p.take = some (x, p')) :
    p'.Chained R ∧ ∀ y ∈ p.left, R y x := by
  obtain ⟨waiting, hwaiting, rfl⟩ := take_eq_some.1 htake
  rw [Chained, hwaiting] at h
  obtain ⟨-, hrest, hlink⟩ := List.isChain_append.1 h
  refine ⟨hrest, fun y hy => hlink y ?_ x rfl⟩
  rw [Option.mem_def.1 hy]
  rfl

end Passage
