import Mathlib.Data.List.Basic
import Mathlib.Order.Lattice

/-!
# Sets in order

A finite set of a linear order, as the list of its members from the least one on
(`OrderedSet`). A member is inserted at its place and erased from it; the members are then
what one expects (`OrderedSet.mem_insert`, `OrderedSet.mem_erase`).
-/

/-- A finite set, as its members in order. -/
@[ext] structure OrderedSet (α : Type*) [LinearOrder α] where
  toList : List α
  sorted : toList.Pairwise (· < ·)
  deriving DecidableEq

namespace OrderedSet

variable {α : Type*} [LinearOrder α] {s : OrderedSet α} {a b : α}

def empty : OrderedSet α := ⟨[], .nil⟩

/-- The set with a member, which it may have already. -/
def insert (s : OrderedSet α) (a : α) : OrderedSet α where
  toList := s.toList.filter (· < a) ++ a :: s.toList.filter (a < ·)
  sorted := by
    refine List.pairwise_append.2
      ⟨s.sorted.filter _, List.pairwise_cons.2 ⟨?_, s.sorted.filter _⟩, ?_⟩
    · intro b hb
      simpa using (List.mem_filter.1 hb).2
    · intro b hb c hc
      have hba : b < a := by simpa using (List.mem_filter.1 hb).2
      rcases List.mem_cons.1 hc with rfl | hc
      · exact hba
      · have hac : a < c := by simpa using (List.mem_filter.1 hc).2
        exact lt_trans hba hac

/-- The set without a member, which it may not have. -/
def erase (s : OrderedSet α) (a : α) : OrderedSet α where
  toList := s.toList.filter (· ≠ a)
  sorted := s.sorted.filter _

instance : Membership α (OrderedSet α) := ⟨fun s a => a ∈ s.toList⟩

@[simp] theorem mem_toList : a ∈ s.toList ↔ a ∈ s := Iff.rfl

instance (a : α) (s : OrderedSet α) : Decidable (a ∈ s) :=
  inferInstanceAs (Decidable (a ∈ s.toList))

theorem nodup (s : OrderedSet α) : s.toList.Nodup := s.sorted.imp ne_of_lt

@[simp] theorem not_mem_empty : a ∉ (empty : OrderedSet α) := List.not_mem_nil

@[simp] theorem mem_insert : b ∈ s.insert a ↔ b = a ∨ b ∈ s := by
  have h : b ∈ s.insert a ↔ (b ∈ s ∧ b < a) ∨ b = a ∨ (b ∈ s ∧ a < b) := by
    simp [← mem_toList, insert]
  rw [h]
  constructor
  · rintro (⟨hb, -⟩ | hb | ⟨hb, -⟩)
    · exact .inr hb
    · exact .inl hb
    · exact .inr hb
  · rintro (hb | hb)
    · exact .inr (.inl hb)
    · rcases lt_trichotomy b a with hlt | heq | hgt
      · exact .inl ⟨hb, hlt⟩
      · exact .inr (.inl heq)
      · exact .inr (.inr ⟨hb, hgt⟩)

@[simp] theorem mem_erase : b ∈ s.erase a ↔ b ≠ a ∧ b ∈ s := by
  simp [← mem_toList, erase, and_comm]

end OrderedSet
