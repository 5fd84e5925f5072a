import Mathlib.Data.Nat.Notation
import Mathlib.Logic.Function.Basic
import Mathlib.Tactic.Cases

/-!
# Formats

A format of values is how they are written, and how they are read back from what has been written,
whatever follows it (`Format`). So what is written tells the value (`Format.readWhole_write`).

Formats are put together from others: one after another (`Format.pair`), behind something that is
always the same (`Format.after`), or with other values instead (`Format.iso`).
-/

/-- A format of values, as far as they fit it: how they are written, and read back. -/
structure Format (β A : Type*) where
  Fits : A → Prop
  write : A → List β
  /-- The value that the symbols begin with, and what follows it. -/
  read : List β → Option (A × List β)
  read_write : ∀ {a}, Fits a → ∀ rest, read (write a ++ rest) = some (a, rest)

namespace Format

variable {β A B : Type*} (f : Format β A) (g : Format β B)

/-- One value, and another after it. -/
def pair : Format β (A × B) where
  Fits x := f.Fits x.1 ∧ g.Fits x.2
  write x := f.write x.1 ++ g.write x.2
  read bs := (f.read bs).bind fun (a, rest) => (g.read rest).map fun (b, rest) => ((a, b), rest)
  read_write := by
    rintro ⟨a, b⟩ ⟨ha, hb⟩ rest
    simp only [List.append_assoc, f.read_write ha, Option.bind_some, g.read_write hb,
      Option.map_some]

/-- A value behind symbols that are always the same. -/
def after [DecidableEq β] (front : List β) : Format β A where
  Fits := f.Fits
  write a := front ++ f.write a
  read bs := if front <+: bs then f.read (bs.drop front.length) else none
  read_write := by
    intro a ha rest
    rw [List.append_assoc, if_pos (List.prefix_append _ _), List.drop_left, f.read_write ha]

/-- Other values, each written as one of the format. -/
def iso (get : A → Option B) (put : B → A) (h : ∀ b, get (put b) = some b) : Format β B where
  Fits b := f.Fits (put b)
  write b := f.write (put b)
  read bs := (f.read bs).bind fun (a, rest) => (get a).map fun b => (b, rest)
  read_write := by
    intro b hb rest
    simp only [f.read_write hb, Option.bind_some, h, Option.map_some]

/-- The same values, each written by a function that agrees with the format. -/
def withWrite (write : A → List β) (h : ∀ a, write a = f.write a) : Format β A :=
  { f with write, read_write := fun {a} ha rest => by rw [h a, f.read_write ha] }

/-- The values that the symbols begin with, so many of them, and what follows them. -/
def readMany : ℕ → List β → Option (List A × List β)
  | 0, bs => some ([], bs)
  | n + 1, bs => (f.read bs).bind fun (a, rest) =>
    (readMany n rest).map fun (values, rest) => (a :: values, rest)

variable {f g}

theorem readMany_flatMap {values : List A} (h : ∀ a ∈ values, f.Fits a) (rest : List β) :
    f.readMany values.length (values.flatMap f.write ++ rest) = some (values, rest) := by
  induction values with
  | nil => rfl
  | cons a values ih =>
    obtain ⟨ha, hvalues⟩ := List.forall_mem_cons.1 h
    rw [List.length_cons, readMany, List.flatMap_cons, List.append_assoc, f.read_write ha]
    simp only [Option.bind_some, ih hvalues, Option.map_some]

@[simp] theorem write_pair (x : A × B) : (f.pair g).write x = f.write x.1 ++ g.write x.2 := rfl

@[simp] theorem write_after [DecidableEq β] (front : List β) (a : A) :
    (f.after front).write a = front ++ f.write a := rfl

@[simp] theorem write_iso {get : A → Option B} {put : B → A} (h : ∀ b, get (put b) = some b)
    (b : B) : (f.iso get put h).write b = f.write (put b) := rfl

@[simp] theorem write_withWrite {write : A → List β} (h : ∀ a, write a = f.write a) :
    (f.withWrite write h).write = write := rfl

/-! ## What is written tells the value -/

variable {a : A}

/-- The value that all of the symbols are. -/
def readWhole (f : Format β A) (bs : List β) : Option A :=
  (f.read bs).bind fun (a, rest) => if rest.isEmpty then some a else none

theorem readWhole_write (ha : f.Fits a) : f.readWhole (f.write a) = some a := by
  have hread := f.read_write ha []
  rw [List.append_nil] at hread
  rw [readWhole, hread]
  rfl

end Format
