import Mathlib.Data.List.Basic
import Mathlib.Order.Lattice
import Mathlib.Tactic.Cases

/-!
# What the client shows

The client shows the frames of the newest generation it has shown (`client_display.rs`).
However the frames of several generations interleave, the generation shown never
decreases (`ClientDisplay.generation_mono`), and a frame that would not be displayed
changes nothing (`ClientDisplay.submitFrame_eq_self`).
-/

namespace Sardp

/-- What tells a frame: its generation, and its number in it. -/
structure VideoFrameHeader where
  generation : ℕ
  frameId : ℕ
  deriving DecidableEq

/-- What becomes of a frame. -/
inductive SubmitOutcome
  | displayed
  | discardedStaleGeneration
  deriving DecidableEq

/-- What the client shows, frames being of type `F`. -/
structure ClientDisplay (F : Type*) where
  currentGeneration : Option ℕ
  displayedFrame : Option F
  lastDisplayedFrameId : Option ℕ

namespace ClientDisplay

variable {F : Type*}

/-- Nothing shown yet. -/
def new : ClientDisplay F := ⟨none, none, none⟩

/-- Whether a frame would be shown: its generation is not older than the one shown. -/
def wouldDisplay (d : ClientDisplay F) (header : VideoFrameHeader) : Bool :=
  match d.currentGeneration with
  | some current => header.generation ≥ current
  | none => true

/-- A decoded frame is shown, or discarded. -/
def submitFrame (d : ClientDisplay F) (header : VideoFrameHeader) (decoded : F) :
    SubmitOutcome × ClientDisplay F :=
  if !d.wouldDisplay header then (.discardedStaleGeneration, d)
  else (.displayed, ⟨some header.generation, some decoded, some header.frameId⟩)

/-- What is shown after frames have been submitted one after the other. -/
def submitAll (d : ClientDisplay F) (frames : List (VideoFrameHeader × F)) : ClientDisplay F :=
  frames.foldl (fun d frame => (d.submitFrame frame.1 frame.2).2) d

variable {d : ClientDisplay F}

/-- A frame that would not be displayed is discarded, and what is shown stays. -/
theorem submitFrame_eq_self {header : VideoFrameHeader} {decoded : F}
    (h : d.wouldDisplay header = false) :
    d.submitFrame header decoded = (.discardedStaleGeneration, d) := by
  rw [submitFrame, h]
  rfl

/-- Submitting a frame does not take the client back to an older generation. -/
theorem generation_submitFrame (header : VideoFrameHeader) (decoded : F) {g : ℕ}
    (h : d.currentGeneration = some g) :
    ∃ g' ≥ g, (d.submitFrame header decoded).2.currentGeneration = some g' := by
  rw [submitFrame, wouldDisplay, h]
  dsimp only
  split
  · exact ⟨g, le_rfl, h⟩
  · next hle => exact ⟨header.generation, by simpa using hle, rfl⟩

/-- In whatever order frames of whatever generations are submitted, the generation shown
    never decreases. -/
theorem generation_mono (frames : List (VideoFrameHeader × F)) {g : ℕ}
    (h : d.currentGeneration = some g) :
    ∃ g' ≥ g, (d.submitAll frames).currentGeneration = some g' := by
  induction frames generalizing d g with
  | nil => exact ⟨g, le_rfl, h⟩
  | cons frame frames ih =>
    obtain ⟨g₁, hg₁, h₁⟩ := generation_submitFrame frame.1 frame.2 h
    obtain ⟨g₂, hg₂, h₂⟩ := ih h₁
    exact ⟨g₂, hg₁.trans hg₂, h₂⟩

/-- A frame that would not be displayed will not be later either. -/
theorem wouldDisplay_submitAll {frames : List (VideoFrameHeader × F)} {header : VideoFrameHeader}
    (h : d.wouldDisplay header = false) : (d.submitAll frames).wouldDisplay header = false := by
  rw [wouldDisplay] at h
  split at h
  · next g hg =>
    obtain ⟨g', hg', hcurrent⟩ := generation_mono frames hg
    rw [wouldDisplay, hcurrent]
    exact decide_eq_false fun hle => of_decide_eq_false h (hg'.le.trans hle)
  · cases h

end ClientDisplay

end Sardp
