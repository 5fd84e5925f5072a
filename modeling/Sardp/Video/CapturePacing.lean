import Sardp.Library.Pacing

/-!
# The pace of the capture on Windows

The loop that captures the desktop on Windows (`run_worker` in `desktop_h264.rs` of `sardp-win`) is
handed more frames than there are images: some only move the pointer. It encodes an image unless it
comes too early for the refresh rate of the display, so that it does not encode more than the rate
that has been negotiated.

What it encodes is what a schedule takes that is due once a refresh (`CaptureLoop.encoded_eq_taken`).
The times are those the loop acquires the frames at, and an image may come a millisecond early
(`CAPTURE_SLACK_NS`). So of the images acquired in any stretch of time it encodes, but for two, no
more than there are refreshes in that time and a millisecond more; and an image acquired a refresh
after the last one encoded, or later, is encoded (`CaptureLoop.capture_paced`).
-/

namespace Sardp

/-- Counters of the loop. -/
structure CaptureStats where
  acquired : ℕ
  encoded : ℕ
  pointerOnly : ℕ
  pacedOut : ℕ

/-- The loop, with the time of the next refresh, in nanoseconds. -/
structure CaptureLoop where
  stats : CaptureStats
  nextDue : Option ℕ

/-- What the loop does with a frame it has acquired. -/
inductive Capture
  | pointerOnly
  | pacedOut
  | encoded
  deriving DecidableEq

/-- What the wait for a frame comes to: none in time, or one with the time its image was last
    presented at, if it has one, at this moment. -/
inductive Acquired
  | timeout
  | frame (lastPresentTime : ℤ) (now : ℕ)

/-- How much earlier than due is not too early: a millisecond. -/
def CAPTURE_SLACK_NS : ℕ := 1000000

namespace CaptureLoop

def start : CaptureLoop := ⟨⟨0, 0, 0, 0⟩, none⟩

variable (minInterval : ℕ)

/-- The next refresh after an image is encoded: it stays with those of the display, unless they have
    been left well behind. -/
def dueAfter (s : CaptureLoop) (now : ℕ) : ℕ :=
  match s.nextDue with
  | some due => if now < due + minInterval then due + minInterval else now + minInterval
  | none => now + minInterval

/-- The image comes too early. -/
def TooEarly (s : CaptureLoop) (now : ℕ) : Prop := ∃ due ∈ s.nextDue, now + CAPTURE_SLACK_NS < due

instance (s : CaptureLoop) (now : ℕ) : Decidable (s.TooEarly now) :=
  inferInstanceAs (Decidable (∃ due ∈ s.nextDue, now + CAPTURE_SLACK_NS < due))

/-- What becomes of a frame. -/
def onFrame (s : CaptureLoop) (lastPresentTime : ℤ) (now : ℕ) : Capture × CaptureLoop :=
  if lastPresentTime = 0 then
    (.pointerOnly, { s with stats := { s.stats with
      acquired := s.stats.acquired + 1, pointerOnly := s.stats.pointerOnly + 1 } })
  else if s.TooEarly now then
    (.pacedOut, { s with stats := { s.stats with
      acquired := s.stats.acquired + 1, pacedOut := s.stats.pacedOut + 1 } })
  else
    (.encoded, {
      stats := { s.stats with
        acquired := s.stats.acquired + 1, encoded := s.stats.encoded + 1 }
      nextDue := some (s.dueAfter minInterval now) })

/-- A turn of the loop. -/
def turn (s : CaptureLoop) : Acquired → CaptureLoop
  | .timeout => s
  | .frame lastPresentTime now => (s.onFrame minInterval lastPresentTime now).2

/-- The times at which the images that are encoded in some turns have been acquired. -/
def encodedAt : CaptureLoop → List Acquired → List ℕ
  | _, [] => []
  | s, .timeout :: turns => encodedAt s turns
  | s, .frame lastPresentTime now :: turns =>
    (if (s.onFrame minInterval lastPresentTime now).1 = .encoded then [now] else []) ++
      encodedAt (s.onFrame minInterval lastPresentTime now).2 turns

/-- The loop after some turns. -/
def after (s : CaptureLoop) (turns : List Acquired) : CaptureLoop := turns.foldl (turn minInterval) s

/-! ## The schedule -/

/-- The pace of the display. -/
def pace : Pace := ⟨minInterval, CAPTURE_SLACK_NS⟩

/-- The times of the images among the frames. -/
def images (turns : List Acquired) : List ℕ :=
  turns.filterMap fun
    | .timeout => none
    | .frame lastPresentTime now => if lastPresentTime = 0 then none else some now

variable {minInterval : ℕ} {s : CaptureLoop}

theorem after_cons (acquired : Acquired) (turns : List Acquired) :
    s.after minInterval (acquired :: turns) =
      (s.turn minInterval acquired).after minInterval turns := rfl

theorem dueAfter_eq (s : CaptureLoop) (now : ℕ) :
    s.dueAfter minInterval now = (pace minInterval).next s.nextDue now := rfl

/-- A frame without an image is let pass, and so is an image that comes too early. -/
theorem onFrame_cases (minInterval : ℕ) (s : CaptureLoop) (lastPresentTime : ℤ) (now : ℕ) :
    (∃ stats, (s.onFrame minInterval lastPresentTime now) = (.pointerOnly, ⟨stats, s.nextDue⟩) ∧
      lastPresentTime = 0) ∨
    (∃ stats, (s.onFrame minInterval lastPresentTime now) = (.pacedOut, ⟨stats, s.nextDue⟩) ∧
      lastPresentTime ≠ 0 ∧ (pace minInterval).Early s.nextDue now) ∨
    ∃ stats, (s.onFrame minInterval lastPresentTime now) =
        (.encoded, ⟨stats, some ((pace minInterval).next s.nextDue now)⟩) ∧
      lastPresentTime ≠ 0 ∧ ¬(pace minInterval).Early s.nextDue now := by
  by_cases himage : lastPresentTime = 0
  · exact .inl ⟨_, by rw [onFrame, if_pos himage], himage⟩
  · by_cases hearly : s.TooEarly now
    · exact .inr (.inl ⟨_, by rw [onFrame, if_neg himage, if_pos hearly], himage, hearly⟩)
    · exact .inr (.inr ⟨_, by rw [onFrame, if_neg himage, if_neg hearly, dueAfter_eq],
        himage, hearly⟩)

/-- What is encoded is what the schedule takes, which the loop keeps. -/
theorem encoded_eq_taken (s : CaptureLoop) (turns : List Acquired) :
    s.encodedAt minInterval turns = (pace minInterval).taken s.nextDue (images turns) ∧
      (s.after minInterval turns).nextDue =
        (pace minInterval).dueAfter s.nextDue (images turns) := by
  induction turns generalizing s with
  | nil => exact ⟨rfl, rfl⟩
  | cons acquired turns ih =>
    rw [after_cons]
    cases acquired with
    | timeout => exact ih s
    | frame lastPresentTime now =>
      obtain ⟨stats, hframe, himage⟩ | ⟨stats, hframe, himage, hearly⟩ |
        ⟨stats, hframe, himage, hearly⟩ := onFrame_cases minInterval s lastPresentTime now
      · have htimes : images (.frame lastPresentTime now :: turns) = images turns := by
          simp [images, himage]
        rw [encodedAt, turn, hframe, htimes]
        exact ih ⟨stats, s.nextDue⟩
      · have htimes : images (.frame lastPresentTime now :: turns) = now :: images turns := by
          simp [images, himage]
        rw [encodedAt, turn, hframe, htimes, Pace.taken, Pace.dueAfter, if_pos hearly, if_pos hearly]
        exact ih ⟨stats, s.nextDue⟩
      · have htimes : images (.frame lastPresentTime now :: turns) = now :: images turns := by
          simp [images, himage]
        rw [encodedAt, turn, hframe, htimes, Pace.taken, Pace.dueAfter, if_neg hearly, if_neg hearly]
        obtain ⟨hencoded, hdue⟩ := ih ⟨stats, some ((pace minInterval).next s.nextDue now)⟩
        exact ⟨by rw [if_pos rfl, hencoded]; rfl, hdue⟩

/-! ## The counters -/

/-- A frame is counted once for itself, and once for what becomes of it. -/
theorem counted (minInterval : ℕ) (s : CaptureLoop) (lastPresentTime : ℤ) (now : ℕ) :
    let stats := (s.onFrame minInterval lastPresentTime now).2.stats
    stats.acquired = s.stats.acquired + 1 ∧
      stats.encoded + stats.pointerOnly + stats.pacedOut =
        s.stats.encoded + s.stats.pointerOnly + s.stats.pacedOut + 1 ∧
      stats.encoded = s.stats.encoded +
        (if (s.onFrame minInterval lastPresentTime now).1 = .encoded then [now] else []).length := by
  by_cases himage : lastPresentTime = 0
  · simp only [onFrame, if_pos himage]
    exact ⟨trivial, by omega, rfl⟩
  · by_cases hearly : s.TooEarly now
    · simp only [onFrame, if_neg himage, if_pos hearly]
      exact ⟨trivial, by omega, rfl⟩
    · simp only [onFrame, if_neg himage, if_neg hearly]
      exact ⟨trivial, by omega, rfl⟩

theorem stats_after (s : CaptureLoop) (turns : List Acquired) :
    (s.after minInterval turns).stats.encoded =
        s.stats.encoded + (s.encodedAt minInterval turns).length ∧
      (s.stats.acquired = s.stats.encoded + s.stats.pointerOnly + s.stats.pacedOut →
        (s.after minInterval turns).stats.acquired =
          (s.after minInterval turns).stats.encoded +
            (s.after minInterval turns).stats.pointerOnly +
            (s.after minInterval turns).stats.pacedOut) := by
  induction turns generalizing s with
  | nil => exact ⟨rfl, id⟩
  | cons acquired turns ih =>
    rw [after_cons]
    cases acquired with
    | timeout => exact ih s
    | frame lastPresentTime now =>
      obtain ⟨hencoded, hsum⟩ := ih (s.onFrame minInterval lastPresentTime now).2
      rw [turn, encodedAt, List.length_append]
      have hcounted := counted minInterval s lastPresentTime now
      exact ⟨by omega, fun h => hsum (by omega)⟩

/-- Of the images acquired in any stretch of time, no more are encoded, but for two, than there are
    refreshes in that time and a millisecond more; an image is let pass only if it is acquired within
    a refresh of the last one encoded; and every frame is counted for what becomes of it. -/
theorem capture_paced (minInterval : ℕ) (turns : List Acquired) (time length : ℕ) :
    let encoded := start.encodedAt minInterval turns
    let s := start.after minInterval turns
    ((encoded.filter fun t => time ≤ t ∧ t ≤ time + length).length - 2) * minInterval ≤
        length + CAPTURE_SLACK_NS ∧
      (∀ lastPresentTime now, lastPresentTime ≠ 0 →
        (s.onFrame minInterval lastPresentTime now).1 ≠ .encoded →
          ∃ last ∈ encoded.getLast?, now < last + minInterval) ∧
      s.stats.encoded = encoded.length ∧
      s.stats.acquired = s.stats.encoded + s.stats.pointerOnly + s.stats.pacedOut := by
  intro encoded s
  obtain ⟨htaken, hdue⟩ := @encoded_eq_taken minInterval start turns
  obtain ⟨hencoded, hsum⟩ := @stats_after minInterval start turns
  refine ⟨?_, fun lastPresentTime now himage hframe => ?_, ?_, hsum rfl⟩
  · have hspaced : Spaced (pace minInterval) (start.encodedAt minInterval turns) := by
      rw [htaken]
      exact Pace.spaced_taken
    exact hspaced.length_filter_le time length
  · obtain ⟨stats, -, himage'⟩ | ⟨stats, -, -, hearly⟩ | ⟨stats, hencoded', -, -⟩ :=
      onFrame_cases minInterval s lastPresentTime now
    · exact (himage himage').elim
    · rw [hdue] at hearly
      obtain ⟨last, hlast, hlt⟩ := Pace.exists_last_of_early hearly
      exact ⟨last, (congrArg List.getLast? htaken).trans hlast, hlt⟩
    · exact (hframe (congrArg Prod.fst hencoded')).elim
  · exact hencoded.trans (Nat.zero_add _)

end CaptureLoop

end Sardp
