import Sardp.Session.TimeSync
import Sardp.Wire.FrameMessages

/-!
# What the client reports of a frame

For every frame the client reports how long decoding and displaying it took, and how old it was when
it was displayed, by the clock of the server (`feedback_session.rs`). The server goes by the last of
these to tell that the client cannot keep up.

The delays are numbers of 64 bits, cut down to 32. So a delay is reported as it was, or as the
largest number if it was larger, exactly if it fits, or if its lower half happens to be the
largest number (`narrow_eq_cap_iff`); and the time of the frame by the clock of the server must not
be beyond 2^63 either, or must not matter (`buildTransportFeedback_reportsDelays_iff`). Reports of
such delays are in their order (`ReportsDelays.le`).
-/

namespace Sardp

/-- When a frame went through the client, by its own clock. -/
structure FrameTimestamps where
  receiveTs : UInt64
  decodeDoneTs : UInt64
  displayTs : UInt64
  deriving DecidableEq

def TRANSPORT_FEEDBACK_INTERVAL_US : ℕ := 100000

/-- Cutting a number down to 32 bits. -/
def narrow (n : ℕ) : ℕ := n % 2 ^ 32

/-- The largest number of 32 bits. -/
def U32_MAX : ℕ := 2 ^ 32 - 1

/-- The report of a frame; `none` if the arithmetic panics. -/
def buildTransportFeedback (mode : Overflow) (header : Wire.VideoFrameHeader) (payloadLen : ℕ)
    (timestamps : FrameTimestamps) (offsetUs : I64) (targetLatencyUs : ℕ) :
    Option Wire.TransportFeedback := do
  let decodeDelayUs := narrow (timestamps.decodeDoneTs.toNat - timestamps.receiveTs.toNat)
  let displayDelayUs := narrow (timestamps.displayTs.toNat - timestamps.decodeDoneTs.toNat)
  let displayTsServerClock ← toResponderClock mode timestamps.displayTs offsetUs
  let clientQueueDelayUs := narrow (displayTsServerClock - header.captureTs)
  let bits ← Overflow.settleNat 64 mode (payloadLen * 8)
  let scaled ← Overflow.settleNat 64 mode (bits * 1000000)
  return {
    lastReceivedFrameId := header.frameId
    lastDecodedFrameId := header.frameId
    lastDisplayedFrameId := header.frameId
    framesReceived := 1
    framesDropped := 0
    receiveBitrateBps := scaled / TRANSPORT_FEEDBACK_INTERVAL_US
    decodeDelayUs
    displayDelayUs
    targetLatencyUs
    clientQueueDelayUs }

open FixedWidth

/-! ## Delays -/

/-- A number that is as large as it can be reported to be. -/
def cap (n : ℕ) : ℕ := min n U32_MAX

/-- The number fits, or its lower half is the largest number that does. -/
def NarrowsToCap (n : ℕ) : Prop := n ≤ U32_MAX ∨ n % 2 ^ 32 = U32_MAX

instance (n : ℕ) : Decidable (NarrowsToCap n) := by
  unfold NarrowsToCap
  infer_instance

theorem narrow_eq_cap_iff (n : ℕ) : narrow n = cap n ↔ NarrowsToCap n := by
  simp only [narrow, cap, NarrowsToCap, U32_MAX]
  omega

theorem cap_mono {m n : ℕ} (h : m ≤ n) : cap m ≤ cap n := by
  simp only [cap, U32_MAX]
  omega

/-- A time of the client as it is by the clock of the server, not before its beginning. -/
def serverClock (localTs : UInt64) (offsetUs : I64) : ℤ := max 0 (localTs.toNat + offsetUs.val)

/-- How long decoding a frame took. -/
def FrameTimestamps.decodeDelay (timestamps : FrameTimestamps) : ℕ :=
  timestamps.decodeDoneTs.toNat - timestamps.receiveTs.toNat

/-- How long displaying it took. -/
def FrameTimestamps.displayDelay (timestamps : FrameTimestamps) : ℕ :=
  timestamps.displayTs.toNat - timestamps.decodeDoneTs.toNat

/-- How old it was when it was displayed. -/
def FrameTimestamps.queueDelay (timestamps : FrameTimestamps) (captureTs : ℕ) (offsetUs : I64) : ℕ :=
  (serverClock timestamps.displayTs offsetUs).toNat - captureTs

/-- The delays of the frame are reported, each as it was or as the largest number. -/
def ReportsDelays (header : Wire.VideoFrameHeader) (timestamps : FrameTimestamps) (offsetUs : I64)
    (feedback : Wire.TransportFeedback) : Prop :=
  feedback.decodeDelayUs = cap timestamps.decodeDelay ∧
    feedback.displayDelayUs = cap timestamps.displayDelay ∧
      feedback.clientQueueDelayUs = cap (timestamps.queueDelay header.captureTs offsetUs)

/-- The age of a frame is reported so, for the time by the clock of the server that it was displayed
    at and that of its capture: the conversion wraps around times beyond 2^63. -/
def AgeFits (clock : ℤ) (captureTs : ℕ) : Prop :=
  clock < 2 ^ 63 ∧ NarrowsToCap (clock.toNat - captureTs) ∨
    2 ^ 63 ≤ clock ∧ clock ≤ captureTs ∨
      2 ^ 64 + captureTs < clock ∧ (clock.toNat - captureTs) % 2 ^ 32 = U32_MAX

variable {mode : Overflow} {header : Wire.VideoFrameHeader} {payloadLen : ℕ}
  {timestamps : FrameTimestamps} {offsetUs : I64} {targetLatencyUs : ℕ}
  {feedback : Wire.TransportFeedback} {localTs : UInt64}

/-- A conversion wraps around, or panics where it would. -/
theorem toResponderClock_eq_some {ts : ℕ} :
    toResponderClock mode localTs offsetUs = some ts ↔
      (mode = .panicking → FixedWidth.Fits 63 ((asI64 localTs).val + offsetUs.val)) ∧
        ts = (max (wrap 63 (localTs.toNat + offsetUs.val)) 0).toNat := by
  have hcast : (Signed.cast 63 ((asI64 localTs).val + offsetUs.val)).val =
      wrap 63 (localTs.toNat + offsetUs.val) := by
    rw [Signed.cast_val, asI64, Signed.cast_val, wrap_wrap_add]
  simp only [toResponderClock, Option.bind_eq_bind, Option.bind_eq_some_iff, Overflow.add,
    Overflow.settle_eq_some, Option.pure_def, Option.some.injEq]
  constructor
  · rintro ⟨sum, ⟨hfits, rfl⟩, h⟩
    exact ⟨hfits, by rw [← h, hcast]⟩
  · rintro ⟨hfits, h⟩
    exact ⟨_, ⟨hfits, rfl⟩, by rw [h, hcast]⟩

theorem scaled_eq (n : ℕ) : n * 8 * 1000000 = n * 8000000 := Nat.mul_assoc n 8 1000000

/-- Whether a frame is reported, and with which delays. -/
theorem exists_buildTransportFeedback :
    (∃ feedback, buildTransportFeedback mode header payloadLen timestamps offsetUs
        targetLatencyUs = some feedback ∧ ReportsDelays header timestamps offsetUs feedback) ↔
      (mode = .panicking → FixedWidth.Fits 63 ((asI64 timestamps.displayTs).val + offsetUs.val) ∧
          payloadLen * 8000000 < 2 ^ 64) ∧
        narrow timestamps.decodeDelay = cap timestamps.decodeDelay ∧
          narrow timestamps.displayDelay = cap timestamps.displayDelay ∧
            narrow ((max (wrap 63 (timestamps.displayTs.toNat + offsetUs.val)) 0).toNat -
                header.captureTs) =
              cap (timestamps.queueDelay header.captureTs offsetUs) := by
  simp only [buildTransportFeedback, Option.bind_eq_bind, Option.bind_eq_some_iff,
    toResponderClock_eq_some]
  constructor
  · rintro ⟨feedback, ⟨ts, ⟨hclock, rfl⟩, bits, hbits, scaled, hscaled, h⟩, hreports⟩
    cases h
    refine ⟨fun hmode => ⟨hclock hmode, ?_⟩, hreports⟩
    obtain ⟨-, rfl⟩ := Overflow.lt_of_settleNat hbits hmode
    rw [← scaled_eq payloadLen]
    exact (Overflow.lt_of_settleNat hscaled hmode).1
  · rintro ⟨hmode, hreports⟩
    obtain ⟨bits, hbits, hbits'⟩ := Overflow.exists_settleNat (w := 64) (n := payloadLen * 8)
      fun h => lt_of_le_of_lt (Nat.mul_le_mul_left payloadLen (by decide)) (hmode h).2
    obtain ⟨scaled, hscaled, -⟩ := Overflow.exists_settleNat (w := 64) (n := bits * 1000000)
      fun h => by
        rw [hbits' h, scaled_eq]
        exact (hmode h).2
    exact ⟨_, ⟨_, ⟨fun h => (hmode h).1, rfl⟩, bits, hbits, scaled, hscaled, rfl⟩, hreports⟩

/-- When the age of a frame is reported as it was or as the largest number. -/
theorem narrow_wrap_eq_cap_iff {clock : ℤ} {captureTs : ℕ} (hlow : -2 ^ 63 ≤ clock)
    (hhigh : clock < 2 ^ 64 + 2 ^ 63) :
    narrow ((max (wrap 63 clock) 0).toNat - captureTs) = cap ((max 0 clock).toNat - captureTs) ↔
      AgeFits clock captureTs := by
  by_cases hclock : clock < 2 ^ 63
  · rw [wrap_of_fits ⟨hlow, hclock⟩, max_comm, narrow_eq_cap_iff, AgeFits]
    have hnat : (max 0 clock).toNat = clock.toNat := by omega
    rw [hnat]
    constructor
    · exact fun h => .inl ⟨hclock, h⟩
    · rintro (⟨-, h⟩ | ⟨h, -⟩ | ⟨h, -⟩)
      · exact h
      · omega
      · omega
  · -- the time is taken for one 2^64 earlier
    have hwrap : wrap 63 clock = clock - 2 ^ 64 := by
      rw [← wrap_add_mul 63 clock (-1), wrap_of_fits]
      · omega
      · simp only [FixedWidth.Fits]
        omega
    rw [hwrap, AgeFits]
    simp only [narrow, cap, NarrowsToCap, U32_MAX]
    omega

/-- Reports of delays are in their order. -/
theorem ReportsDelays.le {header' : Wire.VideoFrameHeader} {timestamps' : FrameTimestamps}
    {offsetUs' : I64} {feedback' : Wire.TransportFeedback}
    (h : ReportsDelays header timestamps offsetUs feedback)
    (h' : ReportsDelays header' timestamps' offsetUs' feedback') :
    (timestamps.decodeDelay ≤ timestamps'.decodeDelay →
        feedback.decodeDelayUs ≤ feedback'.decodeDelayUs) ∧
      (timestamps.displayDelay ≤ timestamps'.displayDelay →
        feedback.displayDelayUs ≤ feedback'.displayDelayUs) ∧
      (timestamps.queueDelay header.captureTs offsetUs ≤
          timestamps'.queueDelay header'.captureTs offsetUs' →
        feedback.clientQueueDelayUs ≤ feedback'.clientQueueDelayUs) := by
  obtain ⟨hdecode, hdisplay, hqueue⟩ := h
  obtain ⟨hdecode', hdisplay', hqueue'⟩ := h'
  rw [hdecode, hdecode', hdisplay, hdisplay', hqueue, hqueue']
  exact ⟨cap_mono, cap_mono, cap_mono⟩

/-- The delays of a frame are reported, each as it was or as the largest number, exactly if those
    that do not fit happen to be cut down to it, and nothing overflows where that panics. Where two
    frames are reported so, none of the delays of one is reported as the larger if it was not. -/
theorem buildTransportFeedback_reportsDelays_iff (mode : Overflow) (header : Wire.VideoFrameHeader)
    (payloadLen : ℕ) (timestamps : FrameTimestamps) (offsetUs : I64) (targetLatencyUs : ℕ) :
    ((∃ feedback, buildTransportFeedback mode header payloadLen timestamps offsetUs
        targetLatencyUs = some feedback ∧ ReportsDelays header timestamps offsetUs feedback) ↔
      (mode = .panicking → FixedWidth.Fits 63 ((asI64 timestamps.displayTs).val + offsetUs.val) ∧
          payloadLen * 8000000 < 2 ^ 64) ∧
        NarrowsToCap timestamps.decodeDelay ∧ NarrowsToCap timestamps.displayDelay ∧
          AgeFits (timestamps.displayTs.toNat + offsetUs.val) header.captureTs) ∧
    ∀ header' timestamps' offsetUs' feedback feedback',
      ReportsDelays header timestamps offsetUs feedback →
        ReportsDelays header' timestamps' offsetUs' feedback' →
          (timestamps.decodeDelay ≤ timestamps'.decodeDelay →
            feedback.decodeDelayUs ≤ feedback'.decodeDelayUs) ∧
          (timestamps.displayDelay ≤ timestamps'.displayDelay →
            feedback.displayDelayUs ≤ feedback'.displayDelayUs) ∧
          (timestamps.queueDelay header.captureTs offsetUs ≤
              timestamps'.queueDelay header'.captureTs offsetUs' →
            feedback.clientQueueDelayUs ≤ feedback'.clientQueueDelayUs) := by
  refine ⟨?_, fun _ _ _ _ _ h h' => h.le h'⟩
  have hlt := timestamps.displayTs.toNat_lt
  have hoffset := offsetUs.fits
  rw [exists_buildTransportFeedback, narrow_eq_cap_iff, narrow_eq_cap_iff,
    FrameTimestamps.queueDelay, serverClock, narrow_wrap_eq_cap_iff]
  · simp only [FixedWidth.Fits] at hoffset
    omega
  · simp only [FixedWidth.Fits] at hoffset
    omega

/-- A frame that was captured at the beginning, displayed after a microsecond or after 2^32 of them:
    the second one is reported as the younger, as displayed at once. -/
theorem older_frame_reported_younger :
    let header : Wire.VideoFrameHeader := ⟨0, 7, 1, 1, 0, 0, 640, 360, 0⟩
    let early : FrameTimestamps := ⟨0, 0, 1⟩
    let late : FrameTimestamps := ⟨0, 0, 4294967296⟩
    ∃ feedback feedback',
      buildTransportFeedback .wrapping header 0 early (.cast 63 0) 50000 = some feedback ∧
      buildTransportFeedback .wrapping header 0 late (.cast 63 0) 50000 = some feedback' ∧
      early.queueDelay 0 (.cast 63 0) < late.queueDelay 0 (.cast 63 0) ∧
      feedback'.clientQueueDelayUs < feedback.clientQueueDelayUs ∧
      ¬ReportsDelays header late (.cast 63 0) feedback' :=
  ⟨_, _, rfl, rfl, by decide, by decide, fun h => absurd h.2.2 (by decide)⟩

end Sardp
