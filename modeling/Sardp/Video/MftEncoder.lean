import Sardp.Library.Conservation
import Sardp.Video.ParameterSets

/-!
# The encoder on Windows

The hardware encoder (`Encoder` in `desktop_h264.rs` of `sardp-win`) works on its own: it tells by
events that it may be given an image, and that a frame has come out. A call gives it one image, when
it may, and collects the frames that come out meanwhile, for a while. What the events are, and when
they come, is up to the encoder.

* Every permission is used for an image, or still there to be used: a call only gives up waiting for
  one if all that were given have been used (`Encoder.permissions_kept`).
* The frames have the times of capture of the images, in order, if and only if none comes out before
  an image has been given for it (`Encoder.labels_conserved`).
* As long as every frame comes out in time, each call returns the frame of its own image
  (`Encoder.in_step`).
-/

namespace Sardp

namespace Encoder

/-- A frame that has come out. -/
structure Frame where
  annexB : List UInt8
  isIdr : Bool
  captureTs : ℕ
  encodeDoneTs : ℕ
  deriving DecidableEq

/-- An image as it is given to the encoder, with times in units of 100 ns. -/
structure Sample where
  time : ℤ
  duration : ℤ
  deriving DecidableEq

/-- What `ProcessOutput` comes to. -/
inductive Processed
  | needMoreInput
  | withoutSample
  /-- A frame, its bytes if they can be read, and the parameter sets the encoder has told of. -/
  | sample (encodeDoneTs : ℕ) (bytes : Except String (List UInt8)) (cleanPoint : Bool)
      (sequenceHeader : Option (List UInt8))
  | failed (e : String)

/-- Where a call to encode an image is. -/
inductive Place
  /-- There is no call. -/
  | idle
  /-- The image may not be given yet. -/
  | feeding (sample : Sample) (captureTs : ℕ) (outputs : List Frame)
  | giving (sample : Sample) (captureTs : ℕ) (outputs : List Frame)
  /-- The image has been given. -/
  | collecting (outputs : List Frame) (deadline : ℕ)
  /-- The call has failed, and the worker ends. -/
  | failed (e : String)
  deriving DecidableEq

end Encoder

/-- The encoder as its caller sees it. -/
structure Encoder where
  fps : ℕ
  /-- How long a call waits for the frame of its own image. -/
  outputWait : ℕ
  parameterSets : ParameterSetCache
  /-- The times of capture of the images that no frame has come out for. -/
  pendingCaptureTs : List ℕ
  /-- Permissions to give an image that came while a call was waiting for a frame. -/
  needInputCredits : ℕ
  lastPts100ns : Option ℤ
  inputCount : ℕ
  outputCount : ℕ
  place : Encoder.Place
  deriving DecidableEq

namespace Encoder

/-- A step of a call, or of what it waits for. -/
inductive Event
  /-- The call, and whether a sample can be made of the image. -/
  | encodeFrame (captureTs : ℕ) (prepared : Except String Unit)
  | spendCredit
  | needInput
  | haveOutput (output : Processed)
  | otherEvent
  /-- The type of an event cannot be read. -/
  | unreadable (e : String)
  | processInput (accepted : Except String Unit) (now : ℕ)
  /-- There is no event. -/
  | noEvent (now : ℕ)
  /-- The time to wait for a permission is up. -/
  | timedOut

def new (fps : ℕ) : Encoder where
  fps := fps
  outputWait := max (1000000 / max fps 1) 20000
  parameterSets := .new
  pendingCaptureTs := []
  needInputCredits := 0
  lastPts100ns := none
  inputCount := 0
  outputCount := 0
  place := .idle

/-- The sample of an image: it lasts since the last one, or as long as the rate says. -/
def sampleAt (s : Encoder) (captureTs : ℕ) : Sample where
  time := captureTs * 10
  duration := s.lastPts100ns.elim (10000000 / s.fps) fun prev => max (captureTs * 10 - prev) 1

/-- The time of capture of the next frame: that of the first image that none has come out for. -/
def nextCaptureTs (s : Encoder) (encodeDoneTs : ℕ) : ℕ := s.pendingCaptureTs.headD encodeDoneTs

/-- The parameter sets that are known after a frame. -/
def setsAfter (cache : ParameterSetCache) (annexB : List UInt8)
    (sequenceHeader : Option (List UInt8)) : ParameterSetCache :=
  match (cache.observe annexB).sets, sequenceHeader with
  | none, some header => (cache.observe annexB).setFallback header
  | _, _ => cache.observe annexB

/-- The frame as it is handed out: one of an IDR picture comes with its parameter sets. -/
def frameOf (cache : ParameterSetCache) (annexB : List UInt8) (cleanPoint : Bool)
    (captureTs encodeDoneTs : ℕ) : Frame where
  annexB := if isIdrAccessUnit annexB cleanPoint then cache.completeIdr annexB else annexB
  isIdr := isIdrAccessUnit annexB cleanPoint
  captureTs := captureTs
  encodeDoneTs := encodeDoneTs

/-- Taking a frame that has come out. -/
def takeOneOutput (s : Encoder) : Processed → Except String (Option Frame) × Encoder
  | .needMoreInput | .withoutSample => (.ok none, s)
  | .failed e => (.error e, s)
  | .sample _ (.error e) _ _ => (.error e, { s with
      outputCount := s.outputCount + 1, pendingCaptureTs := s.pendingCaptureTs.tail })
  | .sample encodeDoneTs (.ok annexB) cleanPoint header =>
    (.ok (some (frameOf (setsAfter s.parameterSets annexB header) annexB cleanPoint
      (s.nextCaptureTs encodeDoneTs) encodeDoneTs)), { s with
        outputCount := s.outputCount + 1
        pendingCaptureTs := s.pendingCaptureTs.tail
        parameterSets := setsAfter s.parameterSets annexB header })

/-- Taking a frame in a call, which goes on with the frames it has. -/
def collect (s : Encoder) (output : Processed) (outputs : List Frame) (next : List Frame → Place) :
    Encoder :=
  match s.takeOneOutput output with
  | (.ok frame, s') => { s' with place := next (outputs ++ frame.toList) }
  | (.error e, s') => { s' with place := .failed e }

/-- A call starts. -/
def encodeFrame (s : Encoder) (captureTs : ℕ) : Except String Unit → Encoder
  | .ok () => { s with
      lastPts100ns := some (captureTs * 10), place := .feeding (s.sampleAt captureTs) captureTs [] }
  | .error e => { s with lastPts100ns := some (captureTs * 10), place := .failed e }

/-- The image is given to the encoder. -/
def processInput (s : Encoder) (captureTs : ℕ) (outputs : List Frame) (now : ℕ) :
    Except String Unit → Encoder
  | .ok () => { s with
      inputCount := s.inputCount + 1
      pendingCaptureTs := s.pendingCaptureTs ++ [captureTs]
      place := .collecting outputs (now + s.outputWait) }
  | .error e => { s with place := .failed e }

/-- The call returns if every image has its frame, or if the time is up. -/
def Returns (s : Encoder) (deadline now : ℕ) : Prop :=
  s.inputCount ≤ s.outputCount ∨ deadline ≤ now

instance (s : Encoder) (deadline now : ℕ) : Decidable (s.Returns deadline now) :=
  inferInstanceAs (Decidable (_ ∨ _))

/-- A step; `none` where it is not possible. A call asks for no event as long as it has a permission
    left over. -/
def step (s : Encoder) (e : Event) : Option Encoder :=
  match s.place, e with
  | .idle, .encodeFrame captureTs prepared => some (s.encodeFrame captureTs prepared)
  | .feeding sample captureTs outputs, .spendCredit =>
    if 0 < s.needInputCredits then some { s with
      needInputCredits := s.needInputCredits - 1, place := .giving sample captureTs outputs }
    else none
  | .feeding sample captureTs outputs, e =>
    if 0 < s.needInputCredits then none
    else
      match e with
      | .needInput => some { s with place := .giving sample captureTs outputs }
      | .haveOutput output => some (s.collect output outputs (.feeding sample captureTs))
      | .otherEvent | .noEvent _ => some s
      | .unreadable e => some { s with place := .failed e }
      | .timedOut => some { s with place := .failed "timed out waiting for MFT event" }
      | _ => none
  | .giving _ captureTs outputs, .processInput accepted now =>
    some (s.processInput captureTs outputs now accepted)
  | .collecting outputs deadline, .haveOutput output =>
    some (s.collect output outputs (.collecting · deadline))
  | .collecting _ _, .needInput => some { s with needInputCredits := s.needInputCredits + 1 }
  | .collecting _ _, .otherEvent => some s
  | .collecting _ _, .unreadable e => some { s with place := .failed e }
  | .collecting _ deadline, .noEvent now =>
    some (if s.Returns deadline now then { s with place := .idle } else s)
  | _, _ => none

/-- The steps as a machine. -/
def machine : Machine Encoder Event := ⟨step⟩

/-- The call has failed. -/
def Failed (s : Encoder) : Prop := ∃ e, s.place = .failed e

/-- A call has asked for an event: it has no permission left over, or collects frames. -/
def Listening (s : Encoder) (outputs : List Frame) (next : List Frame → Place) : Prop :=
  (∃ sample captureTs, s.place = .feeding sample captureTs outputs ∧ s.needInputCredits = 0 ∧
    next = .feeding sample captureTs) ∨
  ∃ deadline, s.place = .collecting outputs deadline ∧ next = (.collecting · deadline)

variable {s s' : Encoder} {e : Event} {es : List Event}

/-- What a step does. -/
theorem step_eq_some :
    machine.step s e = some s' ↔
      match e with
      | .encodeFrame captureTs prepared =>
        s.place = .idle ∧ s.encodeFrame captureTs prepared = s'
      | .spendCredit => ∃ sample captureTs outputs,
          s.place = .feeding sample captureTs outputs ∧ 0 < s.needInputCredits ∧
            { s with needInputCredits := s.needInputCredits - 1
                     place := .giving sample captureTs outputs } = s'
      | .needInput =>
        (∃ sample captureTs outputs,
          s.place = .feeding sample captureTs outputs ∧ s.needInputCredits = 0 ∧
            { s with place := .giving sample captureTs outputs } = s') ∨
        ∃ outputs deadline, s.place = .collecting outputs deadline ∧
          { s with needInputCredits := s.needInputCredits + 1 } = s'
      | .haveOutput output => ∃ outputs next, s.Listening outputs next ∧
          s.collect output outputs next = s'
      | .otherEvent => (∃ outputs next, s.Listening outputs next) ∧ s = s'
      | .unreadable e => (∃ outputs next, s.Listening outputs next) ∧
          { s with place := .failed e } = s'
      | .processInput accepted now => ∃ sample captureTs outputs,
          s.place = .giving sample captureTs outputs ∧
            s.processInput captureTs outputs now accepted = s'
      | .noEvent now =>
        (∃ sample captureTs outputs, s.place = .feeding sample captureTs outputs ∧
          s.needInputCredits = 0 ∧ s = s') ∨
        ∃ outputs deadline, s.place = .collecting outputs deadline ∧
          (if s.Returns deadline now then { s with place := .idle } else s) = s'
      | .timedOut => ∃ sample captureTs outputs,
          s.place = .feeding sample captureTs outputs ∧ s.needInputCredits = 0 ∧
            { s with place := .failed "timed out waiting for MFT event" } = s' := by
  cases e <;> cases hplace : s.place <;> by_cases hcredits : 0 < s.needInputCredits <;>
    simp [machine, step, Listening, hplace, hcredits] <;> omega

/-- A worker whose call has failed makes no other. -/
theorem not_failed_of_step (hstep : machine.step s e = some s') : ¬s.Failed := by
  rintro ⟨e', hfailed⟩
  cases e <;> simp [machine, step, hfailed] at hstep

/-! ## What goes into the encoder and what comes out -/

/-- The frames a call has collected. -/
def Place.outputs : Place → List Frame
  | .feeding _ _ outputs | .giving _ _ outputs | .collecting outputs _ => outputs
  | .idle | .failed _ => []

/-- The permissions that have not been used for an image. -/
def permissionsHeld (s : Encoder) : ℕ :=
  match s.place with
  | .giving _ _ _ => s.needInputCredits + 1
  | _ => s.needInputCredits

/-- The time of capture of the image that is given. -/
def given (s : Encoder) : Event → List ℕ
  | .processInput (.ok ()) _ =>
    match s.place with
    | .giving _ captureTs _ => [captureTs]
    | _ => []
  | _ => []

/-- The time of capture that the frame that comes out has. -/
def label (s : Encoder) : Event → List ℕ
  | .haveOutput (.sample encodeDoneTs _ _ _) => [s.nextCaptureTs encodeDoneTs]
  | _ => []

/-- The frame comes out before an image has been given for it. -/
def Early (s : Encoder) : Event → Prop
  | .haveOutput (.sample _ _ _ _) => s.pendingCaptureTs = []
  | _ => False

instance (s : Encoder) : (e : Event) → Decidable (s.Early e)
  | .haveOutput (.sample _ _ _ _) => inferInstanceAs (Decidable (s.pendingCaptureTs = []))
  | .haveOutput .needMoreInput | .haveOutput .withoutSample | .haveOutput (.failed _)
  | .encodeFrame _ _ | .spendCredit | .needInput | .otherEvent | .unreadable _ | .processInput _ _
  | .noEvent _ | .timedOut => inferInstanceAs (Decidable False)

/-- The time that an early frame has instead. -/
def early (s : Encoder) (e : Event) : List ℕ := if s.Early e then s.label e else []

/-- The frames that the call returns. -/
def returned (s : Encoder) : Event → List Frame
  | .noEvent now =>
    match s.place with
    | .collecting outputs deadline => if s.Returns deadline now then outputs else []
    | _ => []
  | _ => []

/-- The event is a permission to give an image. -/
def Event.permits : Event → Bool
  | .needInput => true
  | _ => false

/-- How many permissions have come. -/
def permissions (es : List Event) : ℕ := es.countP Event.permits

/-- What a step keeps account of. -/
structure Accounts (s : Encoder) (e : Event) (s' : Encoder) : Prop where
  pending : s.pendingCaptureTs ++ (s.given e ++ s.early e) = s.label e ++ s'.pendingCaptureTs
  inputs : s'.inputCount = s.inputCount + (s.given e).length
  outputs : s'.outputCount = s.outputCount + (s.label e).length
  permissions : s'.permissionsHeld + (s.given e).length =
    s.permissionsHeld + permissions [e] ∨ s'.Failed ∧ s.given e = []
  frames : (s.place.outputs.map Frame.captureTs) ++ s.label e =
    (s.returned e).map Frame.captureTs ++ s'.place.outputs.map Frame.captureTs ∨
      s'.Failed ∧ s.returned e = []

/-- A step that neither gives an image nor takes a frame. -/
theorem accounts_of_eq (hgiven : s.given e = []) (hlabel : s.label e = [])
    (hpending : s'.pendingCaptureTs = s.pendingCaptureTs) (hinputs : s'.inputCount = s.inputCount)
    (houtputs : s'.outputCount = s.outputCount)
    (hpermissions : s'.permissionsHeld = s.permissionsHeld + permissions [e] ∨ s'.Failed)
    (hframes : s.place.outputs = s.returned e ++ s'.place.outputs ∨
      s'.Failed ∧ s.returned e = []) : Accounts s e s' where
  pending := by simp [early, hgiven, hlabel, hpending]
  inputs := by rw [hgiven, hinputs]; rfl
  outputs := by rw [hlabel, houtputs]; rfl
  permissions := hpermissions.imp (fun h => by rw [hgiven, h]; rfl) fun h => ⟨h, hgiven⟩
  frames := hframes.imp_left fun h => by rw [hlabel, h, List.map_append, List.append_nil]

theorem Listening.outputs_eq {outputs : List Frame} {next : List Frame → Place}
    (h : s.Listening outputs next) : s.place.outputs = outputs ∧
      (∀ outputs, (next outputs).outputs = outputs) ∧ s.permissionsHeld = s.needInputCredits ∧
      ∀ (s' : Encoder) outputs, s'.place = next outputs →
        s'.permissionsHeld = s'.needInputCredits := by
  obtain ⟨sample, captureTs, hplace, -, rfl⟩ | ⟨deadline, hplace, rfl⟩ := h
  · exact ⟨by rw [hplace]; rfl, fun _ => rfl, by rw [permissionsHeld, hplace],
      fun s' outputs hplace' => by rw [permissionsHeld, hplace']⟩
  · exact ⟨by rw [hplace]; rfl, fun _ => rfl, by rw [permissionsHeld, hplace],
      fun s' outputs hplace' => by rw [permissionsHeld, hplace']⟩

theorem collect_place (s : Encoder) (output : Processed) (outputs : List Frame)
    (next : List Frame → Place) :
    (∃ frames, (s.collect output outputs next).place = next frames) ∨
      ∃ e, (s.collect output outputs next).place = .failed e := by
  rw [collect]
  split
  · exact .inl ⟨_, rfl⟩
  · exact .inr ⟨_, rfl⟩

/-- A frame takes the first of the times, if there is one. -/
theorem pending_append_early (s : Encoder) (encodeDoneTs : ℕ) (bytes : Except String (List UInt8))
    (cleanPoint : Bool) (header : Option (List UInt8)) :
    s.pendingCaptureTs ++ s.early (.haveOutput (.sample encodeDoneTs bytes cleanPoint header)) =
      s.nextCaptureTs encodeDoneTs :: s.pendingCaptureTs.tail := by
  cases hpending : s.pendingCaptureTs <;>
    simp [early, Early, label, nextCaptureTs, hpending]

theorem accounts_collect {outputs : List Frame} {next : List Frame → Place}
    (h : s.Listening outputs next) (output : Processed) :
    Accounts s (.haveOutput output) (s.collect output outputs next) := by
  obtain ⟨houtputs, hnext, hheld, hheld'⟩ := h.outputs_eq
  cases output with
  | needMoreInput | withoutSample =>
    refine accounts_of_eq rfl rfl rfl rfl rfl (.inl ?_) (.inl ?_)
    · rw [hheld, hheld' _ _ rfl]
      rfl
    · rw [houtputs]
      exact ((hnext _).trans (List.append_nil outputs)).symm
  | failed e =>
    exact accounts_of_eq rfl rfl rfl rfl rfl (.inr ⟨e, rfl⟩) (.inr ⟨⟨e, rfl⟩, rfl⟩)
  | sample encodeDoneTs bytes cleanPoint header =>
    have hpending := s.pending_append_early encodeDoneTs bytes cleanPoint header
    cases bytes with
    | error e => exact ⟨hpending, rfl, rfl, .inr ⟨⟨e, rfl⟩, rfl⟩, .inr ⟨⟨e, rfl⟩, rfl⟩⟩
    | ok annexB =>
      refine ⟨hpending, rfl, rfl, .inl ?_, .inl ?_⟩
      · rw [hheld, hheld' _ _ rfl]
        rfl
      · rw [houtputs]
        refine Eq.trans ?_ (congrArg (List.map Frame.captureTs) (hnext _)).symm
        rw [List.map_append]
        rfl

theorem accounts (hstep : machine.step s e = some s') : Accounts s e s' := by
  have hstep := step_eq_some.1 hstep
  cases e with
  | encodeFrame captureTs prepared =>
    obtain ⟨hplace, rfl⟩ := hstep
    cases prepared with
    | ok =>
      refine accounts_of_eq rfl rfl rfl rfl rfl (.inl ?_) (.inl ?_)
      · rw [permissionsHeld, permissionsHeld, hplace]
        rfl
      · rw [hplace]
        rfl
    | error e => exact accounts_of_eq rfl rfl rfl rfl rfl (.inr ⟨e, rfl⟩) (.inr ⟨⟨e, rfl⟩, rfl⟩)
  | spendCredit =>
    obtain ⟨sample, captureTs, outputs, hplace, hcredits, rfl⟩ := hstep
    refine accounts_of_eq rfl rfl rfl rfl rfl (.inl ?_) (.inl ?_)
    · rw [permissionsHeld, permissionsHeld, hplace]
      exact Nat.sub_add_cancel hcredits
    · rw [hplace]
      rfl
  | needInput =>
    obtain ⟨sample, captureTs, outputs, hplace, hcredits, rfl⟩ | ⟨outputs, deadline, hplace, rfl⟩ :=
      hstep
    · refine accounts_of_eq rfl rfl rfl rfl rfl (.inl ?_) (.inl ?_)
      · rw [permissionsHeld, permissionsHeld, hplace]
        rfl
      · rw [hplace]
        rfl
    · refine accounts_of_eq rfl rfl rfl rfl rfl (.inl ?_) (.inl rfl)
      simp only [permissionsHeld, hplace]
      rfl
  | haveOutput output =>
    obtain ⟨outputs, next, hlistening, rfl⟩ := hstep
    exact accounts_collect hlistening output
  | otherEvent =>
    obtain ⟨-, rfl⟩ := hstep
    exact accounts_of_eq rfl rfl rfl rfl rfl (.inl rfl) (.inl rfl)
  | unreadable e =>
    obtain ⟨-, rfl⟩ := hstep
    exact accounts_of_eq rfl rfl rfl rfl rfl (.inr ⟨e, rfl⟩) (.inr ⟨⟨e, rfl⟩, rfl⟩)
  | processInput accepted now =>
    obtain ⟨sample, captureTs, outputs, hplace, rfl⟩ := hstep
    cases accepted with
    | ok =>
      have hgiven : s.given (.processInput (.ok ()) now) = [captureTs] := by rw [given, hplace]
      refine ⟨?_, ?_, rfl, .inl ?_, .inl ?_⟩
      · rw [hgiven]
        rfl
      · rw [hgiven]
        rfl
      · rw [hgiven, permissionsHeld, permissionsHeld, hplace]
        rfl
      · rw [hplace]
        exact List.append_nil _
    | error e => exact accounts_of_eq rfl rfl rfl rfl rfl (.inr ⟨e, rfl⟩) (.inr ⟨⟨e, rfl⟩, rfl⟩)
  | noEvent now =>
    obtain ⟨sample, captureTs, outputs, hplace, -, rfl⟩ | ⟨outputs, deadline, hplace, rfl⟩ := hstep
    · refine accounts_of_eq rfl rfl rfl rfl rfl (.inl rfl) (.inl ?_)
      rw [returned, hplace]
      rfl
    · by_cases hreturns : s.Returns deadline now
      · rw [if_pos hreturns]
        refine accounts_of_eq rfl rfl rfl rfl rfl (.inl ?_) (.inl ?_)
        · simp only [permissionsHeld, hplace]
          rfl
        · have hreturned : s.returned (.noEvent now) = outputs := by
            rw [returned, hplace]
            exact if_pos hreturns
          rw [hreturned, hplace]
          exact (List.append_nil outputs).symm
      · rw [if_neg hreturns]
        refine accounts_of_eq rfl rfl rfl rfl rfl (.inl rfl) (.inl ?_)
        rw [returned, hplace]
        simp only [if_neg hreturns, List.nil_append]
  | timedOut =>
    obtain ⟨sample, captureTs, outputs, hplace, -, rfl⟩ := hstep
    exact accounts_of_eq rfl rfl rfl rfl rfl (.inr ⟨_, rfl⟩) (.inr ⟨⟨_, rfl⟩, rfl⟩)

theorem inputCount_eq {fps : ℕ} (hrun : machine.run (new fps) es = some s) :
    s.inputCount = (machine.outputs given (new fps) es).length :=
  (Machine.add_length_outputs (fun _ _ _ hs' => (accounts hs').inputs) hrun).trans (Nat.zero_add _)

theorem outputCount_eq {fps : ℕ} (hrun : machine.run (new fps) es = some s) :
    s.outputCount = (machine.outputs label (new fps) es).length :=
  (Machine.add_length_outputs (fun _ _ _ hs' => (accounts hs').outputs) hrun).trans
    (Nat.zero_add _)

/-! ## Permissions -/

/-- Every permission that has come has been used for an image, or is there to be used, and no image
    is given without one. So a call gives up waiting for a permission only if all that came have
    been used. -/
theorem permissions_kept {fps : ℕ} (hrun : machine.run (new fps) es = some s) :
    (¬s.Failed → permissions es =
        (machine.outputs given (new fps) es).length + s.permissionsHeld) ∧
      (machine.outputs given (new fps) es).length ≤ permissions es ∧
      ∀ s', machine.step s .timedOut = some s' →
        permissions es = (machine.outputs given (new fps) es).length := by
  have hkept : (s.Failed ∨ permissions es = s.inputCount + s.permissionsHeld) ∧
      s.inputCount ≤ permissions es := by
    refine Machine.run_history (R := fun es s =>
      (s.Failed ∨ permissions es = s.inputCount + s.permissionsHeld) ∧
        s.inputCount ≤ permissions es) (fun es s e s' h hs' => ?_) ⟨.inr rfl, Nat.zero_le _⟩ hrun
    have hheld := h.1.resolve_left (not_failed_of_step hs')
    have hinputs := (accounts hs').inputs
    have hmore : permissions (es ++ [e]) = permissions es + permissions [e] := List.countP_append
    rcases (accounts hs').permissions with hpermissions | ⟨hfailed, hnone⟩
    · exact ⟨.inr (by omega), by omega⟩
    · rw [hnone, List.length_nil] at hinputs
      exact ⟨.inl hfailed, by omega⟩
  rw [← inputCount_eq hrun]
  refine ⟨fun hfailed => hkept.1.resolve_left hfailed, hkept.2, fun s' hs' => ?_⟩
  obtain ⟨sample, captureTs, outputs, hplace, hcredits, -⟩ := step_eq_some.1 hs'
  have hheld := hkept.1.resolve_left (not_failed_of_step hs')
  rwa [permissionsHeld, hplace, hcredits] at hheld

/-- A permission that comes while a call waits for its frame, and is used by the next call; the one
    after that has to wait. -/
theorem permissions_kept_banked :
    let es : List Event := [.encodeFrame 100 (.ok ()), .needInput, .processInput (.ok ()) 0,
      .needInput, .noEvent 30000, .encodeFrame 200 (.ok ()), .spendCredit,
      .processInput (.ok ()) 40000, .noEvent 70000, .encodeFrame 300 (.ok ())]
    ∃ s, machine.run (new 60) es = some s ∧ permissions es =
      (machine.outputs given (new 60) es).length := by
  intro es
  have hrun : machine.run (new 60) es = some ⟨60, 20000, ⟨none⟩, [100, 200], 0, some 3000, 2, 0,
    .feeding ⟨3000, 1000⟩ 300 []⟩ := rfl
  exact ⟨_, hrun, (permissions_kept hrun).2.2 _ rfl⟩

/-! ## The times of capture -/

theorem early_eq_nil_iff : s.early e = [] ↔ ¬s.Early e := by
  rw [early]
  constructor
  · intro h hearly
    rw [if_pos hearly] at h
    cases e with
    | haveOutput output =>
      cases output with
      | sample => cases h
      | needMoreInput | withoutSample | failed => exact hearly
    | _ => exact hearly
  · exact fun h => if_neg h

/-- The images that no frame has come out for come after the others if no frame comes out too early,
    and the frames that come out are returned, or collected, unless the call has failed. -/
theorem conserved {fps : ℕ} (hrun : machine.run (new fps) es = some s) :
    let labels := machine.outputs label (new fps) es
    let returned := (machine.outputs returned (new fps) es).map Frame.captureTs
    (labels ++ s.pendingCaptureTs = machine.outputs given (new fps) es ↔
        machine.Always (fun s e _ => ¬s.Early e) (new fps) es) ∧
      (labels = returned ++ s.place.outputs.map Frame.captureTs ∨
        s.Failed ∧ returned <+: labels) := by
  intro labels returned
  have hpending : machine.outputs (fun s e => s.given e ++ s.early e) (new fps) es =
      labels ++ s.pendingCaptureTs :=
    Machine.outputs_conserved (fun s e s' hs' => (accounts hs').pending) hrun
  constructor
  · rw [← hpending, Machine.outputs_append_eq_iff hrun]
    simp only [early_eq_nil_iff]
  · have hmap : returned = machine.outputs (fun s e => (s.returned e).map Frame.captureTs)
      (new fps) es := Machine.map_outputs _ _ _
    rw [hmap]
    exact @Machine.outputs_conserved_or _ _ _ machine label _
      (fun s => s.place.outputs.map Frame.captureTs) _ _ _ Failed
      (fun s e s' hs' => not_failed_of_step hs')
      (fun s e s' hs' => (accounts hs').frames.imp_right fun h =>
        ⟨h.1, congrArg (List.map Frame.captureTs) h.2⟩) hrun

/-- The calls return the frames that come out, in order, but for those of a call that fails. Their
    times of capture are those of the images, in order, if and only if no frame comes out before an
    image has been given for it. -/
theorem labels_conserved {fps : ℕ} (hrun : machine.run (new fps) es = some s) :
    let labels := machine.outputs label (new fps) es
    let returned := (machine.outputs returned (new fps) es).map Frame.captureTs
    (labels ++ s.pendingCaptureTs = machine.outputs given (new fps) es ↔
        machine.Always (fun s e _ => ¬s.Early e) (new fps) es) ∧
      returned <+: labels ∧
      (¬s.Failed → labels = returned ++ s.place.outputs.map Frame.captureTs) := by
  obtain ⟨hlabels, hframes⟩ := conserved hrun
  refine ⟨hlabels, ?_, fun hfailed => hframes.resolve_right fun h => hfailed h.1⟩
  rcases hframes with hframes | ⟨-, hfirst⟩
  · exact ⟨_, hframes.symm⟩
  · exact hfirst

/-- A frame that comes out before any image has been given has the time of its own encoding, and the
    frame of the image that follows has its time. -/
theorem labels_conserved_early :
    let es : List Event := [.encodeFrame 100 (.ok ()),
      .haveOutput (.sample 130 (.ok [7]) false none), .needInput, .processInput (.ok ()) 0,
      .haveOutput (.sample 140 (.ok [8]) false none), .noEvent 10]
    ∃ s, machine.run (new 60) es = some s ∧
      (machine.outputs returned (new 60) es).map Frame.captureTs = [130, 100] ∧
      ¬machine.Always (fun s e _ => ¬s.Early e) (new 60) es := by
  intro es
  have hrun : machine.run (new 60) es =
    some ⟨60, 20000, ⟨none⟩, [], 0, some 1000, 1, 2, .idle⟩ := by decide +kernel
  refine ⟨_, hrun, rfl, fun h => ?_⟩
  exact absurd ((labels_conserved hrun).1.2 h) (by decide +kernel)

/-! ## Calls in step -/

/-- The call does not return before the frame of its own image for want of time. -/
def InTime (s : Encoder) (e : Event) : Prop :=
  match s.place, e with
  | .collecting _ deadline, .noEvent now => s.inputCount ≤ s.outputCount ∨ now < deadline
  | _, _ => True

instance (s : Encoder) (e : Event) : Decidable (s.InTime e) := by
  unfold InTime
  split <;> infer_instance

/-- A call that ends otherwise than by failing returns what it has collected. -/
theorem returns_of_idle (hstep : machine.step s e = some s') (hidle : s'.place = .idle) :
    ∃ outputs deadline now, s.place = .collecting outputs deadline ∧ e = .noEvent now ∧
      s.Returns deadline now ∧ s' = { s with place := .idle } := by
  have hstep := step_eq_some.1 hstep
  cases e with
  | noEvent now =>
    obtain ⟨sample, captureTs, outputs, hplace, -, rfl⟩ | ⟨outputs, deadline, hplace, rfl⟩ := hstep
    · cases hplace.symm.trans hidle
    · by_cases hreturns : s.Returns deadline now
      · exact ⟨outputs, deadline, now, hplace, rfl, hreturns, if_pos hreturns⟩
      · rw [if_neg hreturns, hplace] at hidle
        cases hidle
  | encodeFrame captureTs prepared =>
    obtain ⟨-, rfl⟩ := hstep
    cases prepared <;> cases hidle
  | spendCredit =>
    obtain ⟨sample, captureTs, outputs, -, -, rfl⟩ := hstep
    cases hidle
  | needInput =>
    obtain ⟨sample, captureTs, outputs, -, -, rfl⟩ | ⟨outputs, deadline, hplace, rfl⟩ := hstep
    · cases hidle
    · cases hplace.symm.trans hidle
  | haveOutput output =>
    obtain ⟨outputs, next, hlistening, rfl⟩ := hstep
    obtain ⟨frames, hplace⟩ | ⟨e, hplace⟩ := collect_place s output outputs next
    · obtain ⟨sample, captureTs, -, -, rfl⟩ | ⟨deadline, -, rfl⟩ := hlistening <;>
        cases hplace.symm.trans hidle
    · cases hplace.symm.trans hidle
  | otherEvent =>
    obtain ⟨⟨outputs, next, ⟨sample, captureTs, hplace, -⟩ | ⟨deadline, hplace, -⟩⟩, rfl⟩ := hstep <;>
      cases hplace.symm.trans hidle
  | unreadable e =>
    obtain ⟨-, rfl⟩ := hstep
    cases hidle
  | processInput accepted now =>
    obtain ⟨sample, captureTs, outputs, -, rfl⟩ := hstep
    cases accepted <;> cases hidle
  | timedOut =>
    obtain ⟨sample, captureTs, outputs, -, -, rfl⟩ := hstep
    cases hidle

/-- As long as every frame comes out in time, and none too early, the calls that have been made
    return the frames of their own images. -/
theorem in_step {fps : ℕ} (hrun : machine.run (new fps) es = some s)
    (hearly : machine.Always (fun s e _ => ¬s.Early e) (new fps) es)
    (hintime : machine.Always (fun s e _ => s.InTime e) (new fps) es) (hidle : s.place = .idle) :
    (machine.outputs returned (new fps) es).map Frame.captureTs =
      machine.outputs given (new fps) es := by
  have hcounts : s.inputCount ≤ s.outputCount := by
    refine hintime.run_invariant (I := fun s => s.place = .idle → s.inputCount ≤ s.outputCount)
      (fun s e s' _ hs' hintime hidle => ?_) (fun _ => Nat.le_refl 0) hrun hidle
    obtain ⟨outputs, deadline, now, hplace, rfl, hreturns, rfl⟩ := returns_of_idle hs' hidle
    simp only [InTime, hplace] at hintime
    exact hreturns.elim id fun hlate => hintime.resolve_right (Nat.not_lt.2 hlate)
  rw [inputCount_eq hrun, outputCount_eq hrun] at hcounts
  obtain ⟨hlabels, hframes⟩ := conserved hrun
  have hkept := hlabels.2 hearly
  have hreturned := hframes.resolve_right fun ⟨⟨e, hfailed⟩, _⟩ => by cases hidle.symm.trans hfailed
  -- no image is left without its frame
  have hnone : s.pendingCaptureTs = [] := by
    have hlength := congrArg List.length hkept
    rw [List.length_append] at hlength
    exact List.length_eq_zero_iff.1 (by omega)
  rw [← hkept, hnone, List.append_nil, hreturned, hidle]
  exact (List.append_nil _).symm

/-- Two calls, the second with two frames to wait for at most. -/
theorem in_step_twice :
    let es : List Event := [.encodeFrame 100 (.ok ()), .needInput, .processInput (.ok ()) 0,
      .noEvent 10, .haveOutput (.sample 130 (.ok [7]) false none), .needInput, .noEvent 30000,
      .encodeFrame 200 (.ok ()), .spendCredit, .processInput (.ok ()) 40000,
      .haveOutput (.sample 230 (.ok [8]) false none), .noEvent 40010]
    (machine.outputs returned (new 60) es).map Frame.captureTs =
      machine.outputs given (new 60) es := by
  intro es
  have hrun : machine.run (new 60) es =
    some ⟨60, 20000, ⟨none⟩, [], 0, some 2000, 2, 2, .idle⟩ := by decide +kernel
  exact in_step hrun (by decide +kernel) (by decide +kernel) rfl

end Encoder

end Sardp
