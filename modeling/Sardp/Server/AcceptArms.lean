import Sardp.Library.Conservation
import Sardp.Server.ActiveSession
import Sardp.Session.Handshake

/-!
# What becomes of the streams the loop accepts

The loop accepts a stream and reads the first bytes of it in one of its waits, and keeps the
stream only for as long as the wait goes on: the round that ends it for another reason drops
the stream (`ActiveSession.loopRound`), although it is no longer in the queue.

Counting what the loop takes from the queues and what the waits return
(`Machine.outputs`), the streams taken are those returned and those still held exactly if no
other wait is ever the first to end while one holds a stream
(`ActiveSession.accepted_streams_survive_iff`).
-/

namespace Sardp.ActiveSession

variable {sha256 : List UInt8 → List UInt8} {s s' : ActiveSession} {e : ActiveEvent}

/-! ## Taking and returning -/

/-- The stream the loop takes from the queue. -/
def takenUni (s : ActiveSession) : ActiveEvent → List ClientStream
  | .acceptUni => s.incoming.head?.toList
  | _ => []

/-- The stream the wait for one returns. -/
def returnedUni (s : ActiveSession) : ActiveEvent → List ClientStream
  | .dispatch _ => s.accepting.toList
  | _ => []

/-- The stream the wait for one holds. -/
def heldUni (s : ActiveSession) : List ClientStream := s.accepting.toList

/-- The clipboard stream the client opens. -/
def openedBi (_ : ActiveSession) : ActiveEvent → List ClipboardStream
  | .openBi stream => [stream]
  | _ => []

/-- The clipboard stream the loop takes from the queue. -/
def takenBi (s : ActiveSession) : ActiveEvent → List ClipboardStream
  | .acceptBi => s.incomingBi.head?.toList
  | _ => []

/-- The clipboard stream the wait for one returns. -/
def returnedBi (s : ActiveSession) : ActiveEvent → List ClipboardStream
  | .dispatchBi => (s.acceptingBi.map Prod.fst).toList
  | _ => []

/-- The clipboard stream the wait for one holds. -/
def heldBi (s : ActiveSession) : List ClipboardStream := (s.acceptingBi.map Prod.fst).toList

/-- The wait for a stream, while it holds one, is the first to end. -/
def EndsUni (s : ActiveSession) (e : ActiveEvent) (_ : ActiveSession) : Prop :=
  (s.loopEvent e).isSome → s.accepting.isSome → ∃ config, e = .dispatch config

/-- The wait for a clipboard stream, while it holds one, is the first to end. -/
def EndsBi (s : ActiveSession) (e : ActiveEvent) (_ : ActiveSession) : Prop :=
  (s.loopEvent e).isSome → s.acceptingBi.isSome → e = .dispatchBi

theorem takenUni_of_ne (he : e ≠ .acceptUni) : s.takenUni e = [] := by
  unfold takenUni
  split
  · exact absurd rfl he
  · rfl

theorem returnedUni_of_ne (he : ∀ config, e ≠ .dispatch config) : s.returnedUni e = [] := by
  unfold returnedUni
  split
  · next config => exact absurd rfl (he config)
  · rfl

theorem openedBi_of_ne (he : ∀ stream, e ≠ .openBi stream) : s.openedBi e = [] := by
  unfold openedBi
  split
  · next stream => exact absurd rfl (he stream)
  · rfl

theorem takenBi_of_ne (he : e ≠ .acceptBi) : s.takenBi e = [] := by
  unfold takenBi
  split
  · exact absurd rfl he
  · rfl

theorem returnedBi_of_ne (he : e ≠ .dispatchBi) : s.returnedBi e = [] := by
  unfold returnedBi
  split
  · exact absurd rfl he
  · rfl

theorem loopEvent_dispatch {config : Except AudioError Unit}
    (h : (machine sha256).step s (.dispatch config) = some s') :
    s.loopEvent (.dispatch config) ≠ none := by
  cases haccepting : s.accepting with
  | none => simp [machine, step, haccepting] at h
  | some stream => simp [loopEvent, haccepting]

theorem loopEvent_dispatchBi (h : (machine sha256).step s .dispatchBi = some s') :
    s.loopEvent .dispatchBi ≠ none := by
  cases haccepting : s.acceptingBi with
  | none => simp [machine, step, haccepting] at h
  | some accepting => simp [loopEvent, haccepting]

/-- The wait for a stream keeps the one it holds until it returns it, or loses it to the round
    of another wait. -/
theorem uni_cases (h : (machine sha256).step s e = some s') :
    (Machine.Conserves takenUni returnedUni heldUni s e s' ∧ EndsUni s e s') ∨
      (returnedUni s e ++ heldUni s').length < (heldUni s ++ takenUni s e).length ∧
        ¬ EndsUni s e s' := by
  cases hle : s.loopEvent e with
  | some le =>
    have hround := loop_step hle h
    have htaken : s.takenUni e = [] := takenUni_of_ne (by rintro rfl; cases hle)
    have hheld : heldUni s' = [] := by rw [heldUni, hround.accepting]; rfl
    by_cases hown : ∃ config, e = .dispatch config
    · -- its own round returns the stream
      obtain ⟨config, rfl⟩ := hown
      refine Machine.conserves_or_loses htaken (List.nil_append _).symm ?_
        (iff_of_true (fun _ _ => ⟨config, rfl⟩) rfl)
      rw [hheld, List.append_nil]
      rfl
    · -- the round of another wait drops the future, and the stream with it
      have hreturned : s.returnedUni e = [] := returnedUni_of_ne fun config he => hown ⟨config, he⟩
      refine Machine.conserves_or_loses htaken (List.append_nil _).symm ?_ ?_
      · rw [hreturned, hheld]
        rfl
      · cases haccepting : s.accepting <;> simp [EndsUni, heldUni, hle, hown, haccepting]
  | none =>
    have hreturned : s.returnedUni e = [] := returnedUni_of_ne fun config he =>
      loopEvent_dispatch (he ▸ h) (he ▸ hle)
    refine .inl ⟨?_, fun hsome => ?_⟩
    · rcases (other_step hle h).accepting with
        ⟨hne, haccepting⟩ | ⟨rfl, -, hnone, stream, incoming, hin, haccepting⟩
      · simp [Machine.Conserves, takenUni_of_ne hne, hreturned, heldUni, haccepting]
      · simp [Machine.Conserves, hreturned, heldUni, takenUni, hnone, hin, haccepting]
    · simp [hle] at hsome

/-- The wait for a clipboard stream does so, too. -/
theorem bi_cases (h : (machine sha256).step s e = some s') :
    (Machine.Conserves takenBi returnedBi heldBi s e s' ∧ EndsBi s e s') ∨
      (returnedBi s e ++ heldBi s').length < (heldBi s ++ takenBi s e).length ∧
        ¬ EndsBi s e s' := by
  cases hle : s.loopEvent e with
  | some le =>
    have hround := loop_step hle h
    have htaken : s.takenBi e = [] := takenBi_of_ne (by rintro rfl; cases hle)
    have hheld : heldBi s' = [] := by rw [heldBi, hround.acceptingBi]; rfl
    by_cases hown : e = .dispatchBi
    · subst hown
      refine Machine.conserves_or_loses htaken (List.nil_append _).symm ?_
        (iff_of_true (fun _ _ => rfl) rfl)
      rw [hheld, List.append_nil]
      rfl
    · have hreturned : s.returnedBi e = [] := returnedBi_of_ne hown
      refine Machine.conserves_or_loses htaken (List.append_nil _).symm ?_ ?_
      · rw [hreturned, hheld]
        rfl
      · cases haccepting : s.acceptingBi <;> simp [EndsBi, heldBi, hle, hown, haccepting]
  | none =>
    have hreturned : s.returnedBi e = [] := returnedBi_of_ne fun he =>
      loopEvent_dispatchBi (he ▸ h) (he ▸ hle)
    refine .inl ⟨?_, fun hsome => ?_⟩
    · rcases (other_step hle h).acceptingBi with
        ⟨hne, haccepting⟩ | ⟨rfl, -, hnone, stream, incoming, hin, -, haccepting⟩ |
          ⟨rfl, stream, -, hfalse, htrue⟩
      · simp [Machine.Conserves, takenBi_of_ne hne, hreturned, heldBi, haccepting]
      · simp [Machine.Conserves, hreturned, heldBi, takenBi, hnone, hin, haccepting]
      · simp [Machine.Conserves, hreturned, heldBi, takenBi, hfalse, htrue]
    · simp [hle] at hsome

/-- Of the clipboard streams, none is lost in the queue. -/
theorem queueBi_conserves (h : (machine sha256).step s e = some s') :
    Machine.Conserves openedBi takenBi incomingBi s e s' := by
  cases hle : s.loopEvent e with
  | some le =>
    have htaken : s.takenBi e = [] := takenBi_of_ne (by rintro rfl; cases hle)
    have hopened : s.openedBi e = [] := openedBi_of_ne (by rintro stream rfl; cases hle)
    simp [Machine.Conserves, htaken, hopened, (loop_step hle h).incomingBi]
  | none =>
    by_cases htaken : e = .acceptBi
    · subst htaken
      cases hincoming : s.incomingBi with
      | nil => simp [machine, step, hincoming] at h
      | cons stream incomingBi =>
        obtain ⟨-, rfl, -⟩ := acceptBi_step h hincoming
        simp [Machine.Conserves, openedBi, takenBi, hincoming]
    · by_cases hopened : ∃ stream, e = .openBi stream
      · obtain ⟨stream, rfl⟩ := hopened
        cases h
        simp [Machine.Conserves, openedBi, takenBi]
      · have hne : ∀ stream, e ≠ .openBi stream := fun stream he => hopened ⟨stream, he⟩
        simp [Machine.Conserves, takenBi_of_ne htaken, openedBi_of_ne hne,
          (other_step hle h).incomingBi htaken hne]

/-! ## Runs -/

/-- The loop only holds streams while it waits, and has read the prologues it says it has. -/
structure Holding (s : ActiveSession) : Prop where
  selecting : s.accepting.isSome ∨ s.acceptingBi.isSome → s.Selecting
  isClipboard {stream : ClipboardStream} : s.acceptingBi = some (stream, true) → stream.isClipboard

theorem holding_start (ctx : TaskContext) (g : PermissionSet) (synthetic : Bool)
    (videoChannel : VideoChannel) (opened : List ℕ) :
    (start ctx g synthetic videoChannel opened).Holding where
  selecting _ := ⟨rfl, rfl⟩
  isClipboard := nofun

theorem Holding.step (hs : s.Holding) (h : (machine sha256).step s e = some s') : s'.Holding := by
  cases hle : s.loopEvent e with
  | some le =>
    have hround := loop_step hle h
    constructor <;> simp [hround.accepting, hround.acceptingBi]
  | none =>
    have hother := other_step hle h
    refine ⟨fun hholds => ?_, fun htrue => ?_⟩
    · rw [Selecting, hother.session]
      rcases hother.accepting with ⟨-, haccepting⟩ | ⟨-, hselecting, -⟩
      · rcases hother.acceptingBi with ⟨-, hbi⟩ | ⟨-, hselecting, -⟩ | ⟨-, stream, -, hfalse, -⟩
        · rw [haccepting, hbi] at hholds
          exact hs.selecting hholds
        · exact hselecting
        · exact hs.selecting (.inr (by simp [hfalse]))
      · exact hselecting
    · rcases hother.acceptingBi with ⟨-, hbi⟩ | ⟨-, -, -, stream, -, -, -, hbi⟩ |
        ⟨-, stream, hclipboard, -, hbi⟩
      · exact hs.isClipboard (hbi ▸ htrue)
      · rw [hbi] at htrue
        cases htrue
      · rw [hbi] at htrue
        cases htrue
        exact hclipboard

/-- A stream that is held can be returned next. -/
theorem Holding.exists_dispatch (sha256 : List UInt8 → List UInt8) (hs : s.Holding)
    {stream : ClientStream} (haccepting : s.accepting = some stream) :
    ∃ es s', (machine sha256).run s es = some s' ∧
      (machine sha256).outputs returnedUni s es = [stream] := by
  obtain ⟨s', hstep⟩ : ∃ s', (machine sha256).step s (.dispatch (.ok ())) = some s' := by
    simp only [machine, ActiveSession.step, haccepting]
    exact ⟨_, loopRound_eq_some.2 ⟨hs.selecting (.inl (by simp [haccepting])), rfl⟩⟩
  refine ⟨[.dispatch (.ok ())], s', Machine.run_cons_eq_some.2 ⟨s', hstep, rfl⟩, ?_⟩
  simp [Machine.outputs_cons hstep, returnedUni, haccepting]

/-- A clipboard stream that is held can be returned, after its prologue is read. -/
theorem Holding.exists_dispatchBi (sha256 : List UInt8 → List UInt8) (hs : s.Holding)
    {stream : ClipboardStream} {prologueRead : Bool}
    (haccepting : s.acceptingBi = some (stream, prologueRead)) :
    ∃ es s', (machine sha256).run s es = some s' ∧
      (machine sha256).outputs returnedBi s es = [stream] := by
  by_cases hread : prologueRead = stream.isClipboard
  · obtain ⟨s', hstep⟩ : ∃ s', (machine sha256).step s .dispatchBi = some s' := by
      simp only [machine, ActiveSession.step, haccepting, if_pos hread]
      exact ⟨_, loopRound_eq_some.2 ⟨hs.selecting (.inr (by simp [haccepting])), rfl⟩⟩
    refine ⟨[.dispatchBi], s', Machine.run_cons_eq_some.2 ⟨s', hstep, rfl⟩, ?_⟩
    simp [Machine.outputs_cons hstep, returnedBi, haccepting]
  · cases prologueRead with
    | true => exact absurd (hs.isClipboard haccepting).symm hread
    | false =>
      have hclipboard : stream.isClipboard = true := by simpa using hread
      let s₁ : ActiveSession := { s with acceptingBi := some (stream, true) }
      have hstep₁ : (machine sha256).step s .prologueBi = some s₁ := by
        simp [machine, ActiveSession.step, haccepting, hclipboard, s₁]
      obtain ⟨s', hstep⟩ : ∃ s', (machine sha256).step s₁ .dispatchBi = some s' := by
        simp only [machine, ActiveSession.step, s₁, if_pos hclipboard.symm]
        exact ⟨_, loopRound_eq_some.2 ⟨hs.selecting (.inr (by simp [haccepting])), rfl⟩⟩
      refine ⟨[.prologueBi, .dispatchBi], s', Machine.run_cons_eq_some.2
        ⟨s₁, hstep₁, Machine.run_cons_eq_some.2 ⟨s', hstep, rfl⟩⟩, ?_⟩
      simp [Machine.outputs_cons hstep₁, Machine.outputs_cons hstep, returnedBi, s₁]

/-- No other wait is ever the first to end while one holds a stream exactly if all streams
    taken are returned, in the order they were taken, but for the one still held. The clipboard
    streams are taken in the order the client opens them, and a stream that is held can be
    returned. -/
theorem accepted_streams_survive_iff (sha256 : List UInt8 → List UInt8) (ctx : TaskContext)
    (grantedPermissions : PermissionSet) (synthetic : Bool) (videoChannel : VideoChannel)
    (opened : List ℕ) {es : List ActiveEvent} {s' : ActiveSession}
    (hrun : (machine sha256).run
      (start ctx grantedPermissions synthetic videoChannel opened) es = some s') :
    let m := machine sha256
    let s := start ctx grantedPermissions synthetic videoChannel opened
    ((m.outputs takenUni s es = m.outputs returnedUni s es ++ s'.heldUni ∧
        m.outputs takenBi s es = m.outputs returnedBi s es ++ s'.heldBi) ↔
      m.Always (fun s e s' => s.EndsUni e s' ∧ s.EndsBi e s') s es) ∧
    m.outputs openedBi s es = m.outputs takenBi s es ++ s'.incomingBi ∧
    (∀ stream ∈ s'.heldUni, ∃ es' s'', m.run s' es' = some s'' ∧
      m.outputs returnedUni s' es' = [stream]) ∧
    ∀ stream ∈ s'.heldBi, ∃ es' s'', m.run s' es' = some s'' ∧
      m.outputs returnedBi s' es' = [stream] := by
  intro m s
  have hstart : s.Holding := holding_start ctx grantedPermissions synthetic videoChannel opened
  have hholding : s'.Holding := Machine.run_invariant (fun _ _ _ => Holding.step) hstart hrun
  refine ⟨?_, ?_, fun stream hheld => ?_, fun stream hheld => ?_⟩
  · refine Iff.trans (and_congr ?_ ?_) Machine.always_and.symm
    · have huni := Machine.outputs_conserved_iff (fun _ _ _ => uni_cases) hrun
      exact huni
    · have hbi := Machine.outputs_conserved_iff (fun _ _ _ => bi_cases) hrun
      exact hbi
  · exact Machine.outputs_conserved (fun _ _ _ => queueBi_conserves) hrun
  · exact hholding.exists_dispatch sha256 (Option.mem_toList.1 hheld)
  · obtain ⟨⟨stream, prologueRead⟩, haccepting, rfl⟩ :=
      Option.map_eq_some_iff.1 (Option.mem_toList.1 hheld)
    exact hholding.exists_dispatchBi sha256 haccepting

/-- An input stream that has been accepted is held, and can be returned. -/
theorem accepted_stream_returned :
    let s := start ⟨Vector.replicate 16 0, "user", 0, .new, []⟩ FRESH_GRANT true (.streaming 0) [0]
    let input : ClientStream := ⟨.ok ⟨.input, 1, 0⟩⟩
    let es := [ActiveEvent.openUni input, .acceptUni]
    ∃ s', (machine id).run s es = some s' ∧
      (machine id).outputs takenUni s es = (machine id).outputs returnedUni s es ++ s'.heldUni ∧
      ∃ es' s'', (machine id).run s' es' = some s'' ∧
        (machine id).outputs returnedUni s' es' = [input] := by
  intro s input es
  have hall : ((machine id).run s es).map (fun s' => s'.accepting) = some (some input) := by
    simp only [s, es, input]
    rfl
  obtain ⟨s', hrun, haccepting⟩ := Option.map_eq_some_iff.1 hall
  obtain ⟨hconserved, -, hheld, -⟩ := accepted_streams_survive_iff id _ _ _ _ _ hrun
  refine ⟨s', hrun, (hconserved.2 ?_).1, hheld input (by simp [heldUni, haccepting])⟩
  refine Machine.always_of_forall_mem fun e he s s' => ?_
  simp only [es, List.mem_cons, List.not_mem_nil, or_false] at he
  rcases he with rfl | rfl <;> simp [EndsUni, EndsBi, loopEvent]

/-- A keepalive while the loop reads the prologue of a stream, or the first message of a
    clipboard stream, loses the stream: it is not returned, held or in the queue. -/
theorem accepted_stream_dropped_by_keepalive :
    let s := start ⟨Vector.replicate 16 0, "user", 0, .new, []⟩ FRESH_GRANT true (.streaming 0) [0]
    let input : ClientStream := ⟨.ok ⟨.input, 1, 0⟩⟩
    let clipboard : ClipboardStream :=
      ⟨.ok ⟨.clipboard, 1, 7⟩, .ok (TypeId.CLIPBOARD_FORMATS, some ⟨7, []⟩)⟩
    let es := [ActiveEvent.openUni input, .openBi clipboard, .acceptUni, .acceptBi, .prologueBi,
      .round (.keepalive (.ok ()))]
    ∃ s', (machine id).run s es = some s' ∧
      (machine id).outputs takenUni s es = [input] ∧
      (machine id).outputs returnedUni s es ++ s'.heldUni ++ s'.incoming = [] ∧
      (machine id).outputs takenBi s es = [clipboard] ∧
      (machine id).outputs returnedBi s es ++ s'.heldBi ++ s'.incomingBi = [] := by
  intro s input clipboard es
  have hall : ((machine id).run s es).map (fun s' =>
      (s'.accepting, s'.incoming, s'.acceptingBi, s'.incomingBi)) = some (none, [], none, []) := by
    simp only [s, es, input, clipboard]
    rfl
  obtain ⟨s', hrun, hall⟩ := Option.map_eq_some_iff.1 hall
  simp only [Prod.mk.injEq] at hall
  obtain ⟨haccepting, hincoming, hacceptingBi, hincomingBi⟩ := hall
  refine ⟨s', hrun, ?_, ?_, ?_, ?_⟩
  · rfl
  · rw [heldUni, haccepting, hincoming]
    rfl
  · rfl
  · rw [heldBi, hacceptingBi, hincomingBi]
    rfl

end Sardp.ActiveSession
