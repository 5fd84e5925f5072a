import Sardp.Input.InputSession
import Sardp.Input.MacInjection
import Sardp.Input.TextPacing
import Sardp.Input.WinInjection
import Sardp.Library.Progress
import Sardp.Library.Workers

/-!
# The thread that injects the input

What the loop of a session emits is given to the system by a thread of its own (`WorkerHandle` in
`worker_handle.rs`, `InputInjector` in `inject.rs` of `sardp-win` and of `sardp-mac`), which works
through its commands while the session goes on. When the input is dropped, everything that is down
is released, the channel is closed, and the thread joined.

So by the time the drop has returned, the system has been given every command, each once and in
order, and no key or button is down (`InjectionThread.released_on_windows`,
`InjectionThread.released_on_macos`): if only the system takes the events that release one, and, on
Windows, the thread has not panicked at a position of the mouse. And it does return, for the thread
has only so many commands left (`InjectionThread.Inv.mayReach_joined`).
-/

namespace Sardp

open Histories

/-! ## Sessions and their threads -/

theorem InputInjection.emitted_handle (s : InputInjection) (message : InputMessage)
    (permissionSm : PermissionSm) : s.emitted <+: (s.handle message permissionSm).2.emitted := by
  cases message with
  | key key =>
    rw [handle_key]
    dsimp only
    split_ifs
    · exact List.prefix_append _ _
    · exact List.prefix_rfl
  | mouseButton b =>
    rw [handle_mouseButton]
    split_ifs
    · exact (List.prefix_append _ _).trans (List.prefix_append _ _)
    · exact List.prefix_rfl
  | text text =>
    simp only [handle]
    split
    · exact List.prefix_rfl
    · split_ifs
      · exact List.prefix_rfl
      · exact List.prefix_append _ _
  | imeComposition composition =>
    simp only [handle]
    split <;> exact List.prefix_rfl
  | mouseMove | wheel =>
    simp only [handle]
    split_ifs
    · exact List.prefix_rfl
    · exact List.prefix_append _ _
  | imeModeChange change => exact List.prefix_rfl

theorem InputInjection.emitted_releaseAll (s : InputInjection) :
    s.emitted <+: s.releaseAll.emitted := by
  rw [releaseAll_eq]
  exact List.prefix_append _ _

/-- The sink is only given more, and nothing once the input has been dropped. -/
theorem InputSession.emitted_of_step {s s' : InputSession} {e : InputSessionEvent}
    (h : machine.step s e = some s') :
    s.phase ≠ .dropped ∧ s.injection.emitted <+: s'.injection.emitted := by
  cases e with
  | round e =>
    simp only [machine, InputSession.step, Option.ite_none_right_eq_some, Option.map_eq_some_iff]
      at h
    obtain ⟨⟨hphase, -⟩, session, -, rfl⟩ := h
    exact ⟨by simp [hphase], List.prefix_rfl⟩
  | message message =>
    simp only [machine, InputSession.step, Option.ite_none_right_eq_some, Option.map_eq_some_iff]
      at h
    obtain ⟨hphase, session, -, rfl⟩ := h
    exact ⟨by simp [hphase], s.injection.emitted_handle message _⟩
  | streamEnded =>
    simp only [machine, InputSession.step, Option.ite_none_right_eq_some, Option.map_eq_some_iff]
      at h
    obtain ⟨hphase, session, -, rfl⟩ := h
    exact ⟨by simp [hphase], s.injection.emitted_releaseAll⟩
  | returned =>
    obtain ⟨⟨hphase, -⟩, h⟩ := Option.ite_none_right_eq_some.1 h
    exact ⟨by simp [hphase], Option.some.inj h ▸ s.injection.emitted_releaseAll⟩
  | dropped =>
    obtain ⟨hphase, h⟩ := Option.ite_none_right_eq_some.1 h
    exact ⟨hphase, Option.some.inj h ▸ s.injection.emitted_releaseAll⟩

/-- A session, with the thread that performs its commands. -/
structure InjectionThread (W C : Type) where
  session : InputSession
  worker : Worker W C
  /-- The drop of the input has returned. -/
  joined : Bool

inductive InjectionThreadEvent (I : Type)
  /-- A step of the session. -/
  | session (e : InputSessionEvent)
  /-- A turn of the thread, with what it meets. -/
  | turn (i : I)
  /-- The thread is joined. -/
  | join

namespace InjectionThread

variable {W C I : Type} (command : SinkEvent → C) (perform : W → C → I → Option W)

/-- The commands the sink is given in a step of the session. -/
def given (before after : InputSession) : List C :=
  (after.injection.emitted.drop before.injection.emitted.length).map command

/-- The thread is fed the commands; once the input has been dropped, its channel is closed. -/
def feed (w : Worker W C) (before after : InputSession) : Worker W C :=
  if after.phase = .dropped then (w.feed (given command before after)).close
  else w.feed (given command before after)

def start (session : InputSession) (state : W) : InjectionThread W C :=
  ⟨session, .start state, false⟩

def step (s : InjectionThread W C) : InjectionThreadEvent I → Option (InjectionThread W C)
  | .session e => (InputSession.machine.step s.session e).map fun session =>
      { s with session, worker := feed command s.worker s.session session }
  | .turn i => (s.worker.turn perform i).map fun worker => { s with worker }
  | .join =>
    if s.session.phase = .dropped ∧ s.worker.place ≠ .working ∧ s.joined = false then
      some { s with joined := true }
    else none

/-- The steps as a machine. -/
def machine : Machine (InjectionThread W C) (InjectionThreadEvent I) := ⟨step command perform⟩

/-- The thread is fed what the session emits, and its channel open until the input is dropped. -/
structure Inv (state : W) (s : InjectionThread W C) : Prop where
  session : s.session.Inv
  fed : s.worker.Fed perform state (s.session.injection.emitted.map command)
  closed : s.worker.closed = true ↔ s.session.phase = .dropped
  joined : s.joined = true → s.session.phase = .dropped ∧ s.worker.place ≠ .working

variable {command perform} {state : W} {s s' : InjectionThread W C}
  {es : List (InjectionThreadEvent I)}

theorem Inv.session_step (h : s.Inv command perform state) {e : InputSessionEvent}
    {session : InputSession} (hstep : InputSession.machine.step s.session e = some session) :
    Inv command perform state
      { s with session, worker := feed command s.worker s.session session } := by
  obtain ⟨hphase, hprefix⟩ := InputSession.emitted_of_step hstep
  have hopen : s.worker.closed = false := Bool.eq_false_iff.2 fun hclosed =>
    hphase (h.closed.1 hclosed)
  have hemitted : session.injection.emitted.map command =
      s.session.injection.emitted.map command ++ given command s.session session := by
    obtain ⟨more, hmore⟩ := hprefix
    rw [given, ← hmore, List.drop_left, List.map_append]
  have hfed := h.fed.feed hopen (given command s.session session)
  rw [← hemitted] at hfed
  have hclosed : (s.worker.feed (given command s.session session)).closed = false := by
    unfold Worker.feed
    split_ifs <;> exact hopen
  refine ⟨h.session.step hstep, ?_, ?_, fun hjoined => absurd (h.joined hjoined).1 hphase⟩
  · unfold feed
    split_ifs
    · exact hfed.close
    · exact hfed
  · unfold feed
    split_ifs with hdropped
    · exact iff_of_true rfl hdropped
    · exact iff_of_false (by simp [hclosed]) hdropped

theorem Inv.step (h : s.Inv command perform state) {e : InjectionThreadEvent I}
    (hstep : (machine command perform).step s e = some s') : s'.Inv command perform state := by
  cases e with
  | session e =>
    obtain ⟨session, hsession, rfl⟩ := Option.map_eq_some_iff.1 hstep
    exact h.session_step hsession
  | turn i =>
    obtain ⟨worker, hturn, rfl⟩ := Option.map_eq_some_iff.1 hstep
    have hclosed : worker.closed = s.worker.closed ∧ s.worker.place = .working := by
      obtain ⟨hw, ⟨-, -, -, ⟨-, -, rfl⟩ | ⟨-, rfl⟩⟩ | ⟨-, -, rfl⟩⟩ := Worker.turn_cases hturn
      · exact ⟨rfl, hw⟩
      · exact ⟨rfl, hw⟩
      · exact ⟨rfl, hw⟩
    refine ⟨h.session, h.fed.turn hturn, hclosed.1 ▸ h.closed, fun hjoined => ?_⟩
    exact absurd hclosed.2 (h.joined hjoined).2
  | join =>
    obtain ⟨⟨hphase, hplace, -⟩, hstep⟩ := Option.ite_none_right_eq_some.1 hstep
    cases hstep
    exact ⟨h.session, h.fed, h.closed, fun _ => ⟨hphase, hplace⟩⟩

theorem inv_start {session : InputSession} (hsession : session.Inv)
    (hemitted : session.injection.emitted = []) (hphase : session.phase ≠ .dropped) (state : W) :
    (start session state).Inv command perform state where
  session := hsession
  fed := by
    rw [start, hemitted]
    exact Worker.fed_start perform state
  closed := iff_of_false (by simp [start, Worker.start]) hphase
  joined hjoined := by cases hjoined

/-- The event is in the hands of the thread, or of who joins it. -/
def OfThread : InjectionThreadEvent I → Prop
  | .session _ => False
  | .turn _ | .join => True

/-- Once the input has been dropped, the thread comes to its end, and is joined. -/
theorem Inv.mayReach_joined [Nonempty I] (h : s.Inv command perform state)
    (hdropped : s.session.phase = .dropped) :
    (machine command perform).MayReach OfThread (fun s => s.joined = true) s := by
  refine Machine.mayReach_of_measure
    (I := fun s => s.session.phase = .dropped ∧ s.worker.closed = true)
    (fun s => s.worker.turns + if s.joined then 0 else 1) (fun s hs hjoined => ?_)
    ⟨hdropped, h.closed.2 hdropped⟩
  by_cases hw : s.worker.place = .working
  · obtain ⟨worker, hturn, hclosed, hlt⟩ :=
      Worker.exists_turn perform hw hs.2 (Classical.arbitrary I)
    exact ⟨.turn (Classical.arbitrary I), { s with worker }, trivial,
      Option.map_eq_some_iff.2 ⟨worker, hturn, rfl⟩, ⟨hs.1, hclosed⟩, Nat.add_lt_add_right hlt _⟩
  · have hfalse : s.joined = false := Bool.eq_false_iff.2 hjoined
    refine ⟨.join, { s with joined := true }, trivial, if_pos ⟨hs.1, hw, hfalse⟩, hs, ?_⟩
    simp [hfalse]

/-- The commands that have been performed, and those of the session. -/
theorem Inv.performed_of_joined (h : s.Inv command perform state) (hjoined : s.joined = true) :
    ∃ done : List (C × I), Worker.performed perform state done = some s.worker.state ∧
      (s.worker.place = .gone ∧
          s.session.injection.emitted.map command = done.map Prod.fst ∨
        s.worker.place = .broken ∧ ∃ c i,
          done.map Prod.fst ++ [c] <+: s.session.injection.emitted.map command ∧
            perform s.worker.state c i = none) := by
  obtain ⟨done, hdone, hplace⟩ := h.fed
  refine ⟨done, hdone, ?_⟩
  cases hw : s.worker.place with
  | working => exact absurd hw (h.joined hjoined).2
  | gone =>
    simp only [hw] at hplace
    exact .inl ⟨rfl, hplace.1⟩
  | broken =>
    simp only [hw] at hplace
    exact .inr ⟨rfl, hplace⟩

/-- If all commands have been performed, and the system has taken the releases, then nothing is
    down. -/
theorem Inv.not_down (h : s.Inv command perform state) (hjoined : s.joined = true)
    {done : List (C × I)} (hdone : Worker.performed perform state done = some s.worker.state)
    (hall : s.session.injection.emitted.map command = done.map Prod.fst) {O K' : Type}
    {signal : C → Release → Option Bool} (hsignal : ∀ e k, signal (command e) k = e.signal k)
    {signal' : O → K' → Option Bool} {names : Release → K' → Prop} {calls : W → List O}
    (hstart : calls state = [])
    (htells : ∀ s c i s', perform s c i = some s' →
      ∃ more, calls s' = calls s ++ more ∧ Worker.Says signal signal' names c more)
    {takes : ℕ → Bool} (htakes : Worker.TakesReleases signal' takes (calls s.worker.state))
    (k' : K') : ¬Down signal' (Worker.taken takes (calls s.worker.state)) k' := by
  intro hdown
  obtain ⟨k, -, hk⟩ := Worker.exists_down_of_performed hstart htells hdone htakes hdown
  have hsame : last signal (done.map Prod.fst) k =
      last SinkEvent.signal s.session.injection.emitted k := by
    rw [← hall, last, last, List.filterMap_map]
    simp only [Function.comp_def, hsignal]
  rw [Down, hsame] at hk
  refine h.session.up (.inr ?_) k hk
  rw [(h.joined hjoined).1]
  intro hlooping
  cases hlooping

end InjectionThread

/-! ## Windows -/

namespace WinInput

/-- A key or button as Windows knows it. -/
inductive WinKey
  | key (scancode : ℕ) (extended : Bool)
  | button (button : ℕ)

/-- The key or button that Windows presses or releases with an event. -/
def Input.signal : Input → WinKey → Option Bool
  | .keyboard scan flags, .key scancode extended =>
    if .scancode ∈ flags ∧ scan = scancode ∧ decide (.extendedKey ∈ flags) = extended then
      some (.keyUp ∉ flags)
    else none
  | .mouse _ _ data flags, .button button =>
    if (buttonFlags button true).any fun x => flags = [x.1] ∧ data = x.2 then some true
    else if (buttonFlags button false).any fun x => flags = [x.1] ∧ data = x.2 then some false
    else none
  | _, _ => none

/-- The last that Windows is told of a key or button in a call. -/
def callSignal (call : List Input) (k : WinKey) : Option Bool := last Input.signal call k

/-- The key or button a command presses or releases. -/
def InjectCommand.signal (c : InjectCommand) (k : Release) : Option Bool :=
  match c with
  | .key hidUsage down => if k = .key hidUsage then some down else none
  | .mouseButton button down => if k = .button button then some down else none
  | _ => none

/-- What Windows has for a key or button. -/
def Names : Release → WinKey → Prop
  | .key hidUsage, .key scancode extended => hidToScancode hidUsage = some (scancode, extended)
  | .button button, .button button' => button = button' ∧ (buttonFlags button true).isSome
  | _, _ => False

variable {win : Windows} {s s' : Injector} {outputOrigin : ℤ × ℤ} {mode : Overflow}
  {c : InjectCommand} {ok : Bool}

@[simp] theorem callSignal_singleton (input : Input) (k : WinKey) :
    callSignal [input] k = input.signal k := by
  rw [callSignal, last_cons, last_nil, Option.none_or]

/-- The units of a text are no keys. -/
theorem calls_typeUnits (win : Windows) (s : Injector) (units : List ℕ) :
    ∃ more, (typeUnits win s units).2.calls = s.calls ++ more ∧
      ∀ call ∈ more, ∀ k, callSignal call k = none := by
  induction units generalizing s with
  | nil => exact ⟨[], (List.append_nil _).symm, by simp⟩
  | cons unit units ih =>
    have hnone (k : WinKey) : callSignal
        [.keyboard unit [.unicode], .keyboard unit [.unicode, .keyUp]] k = none := by
      cases k <;> simp [callSignal, last_cons, Input.signal]
    simp only [typeUnits, Injector.sendInputs]
    split
    · next s' hsent =>
      cases (Prod.mk.inj hsent).2
      obtain ⟨more, hmore, hall⟩ := ih { s with calls := s.calls ++
        [[.keyboard unit [.unicode], .keyboard unit [.unicode, .keyUp]]] }
      refine ⟨_ :: more, by rw [hmore, List.append_assoc]; rfl, ?_⟩
      exact List.forall_mem_cons.2 ⟨hnone, hall⟩
    · next s' hsent =>
      cases (Prod.mk.inj hsent).2
      exact ⟨[_], rfl, List.forall_mem_singleton.2 hnone⟩

theorem mem_of_buttonFlags {button : ℕ} {down : Bool} {x : MouseFlag × BitVec 32}
    (h : buttonFlags button down = some x) : button ∈ [1, 2, 3, 4, 5] := by
  unfold buttonFlags at h
  split_ifs at h with h₁ h₂ h₃ h₄ h₅
  all_goals simp_all [Button.LEFT, Button.RIGHT, Button.MIDDLE, Button.X1, Button.X2]

/-- The flags of different buttons, or of the two directions, are different. -/
theorem buttonFlags_inj {button button' : ℕ} {down down' : Bool} {x : MouseFlag × BitVec 32}
    (h : buttonFlags button down = some x) (h' : buttonFlags button' down' = some x) :
    button = button' ∧ down = down' := by
  have hall : ∀ button ∈ [1, 2, 3, 4, 5], ∀ button' ∈ [1, 2, 3, 4, 5], ∀ down down',
      buttonFlags button down = buttonFlags button' down' → button = button' ∧ down = down' := by
    decide
  exact hall _ (mem_of_buttonFlags h) _ (mem_of_buttonFlags h') _ _ (h.trans h'.symm)

/-- A button is pressed and released by the event of its own flag. -/
theorem signal_button {button : ℕ} {down : Bool} {flag : MouseFlag} {data : BitVec 32}
    (h : buttonFlags button down = some (flag, data)) (k : WinKey) :
    (Input.mouse 0 0 data [flag]).signal k =
      match k with
      | .key _ _ => none
      | .button button' => if button' = button then some down else none := by
  cases k with
  | key scancode extended => rfl
  | button button' =>
    have hany (down' : Bool) : ((buttonFlags button' down').any fun x =>
        [flag] = [x.1] ∧ data = x.2) = true ↔ button' = button ∧ down' = down := by
      rw [Option.any_eq_true]
      constructor
      · rintro ⟨x, hx, hsame⟩
        obtain ⟨hflag, hdata⟩ := of_decide_eq_true hsame
        cases hflag
        cases hdata
        exact buttonFlags_inj hx h
      · rintro ⟨rfl, rfl⟩
        exact ⟨_, h, by simp⟩
    simp only [Input.signal, hany]
    by_cases hbutton : button' = button
    · cases down <;> simp [hbutton]
    · simp [hbutton]

/-- A key is pressed and released by the event of its scan code. -/
theorem signal_key (scancode : ℕ) (extended down : Bool) (k : WinKey) :
    (Input.keyboard scancode (.scancode :: (if extended then [.extendedKey] else []) ++
      if down then [] else [.keyUp])).signal k =
      match k with
      | .key scancode' extended' =>
        if scancode' = scancode ∧ extended' = extended then some down else none
      | .button _ => none := by
  cases k with
  | key scancode' extended' =>
    cases extended <;> cases down <;> simp [Input.signal, eq_comm]
  | button button => rfl

/-- Other events of the mouse are about no button. -/
theorem signal_mouse_eq_none {dx dy : ℤ} {data : BitVec 32} {flags : List MouseFlag}
    (h : ∀ button down x, buttonFlags button down = some x → flags ≠ [x.1]) (k : WinKey) :
    (Input.mouse dx dy data flags).signal k = none := by
  cases k with
  | key scancode extended => rfl
  | button button =>
    have hany (down : Bool) : ¬((buttonFlags button down).any fun x =>
        flags = [x.1] ∧ data = x.2) = true := by
      rw [Option.any_eq_true]
      rintro ⟨x, hx, hsame⟩
      exact h button down x hx (of_decide_eq_true hsame).1
    rw [Input.signal, if_neg (hany true), if_neg (hany false)]

theorem callSignal_wheelInputs (dx dy : ℤ) (k : WinKey) :
    callSignal (wheelInputs dx dy) k = none := by
  have hwheel : ∀ button ∈ [1, 2, 3, 4, 5], ∀ down, ∀ x ∈ buttonFlags button down,
      x.1 ≠ .wheel ∧ x.1 ≠ .hWheel := by decide
  have hflags (button : ℕ) (down : Bool) (x : MouseFlag × BitVec 32)
      (hx : buttonFlags button down = some x) : x.1 ≠ .wheel ∧ x.1 ≠ .hWheel :=
    hwheel button (mem_of_buttonFlags hx) down x hx
  refine Worker.last_eq_none fun input hinput => ?_
  rcases List.mem_append.1 hinput with hinput | hinput
  · split_ifs at hinput with hdy
    · rw [List.mem_singleton.1 hinput]
      refine signal_mouse_eq_none (fun _ _ x hx heq => ?_) k
      exact (hflags _ _ x hx).1 (List.cons.inj heq).1.symm
    · cases hinput
  · split_ifs at hinput with hdx
    · rw [List.mem_singleton.1 hinput]
      refine signal_mouse_eq_none (fun _ _ x hx heq => ?_) k
      exact (hflags _ _ x hx).2 (List.cons.inj heq).1.symm
    · cases hinput

/-- A key that Windows has is pressed and released as such. -/
theorem says_key {hidUsage scancode : ℕ} {extended : Bool}
    (h : hidToScancode hidUsage = some (scancode, extended)) (down : Bool) :
    Worker.Says InjectCommand.signal callSignal Names (.key hidUsage down)
      [[.keyboard scancode (.scancode :: (if extended then [.extendedKey] else []) ++
        if down then [] else [.keyUp])]] := by
  refine .inl ⟨_, rfl, fun k' b => ?_⟩
  rw [callSignal_singleton, signal_key]
  cases k' with
  | key scancode' extended' =>
    constructor
    · intro hsignal
      obtain ⟨⟨rfl, rfl⟩, hdown⟩ := Option.ite_none_right_eq_some.1 hsignal
      exact ⟨.key hidUsage, h, (if_pos rfl).trans hdown⟩
    · rintro ⟨k, hk, hsignal⟩
      obtain ⟨rfl, hdown⟩ := Option.ite_none_right_eq_some.1 hsignal
      cases h.symm.trans hk
      exact (if_pos ⟨rfl, rfl⟩).trans hdown
  | button button =>
    constructor
    · intro hsignal
      cases hsignal
    · rintro ⟨k, hk, hsignal⟩
      obtain ⟨rfl, -⟩ := Option.ite_none_right_eq_some.1 hsignal
      cases hk

/-- A button that Windows has is pressed and released as such. -/
theorem says_button {button : ℕ} {down : Bool} {flag : MouseFlag} {data : BitVec 32}
    (h : buttonFlags button down = some (flag, data)) :
    Worker.Says InjectCommand.signal callSignal Names (.mouseButton button down)
      [[.mouse 0 0 data [flag]]] := by
  have hsome : (buttonFlags button true).isSome := by
    have hall : ∀ button ∈ [1, 2, 3, 4, 5], (buttonFlags button true).isSome := by decide
    exact hall button (mem_of_buttonFlags h)
  refine .inl ⟨_, rfl, fun k' b => ?_⟩
  rw [callSignal_singleton, signal_button h]
  cases k' with
  | key scancode extended =>
    constructor
    · intro hsignal
      cases hsignal
    · rintro ⟨k, hk, hsignal⟩
      obtain ⟨rfl, -⟩ := Option.ite_none_right_eq_some.1 hsignal
      cases hk
  | button button' =>
    constructor
    · intro hsignal
      obtain ⟨rfl, hdown⟩ := Option.ite_none_right_eq_some.1 hsignal
      exact ⟨.button button', ⟨rfl, hsome⟩, (if_pos rfl).trans hdown⟩
    · rintro ⟨k, hk, hsignal⟩
      obtain ⟨rfl, hdown⟩ := Option.ite_none_right_eq_some.1 hsignal
      obtain ⟨rfl, -⟩ := hk
      exact (if_pos rfl).trans hdown

/-- The calls of a command say what it does to its key or button, in the terms of Windows. -/
theorem says_perform (h : perform mode win outputOrigin s c = some (ok, s')) :
    ∃ more, s'.calls = s.calls ++ more ∧
      Worker.Says InjectCommand.signal callSignal Names c more := by
  cases c with
  | key hidUsage down =>
    simp only [perform] at h
    split at h
    · next hscancode =>
      cases h
      refine ⟨[], (List.append_nil _).symm, .inr ⟨by simp, fun k k' hk => ?_⟩⟩
      -- a key that Windows does not have
      refine if_neg fun hsame => ?_
      subst hsame
      cases k' with
      | key scancode extended => cases hscancode.symm.trans hk
      | button button => cases hk
    · next scancode extended hscancode =>
      cases h
      exact ⟨_, rfl, says_key hscancode down⟩
  | text text =>
    simp only [perform, Option.some.injEq] at h
    obtain ⟨more, hmore, hall⟩ := calls_typeUnits win s (Utf16.encode text.toList)
    rw [h] at hmore
    exact ⟨more, hmore, .inr ⟨hall, fun _ _ _ => rfl⟩⟩
  | mouseMove x y =>
    obtain ⟨absX, -, h⟩ := Option.bind_eq_some_iff.1 h
    obtain ⟨absY, -, h⟩ := Option.bind_eq_some_iff.1 h
    cases h
    refine ⟨_, rfl, .inr ⟨List.forall_mem_singleton.2 fun k => ?_, fun _ _ _ => rfl⟩⟩
    rw [callSignal_singleton]
    exact signal_mouse_eq_none (fun _ _ _ _ => by simp) k
  | mouseButton button down =>
    simp only [perform] at h
    split at h
    · next hflags =>
      cases h
      refine ⟨[], (List.append_nil _).symm, .inr ⟨by simp, fun k k' hk => ?_⟩⟩
      -- a button that Windows does not have
      refine if_neg fun hsame => ?_
      subst hsame
      cases k' with
      | key scancode extended => cases hk
      | button button' =>
        obtain ⟨x, hx⟩ := Option.isSome_iff_exists.1 hk.2
        have hall : ∀ button ∈ [1, 2, 3, 4, 5], ∀ down, buttonFlags button down ≠ none := by decide
        exact hall button (mem_of_buttonFlags hx) down hflags
    · next flag data hflags =>
      cases h
      exact ⟨_, rfl, says_button hflags⟩
  | wheel dx dy =>
    simp only [perform] at h
    split_ifs at h with hinputs
    · cases h
      exact ⟨[], (List.append_nil _).symm, .inr ⟨by simp, fun _ _ _ => rfl⟩⟩
    · cases h
      exact ⟨_, rfl, .inr ⟨List.forall_mem_singleton.2 (callSignal_wheelInputs dx dy),
        fun _ _ _ => rfl⟩⟩

/-- A command as the thread performs it, whether it succeeds or not. -/
def performUnit (mode : Overflow) (win : Windows) (outputOrigin : ℤ × ℤ) (s : Injector)
    (c : InjectCommand) (_ : Unit) : Option Injector :=
  (perform mode win outputOrigin s c).map Prod.snd

/-- The thread gets through the commands that it has performed. -/
theorem work_of_performed {done : List (InjectCommand × Unit)}
    (h : Worker.performed (performUnit mode win outputOrigin) s done = some s') :
    work mode win outputOrigin s (done.map Prod.fst) = (s', true) := by
  induction done generalizing s with
  | nil =>
    cases h
    rfl
  | cons x done ih =>
    obtain ⟨next, hnext, hrest⟩ := Option.bind_eq_some_iff.1 h
    obtain ⟨⟨ok, _⟩, hperform, rfl⟩ := Option.map_eq_some_iff.1 hnext
    rw [List.map_cons, work_of_some hperform]
    exact ih hrest

/-- Only a position panics. -/
theorem exists_position_of_panic (h : perform mode win outputOrigin s c = none) :
    ∃ x y, c = .mouseMove x y := by
  cases c with
  | mouseMove x y => exact ⟨x, y, rfl⟩
  | key | mouseButton =>
    simp only [perform] at h
    split at h <;> cases h
  | text text => cases h
  | wheel dx dy =>
    simp only [perform] at h
    split_ifs at h

end WinInput

namespace InjectionThread

open WinInput

/-- In any interleaving of a session with the thread that injects its input on Windows: once the
    input has been dropped, the thread comes to its end, and is joined; and then, unless it has
    panicked at a position of the mouse, it has performed every command of the session, each once
    and in order, and no key or button is down on Windows, if that has taken the events that release
    one. -/
theorem released_on_windows (mode : Overflow) (win : Windows) (outputOrigin : ℤ × ℤ)
    {grantedPermissions : PermissionSet} {synthetic : Bool} {videoChannel : VideoChannel}
    {opened : List ℕ} {es : List (InjectionThreadEvent Unit)}
    {s : InjectionThread Injector InjectCommand}
    (hrun : (machine SinkEvent.command (performUnit mode win outputOrigin)).run
      (start (.start grantedPermissions synthetic videoChannel opened) .new) es = some s) :
    (s.session.phase = .dropped → (machine SinkEvent.command
      (performUnit mode win outputOrigin)).MayReach OfThread (fun s => s.joined = true) s) ∧
    (s.joined = true →
      (work mode win outputOrigin .new (s.session.injection.emitted.map SinkEvent.command) =
          (s.worker.state, true) ∧
        (Worker.TakesReleases callSignal win.sendInput s.worker.state.calls →
          ∀ k, ¬Down callSignal (Worker.taken win.sendInput s.worker.state.calls) k)) ∨
      ∃ before x y,
        before ++ [.mouseMove x y] <+: s.session.injection.emitted.map SinkEvent.command ∧
        work mode win outputOrigin .new before = (s.worker.state, true) ∧
        perform mode win outputOrigin s.worker.state (.mouseMove x y) = none) := by
  have hinv : s.Inv SinkEvent.command (performUnit mode win outputOrigin) .new :=
    Machine.run_invariant (fun _ _ _ h hstep => h.step hstep)
      (inv_start (InputSession.inv_start ..) rfl (by simp [InputSession.start]) _) hrun
  refine ⟨hinv.mayReach_joined, fun hjoined => ?_⟩
  obtain ⟨done, hdone, ⟨-, hall⟩ | ⟨-, c, i, hprefix, hpanic⟩⟩ := hinv.performed_of_joined hjoined
  · refine .inl ⟨hall ▸ work_of_performed hdone, fun htakes => ?_⟩
    have hsignal (e : SinkEvent) (k : Release) : e.command.signal k = e.signal k := by
      cases e <;> rfl
    have htells (s : Injector) (c : InjectCommand) (i : Unit) (s' : Injector)
        (h : performUnit mode win outputOrigin s c i = some s') :
        ∃ more, s'.calls = s.calls ++ more ∧
          Worker.Says InjectCommand.signal callSignal Names c more := by
      obtain ⟨⟨ok, _⟩, hperform, rfl⟩ := Option.map_eq_some_iff.1 h
      exact says_perform hperform
    exact hinv.not_down hjoined hdone hall hsignal rfl htells htakes
  · have hnone := Option.map_eq_none_iff.1 hpanic
    obtain ⟨x, y, rfl⟩ := exists_position_of_panic hnone
    exact .inr ⟨_, x, y, hprefix, work_of_performed hdone, hnone⟩

/-- A key is pressed, and the input dropped: the thread is a command behind when its channel is
    closed. -/
def droppedWithKeyDown {I : Type} (i : I) : List (InjectionThreadEvent I) :=
  [.session (.round (.incomingUni (.ok .input) (.ok ()))),
    .session (.message (.key ⟨⟨1⟩, true, 0xE0, 0, KeyModifier.CTRL⟩)), .session .dropped, .turn i,
    .turn i, .turn i, .join]

theorem released_on_windows_dropped :
    let win : Windows := ⟨fun _ => true, fun _ => ⟨0, 0, 3840, 1080⟩⟩
    ∃ s, (machine SinkEvent.command (performUnit .panicking win (1920, 0))).run
        (start (.start Bit.INPUT_KEYBOARD true (.new 0) []) .new) (droppedWithKeyDown ()) = some s ∧
      s.worker.state.calls = [[.keyboard 0x1D [.scancode]], [.keyboard 0x1D [.scancode, .keyUp]]] ∧
      ∀ k, ¬Down callSignal (Worker.taken win.sendInput s.worker.state.calls) k := by
  intro win
  obtain ⟨s, hrun, hjoined, hcalls, hemitted⟩ :
      ∃ s, (machine SinkEvent.command (performUnit .panicking win (1920, 0))).run
        (start (.start Bit.INPUT_KEYBOARD true (.new 0) []) .new) (droppedWithKeyDown ()) = some s ∧
      s.joined = true ∧
      s.worker.state.calls = [[.keyboard 0x1D [.scancode]], [.keyboard 0x1D [.scancode, .keyUp]]] ∧
      s.session.injection.emitted = [.key 0xE0 true, .key 0xE0 false] := ⟨_, rfl, rfl, rfl, rfl⟩
  refine ⟨s, hrun, hcalls, ?_⟩
  rcases (released_on_windows .panicking win (1920, 0) hrun).2 hjoined with
    ⟨-, hup⟩ | ⟨before, x, y, hprefix, -⟩
  · exact hup fun _ _ _ _ => rfl
  · rw [hemitted] at hprefix
    have hmem := hprefix.subset (List.mem_append_right before (List.mem_singleton_self _))
    simp [SinkEvent.command] at hmem

end InjectionThread

/-! ## macOS -/

namespace MacInput

/-- A command to the thread. -/
inductive InjectCommand
  | key (hidUsage : ℕ) (down : Bool)
  | text (text : String)
  /-- A position in pixels of the captured output. -/
  | mouseMove (x y : ℤ)
  | mouseButton (button : ℕ) (down : Bool)
  | wheel (dx dy : ℤ)
  deriving DecidableEq

/-- A key or button as macOS knows it. -/
inductive MacKey
  | key (keyCode : ℕ)
  | button (button : ℕ)

/-- The keyboard and the mouse, and the calls with what has been posted. -/
structure Injector (Point : Type) where
  input : InputState Point
  calls : List (Post Point)

variable {Point : Type}

/-- What a command is to macOS. -/
def InputState.command (s : InputState Point) (nowUs : ℕ) :
    InjectCommand → InputState Point × Post Point
  | .key hidUsage down => s.key hidUsage down
  | .text text => s.text text
  | .mouseMove x y => s.mouseMove x y
  | .mouseButton button down => s.mouseButton button down nowUs
  | .wheel dx dy => s.wheel dx dy

namespace Injector

variable (takes : ℕ → Bool)

/-- A call for every cluster, until one fails. -/
def postText : List (Post Point) → List (List Char) → List (Post Point)
  | calls, [] => calls
  | calls, cluster :: clusters =>
    if takes calls.length then postText (calls ++ [.text (String.ofList cluster)]) clusters
    else calls ++ [.text (String.ofList cluster)]

/-- Posting an event, by one call, by those for a text, or by none; `none` if dividing the text
    panics. -/
def post (s : Injector Point) : Post Point → Option (Injector Point)
  | .nothing => some s
  | .text text => (splitGraphemes text.toList).map fun clusters =>
      { s with calls := postText takes s.calls clusters }
  | post => some { s with calls := s.calls ++ [post] }

/-- A command as the thread performs it, whether it succeeds or not. -/
def perform (s : Injector Point) (c : InjectCommand) (nowUs : ℕ) : Option (Injector Point) :=
  post takes { s with input := (s.input.command nowUs c).1 } (s.input.command nowUs c).2

end Injector

/-- The key or button that macOS presses or releases with an event. -/
def Post.signal (post : Post Point) (k : MacKey) : Option Bool :=
  match post, k with
  | .key keyCode down _, .key keyCode' => if keyCode' = keyCode then some down else none
  | .mouse ⟨.down, button, _, _, _⟩, .button button' => if button' = button then some true else none
  | .mouse ⟨.up, button, _, _, _⟩, .button button' => if button' = button then some false else none
  | _, _ => none

/-- The key or button a command presses or releases. -/
def InjectCommand.signal (c : InjectCommand) (k : Release) : Option Bool :=
  match c with
  | .key hidUsage down => if k = .key hidUsage then some down else none
  | .mouseButton button down => if k = .button button then some down else none
  | _ => none

/-- What macOS has for a key or button. -/
def Names : Release → MacKey → Prop
  | .key hidUsage, .key keyCode => hidToVirtualKey hidUsage = some keyCode
  | .button button, .button button' => cgButton button = button'
  | _, _ => False

variable {takes : ℕ → Bool} {s s' : Injector Point} {c : InjectCommand} {nowUs : ℕ}

theorem exists_postText (calls : List (Post Point)) (clusters : List (List Char)) :
    ∃ more, Injector.postText takes calls clusters = calls ++ more ∧
      ∀ post ∈ more, ∀ k, post.signal k = none := by
  induction clusters generalizing calls with
  | nil => exact ⟨[], (List.append_nil _).symm, by simp⟩
  | cons cluster clusters ih =>
    have hnone (k : MacKey) :
        (Post.text (String.ofList cluster) : Post Point).signal k = none := rfl
    rw [Injector.postText]
    split_ifs
    · obtain ⟨more, hmore, hall⟩ := ih (calls ++ [.text (String.ofList cluster)])
      refine ⟨_ :: more, by rw [hmore, List.append_assoc]; rfl, ?_⟩
      exact List.forall_mem_cons.2 ⟨hnone, hall⟩
    · exact ⟨[_], rfl, List.forall_mem_singleton.2 hnone⟩

/-- A key that macOS has is pressed and released as such. -/
theorem says_key {hidUsage keyCode : ℕ} (h : hidToVirtualKey hidUsage = some keyCode) (down : Bool)
    (flags : BitVec 64) :
    Worker.Says InjectCommand.signal Post.signal Names (.key hidUsage down)
      [(.key keyCode down flags : Post Point)] := by
  refine .inl ⟨_, rfl, fun k' b => ?_⟩
  cases k' with
  | key keyCode' =>
    constructor
    · intro hsignal
      obtain ⟨rfl, hdown⟩ := Option.ite_none_right_eq_some.1 hsignal
      exact ⟨.key hidUsage, h, (if_pos rfl).trans hdown⟩
    · rintro ⟨k, hk, hsignal⟩
      obtain ⟨rfl, hdown⟩ := Option.ite_none_right_eq_some.1 hsignal
      cases h.symm.trans hk
      exact (if_pos rfl).trans hdown
  | button button =>
    constructor
    · intro hsignal
      cases hsignal
    · rintro ⟨k, hk, hsignal⟩
      obtain ⟨rfl, -⟩ := Option.ite_none_right_eq_some.1 hsignal
      cases hk

/-- A button is pressed and released as the one that macOS has for it. -/
theorem says_button (button : ℕ) (down : Bool) (position : Point) (clickState : ℕ)
    (flags : BitVec 64) :
    Worker.Says InjectCommand.signal Post.signal Names (.mouseButton button down)
      [.mouse ⟨if down then .down else .up, cgButton button, position, clickState, flags⟩] := by
  have hpost (k : MacKey) : (Post.mouse ⟨if down then .down else .up, cgButton button, position,
      clickState, flags⟩).signal k =
        match k with
        | .key _ => none
        | .button button' => if button' = cgButton button then some down else none := by
    cases k <;> cases down <;> rfl
  refine .inl ⟨_, rfl, fun k' b => ?_⟩
  rw [hpost]
  cases k' with
  | key keyCode =>
    constructor
    · intro hsignal
      cases hsignal
    · rintro ⟨k, hk, hsignal⟩
      obtain ⟨rfl, -⟩ := Option.ite_none_right_eq_some.1 hsignal
      cases hk
  | button button' =>
    constructor
    · intro hsignal
      obtain ⟨rfl, hdown⟩ := Option.ite_none_right_eq_some.1 hsignal
      exact ⟨.button button, rfl, (if_pos rfl).trans hdown⟩
    · rintro ⟨k, hk, hsignal⟩
      obtain ⟨rfl, hdown⟩ := Option.ite_none_right_eq_some.1 hsignal
      exact (if_pos hk.symm).trans hdown

/-- An event that is about no key or button, for a command that is about none. -/
theorem says_nothing {post : Post Point} (hpost : ∀ k, post.signal k = none)
    (hc : ∀ k, c.signal k = none) :
    Worker.Says InjectCommand.signal Post.signal Names c [post] :=
  .inr ⟨List.forall_mem_singleton.2 hpost, fun k _ _ => hc k⟩

/-- The calls of a command say what it does to its key or button, in the terms of macOS. -/
theorem says_perform (h : Injector.perform takes s c nowUs = some s') :
    ∃ more, s'.calls = s.calls ++ more ∧
      Worker.Says InjectCommand.signal Post.signal Names c more := by
  cases c with
  | key hidUsage down =>
    simp only [Injector.perform, InputState.command, InputState.key] at h
    split at h
    · next hkey =>
      cases h
      refine ⟨[], (List.append_nil _).symm, .inr ⟨by simp, fun k k' hk => ?_⟩⟩
      -- a key that macOS does not have
      refine if_neg fun hsame => ?_
      subst hsame
      cases k' with
      | key keyCode => cases hkey.symm.trans hk
      | button button => cases hk
    · next keyCode hkey =>
      cases h
      exact ⟨_, rfl, says_key hkey down _⟩
  | text text =>
    simp only [Injector.perform, InputState.command, InputState.text] at h
    split_ifs at h
    · cases h
      exact ⟨[], (List.append_nil _).symm, .inr ⟨by simp, fun _ _ _ => rfl⟩⟩
    · obtain ⟨clusters, -, rfl⟩ := Option.map_eq_some_iff.1 h
      obtain ⟨more, hmore, hall⟩ := @exists_postText _ takes s.calls clusters
      exact ⟨more, hmore, .inr ⟨hall, fun _ _ _ => rfl⟩⟩
  | mouseMove x y =>
    simp only [Injector.perform, InputState.command, InputState.mouseMove] at h
    split at h
    all_goals
      cases h
      exact ⟨_, rfl, says_nothing (fun k => by cases k <;> rfl) fun _ => rfl⟩
  | mouseButton button down =>
    cases down
    all_goals
      cases h
      exact ⟨_, rfl, says_button button _ _ _ _⟩
  | wheel dx dy =>
    simp only [Injector.perform, InputState.command, InputState.wheel] at h
    split_ifs at h
    all_goals cases h
    · exact ⟨[], (List.append_nil _).symm, .inr ⟨by simp, fun _ _ _ => rfl⟩⟩
    · exact ⟨_, rfl, says_nothing (fun k => by cases k <;> rfl) fun _ => rfl⟩

/-- No command panics. -/
theorem perform_ne_none (takes : ℕ → Bool) (s : Injector Point) (c : InjectCommand) (nowUs : ℕ) :
    Injector.perform takes s c nowUs ≠ none := by
  unfold Injector.perform Injector.post
  split
  · simp
  · next text _ =>
    rw [splitGraphemes_eq_splitBy]
    simp
  · simp

end MacInput

namespace InjectionThread

open MacInput

/-- The command for an event of the sink. -/
def macCommand : SinkEvent → MacInput.InjectCommand
  | .key hidUsage down => .key hidUsage down
  | .text text => .text text
  | .mouseMove x y => .mouseMove x y
  | .mouseButton button down => .mouseButton button down
  | .wheel dx dy => .wheel dx dy

/-- In any interleaving of a session with the thread that injects its input on macOS: once the
    input has been dropped, the thread comes to its end, and is joined; and then it has performed
    every command of the session, each once and in order, and no key or button is down on macOS, if
    that has taken the events that release one. -/
theorem released_on_macos {Point : Type} (takes : ℕ → Bool) (config : InjectorConfig Point)
    {grantedPermissions : PermissionSet} {synthetic : Bool} {videoChannel : VideoChannel}
    {opened : List ℕ} {es : List (InjectionThreadEvent ℕ)}
    {s : InjectionThread (MacInput.Injector Point) MacInput.InjectCommand}
    (hrun : (machine macCommand (MacInput.Injector.perform takes)).run
      (start (.start grantedPermissions synthetic videoChannel opened) ⟨.new config, []⟩) es =
        some s) :
    (s.session.phase = .dropped → (machine macCommand (MacInput.Injector.perform takes)).MayReach
      OfThread (fun s => s.joined = true) s) ∧
    (s.joined = true → ∃ done : List (MacInput.InjectCommand × ℕ),
      s.session.injection.emitted.map macCommand = done.map Prod.fst ∧
      Worker.performed (MacInput.Injector.perform takes) ⟨.new config, []⟩ done =
        some s.worker.state ∧
      (Worker.TakesReleases Post.signal takes s.worker.state.calls →
        ∀ k, ¬Down Post.signal (Worker.taken takes s.worker.state.calls) k)) := by
  have hinv : s.Inv macCommand (MacInput.Injector.perform takes) ⟨.new config, []⟩ :=
    Machine.run_invariant (fun _ _ _ h hstep => h.step hstep)
      (inv_start (InputSession.inv_start ..) rfl (by simp [InputSession.start]) _) hrun
  refine ⟨hinv.mayReach_joined, fun hjoined => ?_⟩
  obtain ⟨done, hdone, ⟨-, hall⟩ | ⟨-, c, i, -, hpanic⟩⟩ := hinv.performed_of_joined hjoined
  · have hsignal (e : SinkEvent) (k : Release) : (macCommand e).signal k = e.signal k := by
      cases e <;> rfl
    exact ⟨done, hall, hdone, fun htakes => hinv.not_down hjoined hdone hall hsignal rfl
      (fun s c i s' h => MacInput.says_perform h) htakes⟩
  · exact absurd hpanic (perform_ne_none takes _ c i)

theorem released_on_macos_dropped :
    let config : InjectorConfig (ℤ × ℤ) := ⟨(0, 0), fun x y => (x, y), 500000, fun _ _ => true⟩
    ∃ s, (machine macCommand (MacInput.Injector.perform fun _ => true)).run
        (start (.start Bit.INPUT_KEYBOARD true (.new 0) []) ⟨.new config, []⟩)
        (droppedWithKeyDown 0) = some s ∧ s.worker.state.calls.length = 2 ∧
      ∀ k, ¬Down Post.signal (Worker.taken (fun _ => true) s.worker.state.calls) k := by
  intro config
  obtain ⟨s, hrun, hjoined, hcalls⟩ :
      ∃ s, (machine macCommand (MacInput.Injector.perform fun _ => true)).run
        (start (.start Bit.INPUT_KEYBOARD true (.new 0) []) ⟨.new config, []⟩)
        (droppedWithKeyDown 0) = some s ∧ s.joined = true ∧ s.worker.state.calls.length = 2 :=
    ⟨_, rfl, rfl, rfl⟩
  obtain ⟨-, -, -, hup⟩ := (released_on_macos (fun _ => true) config hrun).2 hjoined
  exact ⟨s, hrun, hcalls, hup fun _ _ _ _ => rfl⟩

end InjectionThread

end Sardp
