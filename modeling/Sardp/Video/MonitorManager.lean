import Mathlib.Logic.Function.Basic
import Sardp.Library.Histories
import Sardp.Video.Calls

/-!
# Monitors

A manager keeps a video channel for each monitor, and the monitor in focus
(`monitor_manager.rs`). When the focus moves, the channel it moves to goes live and the others
are paused; but a channel also goes live on its own, when an instance of it starts streaming.

* What the calls of a channel do to the states that matter here is said once for all calls that
  neither set an instance up nor move the focus (`VideoChannel.call_of_quiet`).
* The channel in focus is the only one that may be live, and is live while it has an instance
  (`MonitorManager.OneLive`). After a change of focus this goes on to hold exactly as long as
  every operation minds the focus (`MonitorManager.oneLive_iff_mindsFocus`), which no operation
  but the change itself looks at.
-/

namespace Sardp

/-- The call neither sets an instance up nor moves the focus. -/
def ChannelCall.quiet : ChannelCall → Bool
  | .markInstanceStreaming => false
  | .activate => false
  | .deactivate => false
  | _ => true

namespace VideoChannel

/-- The channel that the calls make of a new one. -/
def made (generation : ℕ) (calls : List ChannelCall) : VideoChannel :=
  calls.foldl (fun c e => (c.call e).2) (new generation)

/-- What is true of a channel whatever calls have been made. -/
structure Sound (c : VideoChannel) : Prop where
  /-- An instance whose setup has not begun is a new one. -/
  fresh : c.instanceSm.state = .created → c.instanceSm = .new
  /-- A channel with an instance has gone live, and may only have been paused since. -/
  instanced : c.HasInstance → c.channelSm.state = .live ∨ c.channelSm.state = .paused

variable {c : VideoChannel} {e : ChannelCall}

theorem sound_new (generation : ℕ) : (new generation).Sound where
  fresh _ := rfl
  instanced h := by rcases h with h | h <;> cases h

/-- The states of the channel and of its instance have not changed, or only as the instance has
    moved between streaming and congested. -/
def SameStates (c c' : VideoChannel) : Prop :=
  c'.channelSm = c.channelSm ∧
    (c'.instanceSm = c.instanceSm ∨ (c.HasInstance ∧ c'.HasInstance))

/-- The instance has been given up. -/
def GivenUp (c : VideoChannel) : Prop :=
  c.channelSm.state = .recovering ∧ c.instanceSm.state = .closed .reset

/-- A quiet call keeps the states, or gives the instance up, or makes room for a new one. -/
theorem call_of_quiet (h : e.quiet) :
    c.SameStates (c.call e).2 ∨ (c.call e).2.GivenUp ∨
      ((c.call e).2.channelSm = c.channelSm ∧ (c.call e).2.instanceSm = .new) := by
  cases e with
  | markInstanceStreaming | activate | deactivate => cases h
  | prepareReopen => exact .inr (.inr ⟨rfl, rfl⟩)
  | keyframeRequest nowUs request =>
    rcases c.onKeyframeRequest_cases nowUs request with ⟨-, t, h⟩ | ⟨-, -, h⟩ | ⟨-, -, h⟩
    · exact .inl (by simp [call, h, SameStates])
    · exact .inr (.inl (by simp [call, h, GivenUp, givenUp, withState, ChannelSm.onReset]))
    · exact .inl (by simp [call, h, SameStates])
  | feedback nowUs clientQueueDelayUs appSendQueueBytes =>
    by_cases hallowed :
      (c.judge nowUs clientQueueDelayUs appSendQueueBytes).1.allowedIn c.instanceSm.state
    · rw [call_feedback_of_allowed hallowed]
      generalize (c.judge nowUs clientQueueDelayUs appSendQueueBytes).1 = decision at hallowed ⊢
      cases decision with
      | «continue» => exact .inl ⟨rfl, .inl rfl⟩
      | enterCongested => exact .inl ⟨rfl, .inr ⟨.inl (of_decide_eq_true hallowed), .inr rfl⟩⟩
      | exitCongested => exact .inl ⟨rfl, .inr ⟨.inr (of_decide_eq_true hallowed), .inl rfl⟩⟩
      | resetStream => exact .inr (.inl ⟨rfl, rfl⟩)
    · rw [call_feedback_of_not_allowed hallowed]
      exact .inl ⟨rfl, .inl rfl⟩

/-- Setting an instance up makes the channel live, if there is one to set up. -/
theorem Sound.call_markInstanceStreaming (h : c.Sound) :
    (c.call .markInstanceStreaming).2 =
      if c.instanceSm.state = .created then
        { c with
          instanceSm := ⟨.streaming, true, true⟩, channelSm := c.channelSm.onInstanceStreaming }
      else c := by
  split_ifs with hcreated
  · simp only [call, markInstanceStreaming_eq (h.fresh hcreated)]
  · simp only [call, (markInstanceStreaming_eq_error hcreated).2]

/-- Every call keeps a channel sound. -/
theorem Sound.call (h : c.Sound) (e : ChannelCall) : (c.call e).2.Sound := by
  cases hquiet : e.quiet with
  | true =>
    rcases call_of_quiet (c := c) hquiet with ⟨hchannel, hinstance⟩ | ⟨-, hclosed⟩ | ⟨-, hnew⟩
    · constructor
      case fresh =>
        intro hcreated
        rcases hinstance with heq | ⟨-, hinstance⟩
        · rw [heq] at hcreated ⊢
          exact h.fresh hcreated
        · simp [HasInstance, hcreated] at hinstance
      case instanced =>
        intro hinst
        rw [hchannel]
        rcases hinstance with heq | ⟨hbefore, -⟩
        · exact h.instanced (by rwa [HasInstance, heq] at hinst)
        · exact h.instanced hbefore
    · exact ⟨fun hcreated => by simp [hclosed] at hcreated,
        fun hinst => by simp [HasInstance, hclosed] at hinst⟩
    · exact ⟨fun _ => hnew, fun hinst => by simp [HasInstance, hnew, VideoInstanceSm.new] at hinst⟩
  | false =>
    cases e with
    | feedback | keyframeRequest | prepareReopen => cases hquiet
    | markInstanceStreaming =>
      rw [h.call_markInstanceStreaming]
      split_ifs
      · exact ⟨fun hcreated => by simp at hcreated, fun _ => .inl rfl⟩
      · exact h
    | activate =>
      refine ⟨h.fresh, fun hinst => ?_⟩
      rcases h.instanced hinst with hstate | hstate <;>
        simp [VideoChannel.call, VideoChannel.activate, ChannelSm.activate, hstate]
    | deactivate =>
      refine ⟨h.fresh, fun hinst => ?_⟩
      rcases h.instanced hinst with hstate | hstate <;>
        simp [VideoChannel.call, VideoChannel.deactivate, ChannelSm.deactivate, hstate]

/-- A channel is sound however it has been made. -/
theorem sound_made (generation : ℕ) (calls : List ChannelCall) : (made generation calls).Sound := by
  induction calls using List.reverseRecOn with
  | nil => exact sound_new generation
  | append_singleton calls e ih =>
    rw [made, List.foldl_append]
    exact ih.call e

end VideoChannel

/-! ## The manager -/

/-- The focus was to move to a monitor that is not registered. -/
structure UnknownMonitor where
  monitorId : UInt64
  deriving DecidableEq

/-- The channels of the monitors, and the monitor in focus. -/
structure MonitorManager where
  channels : UInt64 → Option VideoChannel
  activeMonitorId : Option UInt64

namespace MonitorManager

/-- A manager without monitors. -/
def new : MonitorManager := ⟨fun _ => none, none⟩

/-- Whether the monitor is registered. -/
def isRegistered (m : MonitorManager) (monitorId : UInt64) : Bool := (m.channels monitorId).isSome

/-- Registering a monitor's channel; the first monitor has the focus. -/
def addChannel (m : MonitorManager) (monitorId : UInt64) (channel : VideoChannel) :
    MonitorManager where
  activeMonitorId := if m.activeMonitorId.isNone then some monitorId else m.activeMonitorId
  channels := Function.update m.channels monitorId (some channel)

/-- Moving the focus. -/
def setActiveMonitor (m : MonitorManager) (monitorId : UInt64) :
    Except UnknownMonitor MonitorManager :=
  if !m.isRegistered monitorId then .error ⟨monitorId⟩
  else
    .ok {
      channels := fun id => (m.channels id).map fun channel =>
        if id = monitorId then channel.activate else channel.deactivate
      activeMonitorId := some monitorId }

/-- A call of the channel of a monitor, if there is one (`channel_mut`). -/
def channelMut (m : MonitorManager) (monitorId : UInt64) (e : ChannelCall) : MonitorManager :=
  match m.channels monitorId with
  | some channel =>
    { m with channels := Function.update m.channels monitorId (some (channel.call e).2) }
  | none => m

/-- What may be done with a manager. A channel that is registered has been made by calls of its
    own before. -/
inductive Op
  | addChannel (monitorId : UInt64) (generation : ℕ) (calls : List ChannelCall)
  | setActiveMonitor (monitorId : UInt64)
  | channelMut (monitorId : UInt64) (e : ChannelCall)

/-- The manager after an operation. -/
def apply (m : MonitorManager) : Op → MonitorManager
  | .addChannel monitorId generation calls => m.addChannel monitorId (.made generation calls)
  | .setActiveMonitor monitorId =>
    match m.setActiveMonitor monitorId with
    | .ok m' => m'
    | .error _ => m
  | .channelMut monitorId e => m.channelMut monitorId e

/-- The manager after the operations. -/
def after (ops : List Op) : MonitorManager := ops.foldl apply new

/-- No channel is live but that of the monitor in focus, which is live while it has an
    instance. -/
structure OneLive (m : MonitorManager) : Prop where
  unfocused : ∀ id c, m.channels id = some c → m.activeMonitorId ≠ some id →
    c.channelSm.state ≠ .live
  focused : ∀ id c, m.channels id = some c → m.activeMonitorId = some id → c.HasInstance →
    c.channelSm.state = .live

/-- The operation minds the focus. Out of focus, no instance is set up, no paused channel is
    activated and no live channel is registered; in focus, no channel with an instance is
    deactivated and no paused channel with an instance is registered. -/
def MindsFocus (m : MonitorManager) : Op → Prop
  | .addChannel monitorId generation calls =>
    let channel := VideoChannel.made generation calls
    if m.activeMonitorId = some monitorId then
      ¬(channel.HasInstance ∧ channel.channelSm.state = .paused)
    else channel.channelSm.state ≠ .live
  | .setActiveMonitor _ => True
  | .channelMut monitorId e =>
    ∀ channel, m.channels monitorId = some channel →
      if m.activeMonitorId = some monitorId then e = .deactivate → ¬channel.HasInstance
      else (e = .markInstanceStreaming → channel.instanceSm.state ≠ .created) ∧
        (e = .activate → channel.channelSm.state ≠ .paused)

variable {m : MonitorManager} {id : UInt64} {c : VideoChannel} {e : ChannelCall} {op : Op}

/-! ## One channel at a time -/

/-- The channel may be the one of the monitor. -/
def Fits (m : MonitorManager) (id : UInt64) (c : VideoChannel) : Prop :=
  if m.activeMonitorId = some id then c.HasInstance → c.channelSm.state = .live
  else c.channelSm.state ≠ .live

theorem oneLive_iff_fits : m.OneLive ↔ ∀ id c, m.channels id = some c → m.Fits id c := by
  constructor
  · intro h id c hc
    rw [Fits]
    split_ifs with hactive
    · exact h.focused id c hc hactive
    · exact h.unfocused id c hc hactive
  · intro h
    refine ⟨fun id c hc hactive => ?_, fun id c hc hactive => ?_⟩
    · have hfits := h id c hc
      rwa [Fits, if_neg hactive] at hfits
    · have hfits := h id c hc
      rwa [Fits, if_pos hactive] at hfits

/-- Where the focus stays, one new channel only has to fit itself. -/
theorem OneLive.update (h : m.OneLive) :
    OneLive { m with channels := Function.update m.channels id (some c) } ↔ m.Fits id c := by
  rw [oneLive_iff_fits] at h ⊢
  constructor
  · exact fun h' => h' id c (Function.update_self ..)
  · intro hfits id' c' hc'
    by_cases hid : id' = id
    · subst hid
      simp only [Function.update_self, Option.some.injEq] at hc'
      exact hc' ▸ hfits
    · simp only [Function.update_of_ne hid] at hc'
      exact h id' c' hc'

/-- A sound channel in focus fits unless it is paused with an instance. -/
theorem fits_iff_of_active (hactive : m.activeMonitorId = some id) (hc : c.Sound) :
    m.Fits id c ↔ ¬(c.HasInstance ∧ c.channelSm.state = .paused) := by
  rw [Fits, if_pos hactive]
  constructor
  · rintro h ⟨hinst, hpaused⟩
    cases hpaused.symm.trans (h hinst)
  · intro h hinst
    exact (hc.instanced hinst).resolve_right fun hpaused => h ⟨hinst, hpaused⟩

theorem fits_iff_of_not_active (hactive : m.activeMonitorId ≠ some id) :
    m.Fits id c ↔ c.channelSm.state ≠ .live := by
  rw [Fits, if_neg hactive]

/-- A quiet call keeps a channel fitting. -/
theorem Fits.call_of_quiet (h : m.Fits id c) (he : e.quiet) : m.Fits id (c.call e).2 := by
  rw [Fits] at h ⊢
  rcases VideoChannel.call_of_quiet (c := c) he with ⟨hchannel, hinstance⟩ | ⟨hreset, hclosed⟩ |
    ⟨hchannel, hnew⟩
  · rw [hchannel]
    split_ifs at h ⊢ with hactive
    · intro hinst
      rcases hinstance with heq | ⟨hbefore, -⟩
      · exact h (by rwa [VideoChannel.HasInstance, heq] at hinst)
      · exact h hbefore
    · exact h
  · simp [VideoChannel.HasInstance, hreset, hclosed]
  · rw [hchannel]
    split_ifs at h ⊢ with hactive
    · simp [VideoChannel.HasInstance, hnew, VideoInstanceSm.new]
    · exact h

/-- In focus, any call keeps a channel fitting but deactivating one with an instance. -/
theorem Fits.call_of_active (h : m.Fits id c) (hc : c.Sound)
    (hactive : m.activeMonitorId = some id) :
    m.Fits id (c.call e).2 ↔ (e = .deactivate → ¬c.HasInstance) := by
  by_cases hquiet : e.quiet
  · refine iff_of_true (h.call_of_quiet hquiet) ?_
    rintro rfl
    cases hquiet
  · have hlive := h
    rw [Fits, if_pos hactive] at hlive
    rw [Fits, if_pos hactive]
    cases e with
    | feedback | keyframeRequest | prepareReopen => exact absurd rfl hquiet
    | markInstanceStreaming =>
      rw [hc.call_markInstanceStreaming]
      split_ifs
      · exact iff_of_true (fun _ => rfl) (by simp)
      · exact iff_of_true hlive (by simp)
    | activate =>
      refine iff_of_true (fun hinst => ?_) (by simp)
      have hstate := hlive hinst
      simp [VideoChannel.call, VideoChannel.activate, ChannelSm.activate, hstate]
    | deactivate =>
      -- a channel with an instance is live, and so would be paused
      constructor
      · intro h' _ hinst
        have hstate := h' hinst
        rw [VideoChannel.call, VideoChannel.deactivate, ChannelSm.deactivate,
          if_pos (hlive hinst)] at hstate
        cases hstate
      · intro h' hinst
        exact absurd hinst (h' rfl)

/-- Out of focus, any call keeps a channel fitting but those that make it live. -/
theorem Fits.call_of_not_active (h : m.Fits id c) (hc : c.Sound)
    (hactive : m.activeMonitorId ≠ some id) :
    m.Fits id (c.call e).2 ↔ (e = .markInstanceStreaming → c.instanceSm.state ≠ .created) ∧
      (e = .activate → c.channelSm.state ≠ .paused) := by
  by_cases hquiet : e.quiet
  · refine iff_of_true (h.call_of_quiet hquiet) ⟨?_, ?_⟩ <;>
    · rintro rfl
      cases hquiet
  · have hne := (fits_iff_of_not_active hactive).1 h
    rw [fits_iff_of_not_active hactive]
    cases e with
    | feedback | keyframeRequest | prepareReopen => exact absurd rfl hquiet
    | markInstanceStreaming =>
      rw [hc.call_markInstanceStreaming]
      split_ifs with hcreated
      · exact iff_of_false (fun h' => h' rfl) fun h' => h'.1 rfl hcreated
      · exact iff_of_true hne ⟨fun _ => hcreated, by simp⟩
    | activate =>
      by_cases hpaused : c.channelSm.state = .paused
      · refine iff_of_false (fun h' => h' ?_) fun h' => h'.2 rfl hpaused
        simp [VideoChannel.call, VideoChannel.activate, ChannelSm.activate, hpaused]
      · refine iff_of_true ?_ ⟨by simp, fun _ => hpaused⟩
        simpa [VideoChannel.call, VideoChannel.activate, ChannelSm.activate, hpaused] using hne
    | deactivate =>
      refine iff_of_true ?_ ⟨by simp, by simp⟩
      simp [VideoChannel.call, VideoChannel.deactivate, ChannelSm.deactivate, hne]

/-! ## Runs -/

/-- Every channel is sound. -/
def Sound (m : MonitorManager) : Prop := ∀ id c, m.channels id = some c → c.Sound

theorem Sound.update (h : m.Sound) (hc : c.Sound) {active : Option UInt64} :
    Sound ⟨Function.update m.channels id (some c), active⟩ := by
  intro id' c' hc'
  by_cases hid : id' = id
  · subst hid
    simp only [Function.update_self, Option.some.injEq] at hc'
    exact hc' ▸ hc
  · simp only [Function.update_of_ne hid] at hc'
    exact h id' c' hc'

theorem setActiveMonitor_eq_ok {m' : MonitorManager} :
    m.setActiveMonitor id = .ok m' ↔ m.isRegistered id ∧
      m' = ⟨fun id' => (m.channels id').map fun channel =>
        if id' = id then channel.activate else channel.deactivate, some id⟩ := by
  rw [setActiveMonitor]
  cases m.isRegistered id with
  | false => simp
  | true => simp [eq_comm]

/-- Every operation keeps the channels sound. -/
theorem Sound.apply (h : m.Sound) (op : Op) : (m.apply op).Sound := by
  cases op with
  | addChannel id generation calls => exact h.update (VideoChannel.sound_made generation calls)
  | setActiveMonitor id =>
    cases hset : m.setActiveMonitor id with
    | error _ =>
      simp only [MonitorManager.apply, hset]
      exact h
    | ok m' =>
      simp only [MonitorManager.apply, hset]
      obtain ⟨-, rfl⟩ := setActiveMonitor_eq_ok.1 hset
      intro id' c' hc'
      obtain ⟨c, hc, rfl⟩ := Option.map_eq_some_iff.1 hc'
      split_ifs
      · exact (h id' c hc).call .activate
      · exact (h id' c hc).call .deactivate
  | channelMut id e =>
    cases hc : m.channels id with
    | none => simpa only [MonitorManager.apply, channelMut, hc] using h
    | some c =>
      simp only [MonitorManager.apply, channelMut, hc]
      exact h.update ((h id c hc).call e)

theorem sound_after (ops : List Op) : (after ops).Sound := by
  induction ops using List.reverseRecOn with
  | nil => exact fun id c hc => by cases hc
  | append_singleton ops op ih =>
    rw [after, List.foldl_append]
    exact ih.apply op

/-- A change of focus pauses the channels out of focus and makes the one in focus live. -/
theorem Sound.oneLive_setActiveMonitor {m' : MonitorManager} (h : m.Sound)
    (hset : m.setActiveMonitor id = .ok m') : m'.OneLive := by
  obtain ⟨-, rfl⟩ := setActiveMonitor_eq_ok.1 hset
  constructor
  case unfocused =>
    intro id' c' hc' hactive
    obtain ⟨c, -, rfl⟩ := Option.map_eq_some_iff.1 hc'
    have hne : id' ≠ id := fun heq => hactive (congrArg some heq.symm)
    rw [if_neg hne, VideoChannel.deactivate, ChannelSm.deactivate]
    by_cases hlive : c.channelSm.state = .live <;> simp [hlive]
  case focused =>
    intro id' c' hc' hactive hinst
    obtain ⟨c, hc, rfl⟩ := Option.map_eq_some_iff.1 hc'
    have heq : id' = id := (Option.some.inj hactive).symm
    rw [if_pos heq] at hinst ⊢
    rcases (h id' c hc).instanced hinst with hstate | hstate <;>
      simp [VideoChannel.activate, ChannelSm.activate, hstate]

/-- Once there is a focus there always is one. -/
theorem activeMonitorId_apply (h : m.activeMonitorId.isSome) :
    (m.apply op).activeMonitorId.isSome := by
  cases op with
  | addChannel id generation calls =>
    have hne : m.activeMonitorId ≠ none := Option.isSome_iff_ne_none.1 h
    simpa [apply, addChannel, hne] using h
  | setActiveMonitor id =>
    cases hset : m.setActiveMonitor id with
    | error _ => simpa only [apply, hset] using h
    | ok m' =>
      obtain ⟨-, rfl⟩ := setActiveMonitor_eq_ok.1 hset
      simp only [apply, hset, Option.isSome_some]
  | channelMut id e =>
    cases hc : m.channels id with
    | none => simpa only [apply, channelMut, hc] using h
    | some c => simpa only [apply, channelMut, hc] using h

/-- An operation keeps no more than one channel live exactly if it minds the focus. -/
theorem OneLive.apply (h : m.OneLive) (hsound : m.Sound) (hsome : m.activeMonitorId.isSome) :
    (m.apply op).OneLive ↔ m.MindsFocus op := by
  cases op with
  | setActiveMonitor id =>
    refine iff_of_true ?_ trivial
    cases hset : m.setActiveMonitor id with
    | error _ => simpa only [MonitorManager.apply, hset] using h
    | ok m' => simpa only [MonitorManager.apply, hset] using hsound.oneLive_setActiveMonitor hset
  | addChannel id generation calls =>
    have hadd : m.apply (.addChannel id generation calls) =
        { m with channels := Function.update m.channels id (some (.made generation calls)) } := by
      simp [MonitorManager.apply, addChannel, Option.isSome_iff_ne_none.1 hsome]
    rw [hadd, h.update, MindsFocus]
    by_cases hactive : m.activeMonitorId = some id
    · simp only [if_pos hactive]
      exact fits_iff_of_active hactive (VideoChannel.sound_made generation calls)
    · simp only [if_neg hactive]
      exact fits_iff_of_not_active hactive
  | channelMut id e =>
    cases hc : m.channels id with
    | none =>
      refine iff_of_true ?_ fun c hc' => by cases hc.symm.trans hc'
      simpa only [MonitorManager.apply, channelMut, hc] using h
    | some c =>
      have hfits := oneLive_iff_fits.1 h id c hc
      have hcall : m.apply (.channelMut id e) =
          { m with channels := Function.update m.channels id (some (c.call e).2) } := by
        simp only [MonitorManager.apply, channelMut, hc]
      simp only [hcall, h.update, MindsFocus, hc, Option.some.injEq, forall_eq']
      split_ifs with hactive
      · exact hfits.call_of_active (hsound id c hc) hactive
      · exact hfits.call_of_not_active (hsound id c hc) hactive

/-- After a change of focus, in every state reached, no channel is live but the one in focus,
    which is live while it has an instance, exactly if every operation minds the focus. -/
theorem oneLive_iff_mindsFocus (before : List Op) (monitorId : UInt64) (ops : List Op)
    (h : (after before).isRegistered monitorId) :
    (∀ ops', ops' <+: ops → (after (before ++ .setActiveMonitor monitorId :: ops')).OneLive) ↔
      ∀ ops' op, ops' ++ [op] <+: ops →
        (after (before ++ .setActiveMonitor monitorId :: ops')).MindsFocus op := by
  have hset := setActiveMonitor_eq_ok.2 ⟨h, rfl⟩
  have hafter : ∀ ops', after (before ++ .setActiveMonitor monitorId :: ops') =
      ops'.foldl apply ((after before).apply (.setActiveMonitor monitorId)) := by
    intro ops'
    rw [after, List.foldl_append]
    rfl
  have hsome (ops' : List Op) :
      (after (before ++ .setActiveMonitor monitorId :: ops')).activeMonitorId.isSome := by
    rw [hafter]
    induction ops' using List.reverseRecOn with
    | nil => simp only [List.foldl_nil, apply, hset, Option.isSome_some]
    | append_singleton ops' op ih =>
      rw [List.foldl_append]
      exact activeMonitorId_apply ih
  refine Histories.forall_prefix_iff
    (P := fun ops' => (after (before ++ .setActiveMonitor monitorId :: ops')).OneLive)
    ?_ (fun ops' op hlive => ?_)
  · rw [hafter]
    simp only [List.foldl_nil, apply, hset]
    exact (sound_after before).oneLive_setActiveMonitor hset
  · rw [← hlive.apply (sound_after _) (hsome ops'), hafter, hafter, List.foldl_append]
    rfl

theorem oneLive_two_monitors :
    (after [.addChannel 0 1 [.markInstanceStreaming], .addChannel 1 1 [], .setActiveMonitor 1,
      .channelMut 1 .markInstanceStreaming]).OneLive := by
  refine (oneLive_iff_mindsFocus [.addChannel 0 1 [.markInstanceStreaming], .addChannel 1 1 []] 1
    [.channelMut 1 .markInstanceStreaming] rfl).2 (fun ops' op hprefix => ?_)
    [.channelMut 1 .markInstanceStreaming] List.prefix_rfl
  obtain ⟨rfl, rfl⟩ : ops' = [] ∧ op = .channelMut 1 .markInstanceStreaming := by
    have hlength : ops'.length = 0 := by simpa using hprefix.length_le
    obtain rfl := List.eq_nil_of_length_eq_zero hlength
    exact ⟨rfl, (List.cons_prefix_cons.1 hprefix).1⟩
  intro channel _ h
  cases h

/-- An instance out of focus that starts streaming brings its channel up next to the one in
    focus. -/
theorem two_channels_live :
    let before : List Op := [.addChannel 0 1 [.markInstanceStreaming], .addChannel 1 1 []]
    let m := after (before ++ [.setActiveMonitor 0, .channelMut 1 .markInstanceStreaming])
    (after before).isRegistered 0 = true ∧ m.activeMonitorId = some 0 ∧
      (m.channels 1).map (·.channelSm.state) = some .live ∧ ¬m.OneLive := by
  intro before m
  exact ⟨rfl, rfl, rfl, fun h => h.unfocused 1 _ rfl (by decide) rfl⟩

end MonitorManager

end Sardp
