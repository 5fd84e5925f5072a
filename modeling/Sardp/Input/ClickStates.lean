import Mathlib.Data.BitVec
import Mathlib.Logic.Function.Basic
import Mathlib.Tactic.SplitIfs
import Sardp.Input.MacInjection
import Sardp.Library.Machine

/-!
# Clicks of several buttons

A press makes one click more than the press before it, up to three, if it is of the same button and
close enough in time and place. Its release should carry as many clicks, and so should the drags in
between, or else they do not belong together.

`InputState` only keeps the last press, of whichever button. So what a release or a drag carries is
what it should exactly if that press is the one of its button, or makes no difference
(`Tracked.clickStates_pairUp_iff`). Otherwise the press of another button has come in between: where
the buttons are pressed one at a time, all is well (`Tracked.pairUp_of_one_at_a_time`).
-/

namespace Sardp.MacInput

variable {Point : Type}

/-! ## Presses -/

structure Press (Point : Type) where
  button : ℕ
  atUs : ℕ
  position : Point

/-- A press goes on with the clicks of the one before. -/
def Press.Follows (config : InjectorConfig Point) (last p : Press Point) : Prop :=
  last.button = p.button ∧ p.atUs - last.atUs ≤ config.doubleClickIntervalUs ∧
    config.withinSlop last.position p.position

instance (config : InjectorConfig Point) (last p : Press Point) :
    Decidable (last.Follows config p) :=
  inferInstanceAs (Decidable (_ ∧ _ ∧ _))

/-- How many presses, from the latest one back, go on with each other. -/
def streak (config : InjectorConfig Point) : List (Press Point) → ℕ
  | [] => 0
  | [_] => 1
  | p :: last :: presses =>
    if last.Follows config p then streak config (last :: presses) + 1 else 1

/-- The clicks that the latest press makes. -/
def clicks (config : InjectorConfig Point) (presses : List (Press Point)) : ℕ :=
  min (streak config presses) 3

/-- The presses without those after the latest one of a button. -/
def upTo (button : ℕ) (presses : List (Press Point)) : List (Press Point) :=
  presses.dropWhile fun p => p.button ≠ button

variable {config : InjectorConfig Point} {p last : Press Point} {presses : List (Press Point)}
  {b button : ℕ}

theorem upTo_of_eq (h : p.button = button) : upTo button (p :: presses) = p :: presses :=
  List.dropWhile_cons_of_neg (by simp [h])

theorem upTo_of_ne (h : p.button ≠ button) : upTo button (p :: presses) = upTo button presses :=
  List.dropWhile_cons_of_pos (by simp [h])

theorem streak_pos (config : InjectorConfig Point) (p : Press Point)
    (presses : List (Press Point)) : 0 < streak config (p :: presses) := by
  cases presses with
  | nil => exact Nat.one_pos
  | cons last presses =>
    rw [streak]
    split_ifs
    · exact Nat.succ_pos _
    · exact Nat.one_pos

theorem clicks_cons : clicks config (p :: last :: presses) =
    if last.Follows config p then min (clicks config (last :: presses) + 1) 3 else 1 := by
  rw [clicks, clicks, streak]
  split_ifs
  · omega
  · rfl

theorem clicks_eq_one_iff (hne : presses ≠ []) :
    clicks config presses = 1 ↔ streak config presses = 1 := by
  obtain ⟨p, presses, rfl⟩ := List.exists_cons_of_ne_nil hne
  have hpos := streak_pos config p presses
  rw [clicks]
  omega

/-! ## Runs -/

/-- The numbers of the buttons. -/
abbrev ButtonNumber := { button : ℕ // 1 ≤ button ∧ button ≤ 5 }

/-- A call of the thread that injects. -/
inductive Call
  | key (hidUsage : ℕ) (down : Bool)
  | text (text : String)
  | mouseMove (x y : ℤ)
  | mouseButton (button : ButtonNumber) (down : Bool) (nowUs : ℕ)
  | wheel (dx dy : ℤ)

def InputState.call (s : InputState Point) : Call → InputState Point × Post Point
  | .key hidUsage down => s.key hidUsage down
  | .text text => s.text text
  | .mouseMove x y => s.mouseMove x y
  | .mouseButton button down nowUs => s.mouseButton button down nowUs
  | .wheel dx dy => s.wheel dx dy

/-- The state with what has led to it. -/
structure Tracked (Point : Type) where
  input : InputState Point
  /-- The presses so far, the latest one first. -/
  presses : List (Press Point)
  /-- The clicks that were posted with the press of a button that is held. -/
  posted : ℕ → Option ℕ

namespace Tracked

def start (config : InjectorConfig Point) : Tracked Point := ⟨.new config, [], fun _ => none⟩

def call (t : Tracked Point) (c : Call) : Tracked Point :=
  let (input, post) := t.input.call c
  match c, post with
  | .mouseButton button true nowUs, .mouse m =>
    { input
      presses := ⟨button, nowUs, t.input.position⟩ :: t.presses
      posted := Function.update t.posted button (some m.clickState) }
  | .mouseButton button false _, _ =>
    { t with input, posted := Function.update t.posted button none }
  | _, _ => { t with input }

def machine (Point : Type) : Machine (Tracked Point) Call := ⟨fun t c => some (t.call c)⟩

/-- A release carries the clicks that the press of the button was posted with, and a drag those of
    the button it names. -/
def PairsUp (t : Tracked Point) (c : Call) : Prop :=
  match c with
  | .mouseButton button false _ => ∀ n, t.posted button = some n →
    ∃ m, (t.input.call c).2 = .mouse m ∧ m.clickState = n
  | .mouseMove _ _ => ∀ m, (t.input.call c).2 = .mouse m → m.kind = .drag →
    ∃ button n, m.button = cgButton button ∧ t.posted button = some n ∧ m.clickState = n
  | _ => True

/-- The latest press is of the button that is released, or that button was pressed for a first
    click. The latest press makes as many clicks as that of the button that is dragged. -/
def Meets (t : Tracked Point) (c : Call) : Prop :=
  match c with
  | .mouseButton button false _ => t.input.buttons.getLsbD button →
    (∃ p ∈ t.presses.head?, p.button = button) ∨
      streak t.input.config (upTo button t.presses) = 1
  | .mouseMove _ _ => ∀ button ∈ t.input.lowestPressedButton,
    clicks t.input.config t.presses = clicks t.input.config (upTo button t.presses)
  | _ => True

/-! ## What the state knows -/

/-- The state has the latest press and the buttons that are held, and the clicks posted with their
    presses are those these make. -/
structure Consistent (t : Tracked Point) : Prop where
  lastClick : t.input.lastClick = t.presses.head?.map fun p =>
    ⟨p.button, p.atUs, p.position, clicks t.input.config t.presses⟩
  buttons (button : ℕ) : t.input.buttons.getLsbD button = (t.posted button).isSome
  number {button n : ℕ} : t.posted button = some n → 1 ≤ button ∧ button ≤ 5
  ne_nil {button n : ℕ} : t.posted button = some n → upTo button t.presses ≠ []
  posted {button n : ℕ} : t.posted button = some n →
    n = clicks t.input.config (upTo button t.presses)

variable {t : Tracked Point} {c : Call} {nowUs : ℕ}

theorem consistent_start (config : InjectorConfig Point) : (start config).Consistent where
  lastClick := rfl
  buttons _ := BitVec.getLsbD_zero
  number h := nomatch h
  ne_nil h := nomatch h
  posted h := nomatch h

/-- Only the latest press and the buttons matter. -/
theorem Consistent.of_input (h : t.Consistent) {input : InputState Point}
    (hconfig : input.config = t.input.config) (hbuttons : input.buttons = t.input.buttons)
    (hlast : input.lastClick = t.input.lastClick) : Consistent { t with input } where
  lastClick := by rw [hlast, h.lastClick, hconfig]
  buttons button := by rw [hbuttons, h.buttons]
  number := h.number
  ne_nil := h.ne_nil
  posted hposted := by rw [hconfig]; exact h.posted hposted

theorem getLsbD_press (x : BitVec 8) {button : ℕ} (hle : button ≤ 5) (i : ℕ) :
    (x ||| 1#8 <<< min button 7).getLsbD i = (x.getLsbD i || decide (i = button)) := by
  rw [Nat.min_eq_left (by omega), ← BitVec.twoPow_eq, BitVec.getLsbD_or, BitVec.getLsbD_twoPow]
  simp [show button < 8 by omega, eq_comm]

theorem getLsbD_release (x : BitVec 8) {button : ℕ} (hle : button ≤ 5) (i : ℕ) :
    (x &&& ~~~(1#8 <<< min button 7)).getLsbD i = (x.getLsbD i && !decide (i = button)) := by
  rw [Nat.min_eq_left (by omega), ← BitVec.twoPow_eq, BitVec.getLsbD_and, BitVec.getLsbD_not,
    BitVec.getLsbD_twoPow]
  by_cases hi : i < 8
  · simp [show button < 8 by omega, hi, eq_comm]
  · rw [BitVec.getLsbD_of_ge x i (by omega), Bool.false_and, Bool.false_and]

/-- A press posts the clicks that it makes. -/
theorem Consistent.pressClickState (h : t.Consistent) (button nowUs : ℕ) :
    t.input.pressClickState button nowUs =
      clicks t.input.config (⟨button, nowUs, t.input.position⟩ :: t.presses) := by
  rw [InputState.pressClickState, h.lastClick]
  cases t.presses with
  | nil => rfl
  | cons last presses =>
    rw [clicks_cons]
    rfl

/-- A release posts the clicks of the latest press, if it is of the button. -/
theorem Consistent.releaseClickState (h : t.Consistent) (button : ℕ) :
    t.input.releaseClickState button =
      if ∃ p ∈ t.presses.head?, p.button = button then clicks t.input.config t.presses else 1 := by
  rw [InputState.releaseClickState, h.lastClick]
  cases t.presses with
  | nil => simp
  | cons last presses => simp

/-- What a press changes. -/
theorem call_press (t : Tracked Point) (button : ButtonNumber) (nowUs : ℕ) :
    t.call (.mouseButton button true nowUs) =
      { input :=
          { t.input with
            buttons := t.input.buttons ||| 1#8 <<< min button.1 7
            lastClick := some ⟨button, nowUs, t.input.position,
              t.input.pressClickState button nowUs⟩ }
        presses := ⟨button, nowUs, t.input.position⟩ :: t.presses
        posted := Function.update t.posted button (some (t.input.pressClickState button nowUs)) } :=
  rfl

/-- What a release changes. -/
theorem call_release (t : Tracked Point) (button : ButtonNumber) (nowUs : ℕ) :
    t.call (.mouseButton button false nowUs) =
      { t with
        input := { t.input with buttons := t.input.buttons &&& ~~~(1#8 <<< min button.1 7) }
        posted := Function.update t.posted button none } :=
  rfl

/-- A press adds to the presses, and puts its clicks in the place of those of its button. -/
theorem Consistent.press (h : t.Consistent) (button : ButtonNumber) (nowUs : ℕ) :
    (t.call (.mouseButton button true nowUs)).Consistent := by
  have hclicks := h.pressClickState button nowUs
  rw [call_press, hclicks]
  have hself : upTo button.1 (⟨button, nowUs, t.input.position⟩ :: t.presses) =
      ⟨button, nowUs, t.input.position⟩ :: t.presses := upTo_of_eq rfl
  -- of the other buttons, the presses are those they were
  have hposted {i n : ℕ} (hi : Function.update t.posted button.1
      (some (clicks t.input.config (⟨button, nowUs, t.input.position⟩ :: t.presses))) i = some n) :
      i = button.1 ∧ n = clicks t.input.config (⟨button, nowUs, t.input.position⟩ :: t.presses) ∨
        button.1 ≠ i ∧ t.posted i = some n := by
    by_cases heq : i = button
    · rw [heq, Function.update_self] at hi
      exact .inl ⟨heq, (Option.some.inj hi).symm⟩
    · rw [Function.update_of_ne heq] at hi
      exact .inr ⟨Ne.symm heq, hi⟩
  constructor
  case lastClick => rfl
  case buttons =>
    intro i
    dsimp only
    rw [getLsbD_press _ button.2.2, h.buttons]
    by_cases heq : i = button
    · rw [heq, Function.update_self, decide_eq_true rfl, Bool.or_true, Option.isSome_some]
    · rw [Function.update_of_ne heq, decide_eq_false heq, Bool.or_false]
  case number =>
    intro i n hi
    rcases hposted hi with ⟨rfl, -⟩ | ⟨-, hi⟩
    · exact button.2
    · exact h.number hi
  case ne_nil =>
    intro i n hi
    rcases hposted hi with ⟨rfl, -⟩ | ⟨hne, hi⟩
    · exact ne_of_eq_of_ne hself (List.cons_ne_nil _ _)
    · exact ne_of_eq_of_ne (upTo_of_ne hne) (h.ne_nil hi)
  case posted =>
    intro i n hi
    rcases hposted hi with ⟨rfl, hn⟩ | ⟨hne, hi⟩
    · exact hn.trans (congrArg _ hself.symm)
    · exact (h.posted hi).trans (congrArg _ (upTo_of_ne hne).symm)

theorem Consistent.release (h : t.Consistent) (button : ButtonNumber) (nowUs : ℕ) :
    (t.call (.mouseButton button false nowUs)).Consistent := by
  rw [call_release]
  have hposted {i n : ℕ} (hi : Function.update t.posted button.1 none i = some n) :
      t.posted i = some n := by
    by_cases heq : i = button
    · rw [heq, Function.update_self] at hi
      cases hi
    · rwa [Function.update_of_ne heq] at hi
  constructor
  case lastClick => exact h.lastClick
  case buttons =>
    intro i
    dsimp only
    rw [getLsbD_release _ button.2.2, h.buttons]
    by_cases heq : i = button
    · rw [heq, Function.update_self, decide_eq_true rfl, Bool.not_true, Bool.and_false,
        Option.isSome_none]
    · rw [Function.update_of_ne heq, decide_eq_false heq, Bool.not_false, Bool.and_true]
  case number => exact fun hi => h.number (hposted hi)
  case ne_nil => exact fun hi => h.ne_nil (hposted hi)
  case posted => exact fun hi => h.posted (hposted hi)

/-- A key changes neither the buttons nor the latest press. -/
theorem key_frame (s : InputState Point) (hidUsage : ℕ) (down : Bool) :
    (s.key hidUsage down).1.config = s.config ∧ (s.key hidUsage down).1.buttons = s.buttons ∧
      (s.key hidUsage down).1.lastClick = s.lastClick := by
  unfold InputState.key
  split
  · exact ⟨rfl, rfl, rfl⟩
  · cases isModifier hidUsage <;> exact ⟨rfl, rfl, rfl⟩

theorem Consistent.call (h : t.Consistent) (c : Call) : (t.call c).Consistent := by
  cases c with
  | key hidUsage down =>
    obtain ⟨hconfig, hbuttons, hlast⟩ := key_frame t.input hidUsage down
    exact h.of_input hconfig hbuttons hlast
  | text text => exact h.of_input rfl rfl rfl
  | mouseMove x y => exact h.of_input rfl rfl rfl
  | wheel dx dy => exact h.of_input rfl rfl rfl
  | mouseButton button down nowUs =>
    cases down with
    | true => exact h.press button nowUs
    | false => exact h.release button nowUs

/-! ## Which clicks pair up -/

theorem cgButton_eq (hb : 1 ≤ b ∧ b ≤ 5) : cgButton b = b - 1 := by
  have hcases : b = 1 ∨ b = 2 ∨ b = 3 ∨ b = 4 ∨ b = 5 := by omega
  rcases hcases with rfl | rfl | rfl | rfl | rfl <;> rfl

/-- Every button that is held has a number of its own for macOS. -/
theorem cgButton_injective (hb : 1 ≤ b ∧ b ≤ 5) (hbutton : 1 ≤ button ∧ button ≤ 5)
    (h : cgButton b = cgButton button) : b = button := by
  rw [cgButton_eq hb, cgButton_eq hbutton] at h
  omega

theorem getLsbD_of_lowestPressedButton {s : InputState Point}
    (h : s.lowestPressedButton = some b) : s.buttons.getLsbD b := by
  rw [InputState.lowestPressedButton] at h
  have hsome := List.find?_some h
  have hne : s.buttons &&& 1#8 <<< b ≠ 0 := of_decide_eq_true hsome
  rw [← BitVec.twoPow_eq, BitVec.and_twoPow] at hne
  by_contra hb
  rw [if_neg hb] at hne
  exact hne rfl

/-- The latest press is of the button. -/
theorem upTo_eq_self (h : ∃ p ∈ presses.head?, p.button = button) :
    upTo button presses = presses := by
  obtain ⟨p, hp, hbutton⟩ := h
  obtain ⟨l, rfl⟩ := List.head?_eq_some_iff.1 hp
  exact upTo_of_eq hbutton

theorem Consistent.pairsUp_release (h : t.Consistent) (button : ButtonNumber) (nowUs : ℕ) :
    t.PairsUp (.mouseButton button false nowUs) ↔ t.Meets (.mouseButton button false nowUs) := by
  have hpost : t.PairsUp (.mouseButton button false nowUs) ↔
      ∀ n, t.posted button = some n → t.input.releaseClickState button = n := by
    refine forall₂_congr fun n _ => ⟨?_, fun hn => ⟨_, rfl, hn⟩⟩
    rintro ⟨m, hm, hn⟩
    cases hm
    exact hn
  rw [hpost, Meets, h.buttons, h.releaseClickState]
  cases hposted : t.posted button with
  | none => exact iff_of_true nofun nofun
  | some n =>
    have hn := h.posted hposted
    simp only [Option.some.injEq, forall_eq', Option.isSome_some, forall_const]
    split_ifs with hlatest
    · rw [upTo_eq_self hlatest] at hn
      exact iff_of_true hn.symm (.inl hlatest)
    · rw [or_iff_right hlatest, ← clicks_eq_one_iff (h.ne_nil hposted), ← hn, eq_comm]

/-- Without a button that is held, a move is none of a drag. -/
theorem mouseMove_of_none {s : InputState Point} (h : s.lowestPressedButton = none) (x y : ℤ) :
    (s.mouseMove x y).2 = .mouse ⟨.move, 0, s.config.toPoints x y, 0, s.flags⟩ := by
  have hlowest : InputState.lowestPressedButton
      { s with position := s.config.toPoints x y } = none := h
  simp only [InputState.mouseMove, hlowest]
  rfl

/-- A drag names the lowest button that is held, and carries the clicks of the latest press. -/
theorem mouseMove_of_some {s : InputState Point} (h : s.lowestPressedButton = some b)
    {last : LastClick Point} (hlast : s.lastClick = some last) (x y : ℤ) :
    (s.mouseMove x y).2 =
      .mouse ⟨.drag, cgButton b, s.config.toPoints x y, last.clickState, s.flags⟩ := by
  have hlowest : InputState.lowestPressedButton
      { s with position := s.config.toPoints x y } = some b := h
  simp only [InputState.mouseMove, hlowest]
  simp only [hlast]
  rfl

theorem Consistent.pairsUp_move (h : t.Consistent) (x y : ℤ) :
    t.PairsUp (.mouseMove x y) ↔ t.Meets (.mouseMove x y) := by
  cases hlowest : t.input.lowestPressedButton with
  | none =>
    refine iff_of_true (fun m hm hkind => ?_) fun button hbutton => ?_
    · cases (mouseMove_of_none hlowest x y).symm.trans hm
      cases hkind
    · rw [hlowest] at hbutton
      cases hbutton
  | some b =>
    -- the lowest button is held, so there has been a press
    obtain ⟨n, hn⟩ := Option.isSome_iff_exists.1
      ((h.buttons b).symm.trans (getLsbD_of_lowestPressedButton hlowest))
    obtain ⟨p, presses, hpresses⟩ : ∃ p presses, t.presses = p :: presses :=
      List.exists_cons_of_ne_nil fun hnil => h.ne_nil hn (by rw [hnil]; rfl)
    have hlast := h.lastClick
    rw [hpresses, List.head?_cons, Option.map_some, ← hpresses] at hlast
    have hpost := mouseMove_of_some hlowest hlast x y
    have hmeets : t.Meets (.mouseMove x y) ↔ clicks t.input.config t.presses = n := by
      rw [Meets, hlowest, h.posted hn]
      simp
    rw [hmeets]
    constructor
    · intro hpairs
      obtain ⟨button, n', hbutton, hn', hclicks⟩ := hpairs _ hpost rfl
      cases cgButton_injective (h.number hn) (h.number hn') hbutton
      cases hn.symm.trans hn'
      exact hclicks
    · intro hclicks m hm _
      cases hpost.symm.trans hm
      exact ⟨b, n, rfl, hn, hclicks⟩

theorem Consistent.pairsUp_iff (h : t.Consistent) (c : Call) : t.PairsUp c ↔ t.Meets c := by
  cases c with
  | mouseMove x y => exact h.pairsUp_move x y
  | mouseButton button down nowUs =>
    cases down with
    | true => exact Iff.rfl
    | false => exact h.pairsUp_release button nowUs
  | _ => exact Iff.rfl

/-- In a run, every release and every drag carries the clicks of its press exactly if at every
    release and every drag the latest press is the one it belongs to, or makes no difference. -/
theorem clickStates_pairUp_iff (config : InjectorConfig Point) (calls : List Call) :
    (machine Point).Always (fun t c _ => t.PairsUp c) (start config) calls ↔
      (machine Point).Always (fun t c _ => t.Meets c) (start config) calls := by
  refine Machine.always_congr (I := Consistent) ?_ (fun t c _ ht _ => ht.pairsUp_iff c)
    (consistent_start config)
  intro t c t' ht hstep
  cases hstep
  exact ht.call c

/-- The second press of a double click, the press of the right button, and the release of the left
    one: it is posted as that of a single click. -/
theorem not_clickStates_pairUp :
    ¬(machine (ℤ × ℤ)).Always (fun t c _ => t.PairsUp c)
      (start ⟨(0, 0), Prod.mk, 500000, fun p q => (p.1 - q.1) ^ 2 + (p.2 - q.2) ^ 2 ≤ 16⟩)
      [.mouseButton ⟨Button.LEFT, by decide⟩ true 0,
        .mouseButton ⟨Button.LEFT, by decide⟩ false 1000,
        .mouseButton ⟨Button.LEFT, by decide⟩ true 100000,
        .mouseButton ⟨Button.RIGHT, by decide⟩ true 150000,
        .mouseButton ⟨Button.LEFT, by decide⟩ false 200000] := by
  intro h
  have hrelease := (((((h _ rfl).2 _ rfl).2 _ rfl).2 _ rfl).2 _ rfl).1
  obtain ⟨m, hm, hclicks⟩ := hrelease 2 rfl
  cases hm
  exact absurd hclicks (by decide)

/-! ## One button at a time -/

/-- No button but this one is held. -/
def OnlyHeld (t : Tracked Point) (button : ℕ) : Prop :=
  ∀ i, t.input.buttons.getLsbD i → i = button

/-- The latest press is of the button that is held. -/
def LatestHeld (t : Tracked Point) : Prop :=
  ∀ i, (t.posted i).isSome → ∃ p ∈ t.presses.head?, p.button = i

theorem LatestHeld.meets (hlatest : t.LatestHeld) (h : t.Consistent) (c : Call) : t.Meets c := by
  cases c with
  | mouseMove x y =>
    intro button hbutton
    have hheld := getLsbD_of_lowestPressedButton hbutton
    rw [h.buttons] at hheld
    rw [upTo_eq_self (hlatest button hheld)]
  | mouseButton button down nowUs =>
    cases down with
    | true => trivial
    | false =>
      intro hheld
      rw [h.buttons] at hheld
      exact .inl (hlatest button hheld)
  | _ => trivial

/-- It stays so if no button is pressed while another one is held. -/
theorem LatestHeld.call (hlatest : t.LatestHeld) (h : t.Consistent)
    (honly : ∀ button nowUs, c = .mouseButton button true nowUs → t.OnlyHeld button) :
    (t.call c).LatestHeld := by
  cases c with
  | mouseButton button down nowUs =>
    cases down with
    | true =>
      rw [call_press]
      intro i hi
      by_cases heq : i = button
      · exact ⟨_, rfl, heq.symm⟩
      · -- another button would have been held before
        dsimp only at hi
        rw [Function.update_of_ne heq, ← h.buttons] at hi
        exact absurd (honly button nowUs rfl i hi) heq
    | false =>
      rw [call_release]
      intro i hi
      by_cases heq : i = button
      · dsimp only at hi
        rw [heq, Function.update_self] at hi
        cases hi
      · dsimp only at hi
        rw [Function.update_of_ne heq] at hi
        exact hlatest i hi
  | _ => exact hlatest

/-- Where no button is pressed while another one is held, every release and every drag carries the
    clicks of its press. -/
theorem pairUp_of_one_at_a_time {calls : List Call}
    (h : (machine Point).Always (fun t c _ => ∀ button nowUs,
      c = .mouseButton button true nowUs → t.OnlyHeld button) (start config) calls) :
    (machine Point).Always (fun t c _ => t.PairsUp c) (start config) calls := by
  refine Machine.Always.imp (I := fun t => t.Consistent ∧ t.LatestHeld) ?_
    ⟨consistent_start config, nofun⟩ h
  rintro t c t' ⟨ht, hlatest⟩ hstep honly
  cases hstep
  exact ⟨⟨ht.call c, hlatest.call ht honly⟩, (ht.pairsUp_iff c).2 (hlatest.meets ht c)⟩

end Tracked

end Sardp.MacInput
