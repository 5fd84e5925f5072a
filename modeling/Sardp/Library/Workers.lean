import Sardp.Library.Histories

/-!
# Workers that are fed

A worker performs the items it is fed, one after the other (`Worker.turn`). An item may break it,
and then it performs no other. Its owner feeds it as long as there is more to do, and then closes
it, whereupon it goes when nothing is left.

* What it has performed are the first items it has been fed, each once, in order; and when it is
  gone, all of them (`Worker.Fed`).
* Once it is closed, it has always one turn less to go (`Worker.exists_turn`).
* What it has written is tied to what it has performed as what it writes for each item is tied to
  that item (`Worker.written_of_performed`).
* If every item makes the worker press the keys that the item presses, and release those it
  releases, then no key is down for whoever takes the releases unless one is down by the items
  (`Worker.exists_down_of_performed`).
-/

/-- Where a worker is with its items. -/
inductive WorkerPlace
  | working
  /-- It has performed its last item. -/
  | gone
  /-- An item has broken it. -/
  | broken
  deriving DecidableEq

/-- A worker, with the items that wait for it. -/
structure Worker (W C : Type*) where
  state : W
  queue : List C
  /-- There will be no other items. -/
  closed : Bool
  place : WorkerPlace

namespace Worker

variable {W C I : Type*} (perform : W → C → I → Option W)

def start (state : W) : Worker W C := ⟨state, [], false, .working⟩

/-- More items, which are lost on a worker that is broken. -/
def feed (w : Worker W C) (items : List C) : Worker W C :=
  if w.place = .working then { w with queue := w.queue ++ items } else w

def close (w : Worker W C) : Worker W C := { w with closed := true }

/-- The worker performs the next item, if there is one, and goes if there will be none. -/
def turn (w : Worker W C) (i : I) : Option (Worker W C) :=
  if w.place = .working then
    match w.queue with
    | c :: queue =>
      match perform w.state c i with
      | some state => some { w with state, queue }
      | none => some { w with queue := [], place := .broken }
    | [] => if w.closed then some { w with place := .gone } else none
  else none

/-- The items performed one after the other, each with what it meets. -/
def performed (state : W) (done : List (C × I)) : Option W :=
  done.foldlM (fun state x => perform state x.1 x.2) state

/-- The worker has been fed the items, and has performed those that do not wait. -/
def Fed (state : W) (items : List C) (w : Worker W C) : Prop :=
  ∃ done : List (C × I), performed perform state done = some w.state ∧
    match w.place with
    | .working => items = done.map Prod.fst ++ w.queue
    | .gone => items = done.map Prod.fst ∧ w.closed = true
    | .broken => ∃ c i, done.map Prod.fst ++ [c] <+: items ∧ perform w.state c i = none

/-- How many turns there are to go. -/
def turns (w : Worker W C) : ℕ := if w.place = .working then w.queue.length + 1 else 0

variable {perform} {state : W} {items : List C} {w w' : Worker W C} {i : I}

theorem performed_append_singleton {done : List (C × I)} {c : C} {state' : W} :
    performed perform state (done ++ [(c, i)]) = some state' ↔
      ∃ before, performed perform state done = some before ∧ perform before c i = some state' := by
  rw [performed, List.foldlM_append]
  simp only [List.foldlM_cons, List.foldlM_nil, bind_pure]
  exact Option.bind_eq_some_iff

theorem fed_start (perform : W → C → I → Option W) (state : W) :
    (start state).Fed perform state [] :=
  ⟨[], rfl, rfl⟩

theorem Fed.feed (h : w.Fed perform state items) (hopen : w.closed = false) (more : List C) :
    (w.feed more).Fed perform state (items ++ more) := by
  obtain ⟨done, hdone, hplace⟩ := h
  refine ⟨done, ?_⟩
  cases hw : w.place with
  | working =>
    simp only [hw] at hplace
    simp only [Worker.feed, hw, if_true]
    exact ⟨hdone, by rw [hplace, List.append_assoc]⟩
  | gone =>
    simp only [hw] at hplace
    cases hopen.symm.trans hplace.2
  | broken =>
    simp only [hw] at hplace
    obtain ⟨c, i, hprefix, hbreaks⟩ := hplace
    have hsame : w.feed more = w := by simp [Worker.feed, hw]
    simp only [hsame, hw]
    exact ⟨hdone, c, i, hprefix.trans (List.prefix_append _ _), hbreaks⟩

theorem Fed.close (h : w.Fed perform state items) : w.close.Fed perform state items := by
  obtain ⟨done, hdone, hplace⟩ := h
  refine ⟨done, hdone, ?_⟩
  cases hw : w.place with
  | working | broken => simpa only [Worker.close, hw] using hplace
  | gone =>
    simp only [hw] at hplace
    simp only [Worker.close, hw]
    exact ⟨hplace.1, trivial⟩

/-- What a turn does. -/
theorem turn_cases (h : w.turn perform i = some w') : w.place = .working ∧
    ((∃ c queue, w.queue = c :: queue ∧
      ((∃ state, perform w.state c i = some state ∧ w' = { w with state, queue }) ∨
        perform w.state c i = none ∧ w' = { w with queue := [], place := .broken })) ∨
    w.queue = [] ∧ w.closed = true ∧ w' = { w with place := .gone }) := by
  unfold Worker.turn at h
  by_cases hw : w.place = .working
  · rw [if_pos hw] at h
    refine ⟨hw, ?_⟩
    cases hqueue : w.queue with
    | nil =>
      simp only [hqueue, Option.ite_none_right_eq_some, Option.some.injEq] at h
      exact .inr ⟨rfl, h.1, h.2.symm⟩
    | cons c queue =>
      refine .inl ⟨c, queue, rfl, ?_⟩
      simp only [hqueue] at h
      cases hperform : perform w.state c i with
      | some state =>
        simp only [hperform, Option.some.injEq] at h
        exact .inl ⟨state, rfl, h.symm⟩
      | none =>
        simp only [hperform, Option.some.injEq] at h
        exact .inr ⟨rfl, h.symm⟩
  · rw [if_neg hw] at h
    cases h

/-- A turn of the worker performs one of its items, or none. -/
theorem Fed.turn (h : w.Fed perform state items) (hturn : w.turn perform i = some w') :
    w'.Fed perform state items := by
  obtain ⟨done, hdone, hplace⟩ := h
  obtain ⟨hw, ⟨c, queue, hqueue, ⟨state', hperform, rfl⟩ | ⟨hperform, rfl⟩⟩ |
    ⟨hqueue, hclosed, rfl⟩⟩ := turn_cases hturn
  · simp only [hw, hqueue] at hplace
    refine ⟨done ++ [(c, i)], performed_append_singleton.2 ⟨_, hdone, hperform⟩, ?_⟩
    simp only [hw]
    rw [hplace, List.map_append, List.append_assoc]
    rfl
  · simp only [hw, hqueue] at hplace
    refine ⟨done, hdone, c, i, ?_, hperform⟩
    rw [hplace]
    exact (List.prefix_append_right_inj _).2 (List.prefix_append [c] queue)
  · simp only [hw, hqueue, List.append_nil] at hplace
    exact ⟨done, hdone, hplace, hclosed⟩

/-- Wherever the worker is, it has performed the first of its items; when it is gone, all. -/
theorem Fed.exists_done (h : w.Fed perform state items) :
    ∃ done : List (C × I), performed perform state done = some w.state ∧
      done.map Prod.fst <+: items ∧ (w.place = .gone → done.map Prod.fst = items) := by
  obtain ⟨done, hdone, hplace⟩ := h
  refine ⟨done, hdone, ?_⟩
  cases hw : w.place with
  | working =>
    simp only [hw] at hplace
    exact ⟨hplace ▸ List.prefix_append _ _, fun hgone => by cases hgone⟩
  | gone =>
    simp only [hw] at hplace
    exact ⟨hplace.1 ▸ List.prefix_rfl, fun _ => hplace.1.symm⟩
  | broken =>
    simp only [hw] at hplace
    obtain ⟨c, i, hitems, -⟩ := hplace
    exact ⟨(List.prefix_append _ _).trans hitems, fun hgone => by cases hgone⟩

/-- A worker that is closed has a turn to take until it is gone or broken. -/
theorem exists_turn (perform : W → C → I → Option W) (hw : w.place = .working)
    (hclosed : w.closed = true) (i : I) :
    ∃ w', w.turn perform i = some w' ∧ w'.closed = true ∧ w'.turns < w.turns := by
  have hturns : w.turns = w.queue.length + 1 := if_pos hw
  rw [hturns]
  unfold turn
  rw [if_pos hw]
  cases hqueue : w.queue with
  | nil => exact ⟨_, if_pos hclosed, hclosed, Nat.succ_pos _⟩
  | cons c queue =>
    dsimp only
    cases perform w.state c i with
    | none => exact ⟨_, rfl, hclosed, Nat.succ_pos _⟩
    | some state =>
      refine ⟨_, rfl, hclosed, ?_⟩
      simp only [turns, hw, if_true, List.length_cons]
      omega

/-! ## Writing -/

section Writing

variable {O X : Type*} {calls : W → List O} {written : O → List X} {text : C → List X}
  {R : List X → List X → Prop}

/-- If what is written for an item is tied to its text, then what is written for several is tied to
    their texts, one after the other. -/
theorem written_of_performed (hnil : R [] [])
    (happend : ∀ a b c d, R a b → R c d → R (a ++ c) (b ++ d)) (hstart : calls state = [])
    (hwrites : ∀ s c i s', perform s c i = some s' →
      ∃ more, calls s' = calls s ++ more ∧ R (more.flatMap written) (text c))
    {done : List (C × I)} {s : W} (hdone : performed perform state done = some s) :
    R ((calls s).flatMap written) ((done.map Prod.fst).flatMap text) := by
  induction done using List.reverseRecOn generalizing s with
  | nil =>
    cases hdone
    rw [hstart]
    exact hnil
  | append_singleton done x ih =>
    obtain ⟨c, i⟩ := x
    obtain ⟨before, hbefore, hperform⟩ := performed_append_singleton.1 hdone
    obtain ⟨more, hmore, hc⟩ := hwrites before c i s hperform
    rw [hmore, List.map_append, List.flatMap_append, List.flatMap_append, List.map_singleton,
      List.flatMap_singleton]
    exact happend _ _ _ _ (ih hbefore) hc

end Writing

/-! ## Keys -/

open Histories

section Keys

variable {O K K' : Type*} (signal : C → K → Option Bool) (signal' : O → K' → Option Bool)
  (names : K → K' → Prop)

/-- The calls of which it is said that they are taken. -/
def taken (takes : ℕ → Bool) (calls : List O) : List O :=
  (calls.zipIdx.filter fun x => takes x.2).map Prod.fst

/-- All calls that release a key are taken. -/
def TakesReleases (takes : ℕ → Bool) (calls : List O) : Prop :=
  ∀ n call, calls[n]? = some call → (∃ k', signal' call k' = some false) → takes n = true

/-- The calls made for an item say of the keys what the item says of those that are named so: all of
    it with one call, or nothing. -/
def Says (c : C) (calls : List O) : Prop :=
  (∃ call, calls = [call] ∧
    ∀ k' down, signal' call k' = some down ↔ ∃ k, names k k' ∧ signal c k = some down) ∨
  (∀ call ∈ calls, ∀ k', signal' call k' = none) ∧ ∀ k k', names k k' → signal c k = none

variable {signal signal' names} {takes : ℕ → Bool} {calls more : List O} {c : C} {cs : List C}
  {k' : K'}

theorem taken_append : taken takes (calls ++ more) =
    taken takes calls ++ taken (fun n => takes (calls.length + n)) more := by
  have hshift (more : List O) (k n : ℕ) :
      ((more.zipIdx (k + n)).filter fun x => takes x.2).map Prod.fst =
        ((more.zipIdx n).filter fun x => takes (k + x.2)).map Prod.fst := by
    induction more generalizing n with
    | nil => rfl
    | cons o more ih =>
      rw [List.zipIdx_cons, List.zipIdx_cons, List.filter_cons, List.filter_cons]
      have hnext := ih (n + 1)
      rw [← Nat.add_assoc] at hnext
      split_ifs <;> simp [hnext]
  rw [taken, List.zipIdx_append, List.filter_append, List.map_append, Nat.zero_add]
  exact congrArg _ (hshift more calls.length 0)

theorem taken_sublist (takes : ℕ → Bool) (calls : List O) :
    (taken takes calls).Sublist calls := by
  have hcalls : ((calls.zipIdx.filter fun x => takes x.2).map Prod.fst).Sublist
      (calls.zipIdx.map Prod.fst) := List.filter_sublist.map _
  rwa [List.zipIdx_map_fst] at hcalls

theorem taken_of_forall (h : ∀ n, takes n = true) (calls : List O) : taken takes calls = calls := by
  have hall : calls.zipIdx.filter (fun x => takes x.2) = calls.zipIdx :=
    List.filter_eq_self.2 fun x _ => h x.2
  rw [taken, hall, List.zipIdx_map_fst]

theorem mem_of_mem_taken {o : O} (h : o ∈ taken takes calls) : o ∈ calls :=
  (taken_sublist takes calls).subset h

theorem last_eq_none (h : ∀ o ∈ calls, signal' o k' = none) : last signal' calls k' = none := by
  rw [last, List.getLast?_eq_none_iff, List.filterMap_eq_nil_iff]
  exact h

/-- If the keys that are down by the calls are so by the items, they are after another item. -/
theorem Says.down (h : Says signal signal' names c more)
    (htakes : TakesReleases signal' takes (calls ++ more))
    (ih : Down signal' (taken takes calls) k' → ∃ k, names k k' ∧ Down signal cs k) :
    Down signal' (taken takes (calls ++ more)) k' →
      ∃ k, names k k' ∧ Down signal (cs ++ [c]) k := by
  intro hdown
  rw [Down, taken_append, last_append, Option.or_eq_some_iff] at hdown
  -- a key that is down by the items before stays down unless this one releases it
  have hstays (hbefore : ∃ k, names k k' ∧ Down signal cs k)
      (hup : ∀ k, names k k' → signal c k ≠ some false) :
      ∃ k, names k k' ∧ Down signal (cs ++ [c]) k := by
    obtain ⟨k, hk, hdown⟩ := hbefore
    refine ⟨k, hk, ?_⟩
    rw [Down, last_append, last_cons, last_nil, Option.none_or]
    cases hsignal : signal c k with
    | none => rwa [Option.none_or]
    | some down =>
      cases down with
      | true => rfl
      | false => exact absurd hsignal (hup k hk)
  rcases h with ⟨call, rfl, hcall⟩ | ⟨hnone, hno⟩
  · have hpresses (hcall' : signal' call k' = some true) :
        ∃ k, names k k' ∧ Down signal (cs ++ [c]) k := by
      obtain ⟨k, hk, hsignal⟩ := (hcall k' true).1 hcall'
      refine ⟨k, hk, ?_⟩
      rw [Down, last_append, last_cons, hsignal]
      rfl
    have hreleases (k : K) (hk : names k k') (hsignal : signal c k = some false) :
        signal' call k' = some false := (hcall k' false).2 ⟨k, hk, hsignal⟩
    by_cases htaken : takes calls.length = true
    · have hone : taken (fun n => takes (calls.length + n)) [call] = [call] := by
        simp [taken, htaken]
      rw [hone, last_cons, last_nil, Option.none_or] at hdown
      rcases hdown with hdown | ⟨hnone, hdown⟩
      · exact hpresses hdown
      · refine hstays (ih hdown) fun k hk hsignal => ?_
        cases hnone.symm.trans (hreleases k hk hsignal)
    · have hnil : taken (fun n => takes (calls.length + n)) [call] = [] := by
        simp [taken, htaken]
      rw [hnil, last_nil] at hdown
      rcases hdown with hdown | ⟨-, hdown⟩
      · cases hdown
      · refine hstays (ih hdown) fun k hk hsignal => ?_
        have hget : (calls ++ [call])[calls.length]? = some call := List.getElem?_concat_length
        exact absurd (htakes _ _ hget ⟨k', hreleases k hk hsignal⟩) htaken
  · have hlast := @last_eq_none _ _ signal' (taken (fun n => takes (calls.length + n)) more) k'
      fun o ho => hnone o (mem_of_mem_taken ho) k'
    rcases hdown with hdown | ⟨-, hdown⟩
    · cases hlast.symm.trans hdown
    · refine hstays (ih hdown) fun k hk hsignal => ?_
      cases (hno k k' hk).symm.trans hsignal

/-- If every item says of the keys what it makes the worker say, and every release is taken, then a
    key is down only if one that is named so is down by the items. -/
theorem exists_down_of_performed {calls : W → List O} (hstart : calls state = [])
    (htells : ∀ s c i s', perform s c i = some s' →
      ∃ more, calls s' = calls s ++ more ∧ Says signal signal' names c more)
    {done : List (C × I)} {s : W} (hdone : performed perform state done = some s)
    (htakes : TakesReleases signal' takes (calls s)) :
    Down signal' (taken takes (calls s)) k' →
      ∃ k, names k k' ∧ Down signal (done.map Prod.fst) k := by
  induction done using List.reverseRecOn generalizing s with
  | nil =>
    cases hdone
    rw [hstart]
    intro hdown
    cases hdown
  | append_singleton done x ih =>
    obtain ⟨c, i⟩ := x
    obtain ⟨before, hbefore, hperform⟩ := performed_append_singleton.1 hdone
    obtain ⟨more, hmore, hc⟩ := htells before c i s hperform
    rw [hmore] at htakes ⊢
    rw [List.map_append, List.map_singleton]
    refine hc.down htakes (ih hbefore fun n call hget hreleases => ?_)
    have hlt : n < (calls before).length := (List.getElem?_eq_some_iff.1 hget).1
    exact htakes n call (by rwa [List.getElem?_append_left hlt]) hreleases

end Keys

end Worker
