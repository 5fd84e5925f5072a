import Sardp.Library.Framing
import Sardp.Library.Histories
import Sardp.Library.Machine

/-!
# Cancelling asynchronous functions

An asynchronous function reads the frames of a stream, and waits while the next one is not
complete (`Async`). Its future may be dropped where it waits, and the function be called anew
(`Loop`). What has been buffered of the stream and what the function keeps in its state outlive
the future; what it keeps in variables does not.

* Left alone, a future runs to its end, over whatever the stream goes on with (`Async.exec`). It
  makes no difference to run it as far as the buffer goes first (`Async.exec_poll`).
* At any point of a loop, what it has got and would get if left alone from there on is what it
  would have got if left alone all along (`Loop.Faithful`), exactly as long as no future is
  dropped that a new call would not make up for (`Loop.faithful_iff_harmless`).
* If a new call always comes to wait where the one before did, then every future may be dropped
  (`Async.Restartable.faithful`).
-/

namespace Framing

/-! ## Asynchronous functions -/

/-- An asynchronous function with state `σ` that reads `R`s, with errors `ε` and results `α`. -/
inductive Async (σ R ε α : Type*)
  | done (result : Except ε α)
  | get (k : σ → Async σ R ε α)
  | set (s : σ) (rest : Async σ R ε α)
  /-- The function waits for a read. -/
  | read (k : R → Async σ R ε α)

namespace Async

section Monad

variable {σ R ε : Type*} {α α' : Type*}

/-- One function after another, unless the first fails. -/
def bind : Async σ R ε α → (α → Async σ R ε α') → Async σ R ε α'
  | .done (.ok a), f => f a
  | .done (.error e), _ => .done (.error e)
  | .get k, f => .get fun s => (k s).bind f
  | .set s rest, f => .set s (rest.bind f)
  | .read k, f => .read fun r => (k r).bind f

instance : Monad (Async σ R ε) where
  pure a := .done (.ok a)
  bind := bind

/-- Failing. -/
def throw (e : ε) : Async σ R ε α := .done (.error e)

end Monad

variable {σ β φ δ ρ ε α : Type*}

/-- Running to the end over a stream: the result, and what is left of the state and the
    stream. -/
def exec (d : Decoder β φ δ) : Async σ (Except (ReadError ρ δ) φ) ε α → σ → Reader β ρ →
    Except ε α × σ × Reader β ρ
  | .done result, s, r => (result, s, r)
  | .get k, s, r => exec d (k s) s r
  | .set s rest, _, r => exec d rest s r
  | .read k, s, r => exec d (k (r.next d).1) s (r.next d).2

/-- Running as far as the buffer goes: what is left to run, and of the state and the buffer. -/
def poll (d : Decoder β φ δ) : Async σ (Except (ReadError ρ δ) φ) ε α → σ → List β →
    Async σ (Except (ReadError ρ δ) φ) ε α × σ × List β
  | .done result, s, buf => (.done result, s, buf)
  | .get k, s, buf => poll d (k s) s buf
  | .set s rest, _, buf => poll d rest s buf
  | .read k, s, buf =>
    match d.decode buf with
    | .ok (some (f, n)) => poll d (k (.ok f)) s (buf.drop n)
    | .error e => poll d (k (.error (.malformed e))) s buf
    | .ok none => (.read k, s, buf)

/-- The results of calling `f` up to `n` times in a row, with the first call as far as `p`
    already. An error ends the calls. -/
def results (d : Decoder β φ δ) (f : Async σ (Except (ReadError ρ δ) φ) ε α) :
    ℕ → Async σ (Except (ReadError ρ δ) φ) ε α → σ → Reader β ρ → List (Except ε α)
  | 0, _, _, _ => []
  | n + 1, p, s, r =>
    match p.exec d s r with
    | (.error e, _) => [.error e]
    | (.ok a, s, r) => .ok a :: results d f n f s r

/-- The function has come to its end, or to a read for which the buffer is too short. -/
def Settled (d : Decoder β φ δ) (buf : List β) : Async σ (Except (ReadError ρ δ) φ) ε α → Prop
  | .done _ => True
  | .read _ => d.decode buf = .ok none
  | _ => False

/-- Called anew where it has come to wait, the function comes to wait there again. -/
def Restartable (d : Decoder β φ δ) (f : Async σ (Except (ReadError ρ δ) φ) ε α) : Prop :=
  ∀ s buf, (∃ result, (f.poll d s buf).1 = .done result) ∨
    f.poll d (f.poll d s buf).2.1 (f.poll d s buf).2.2 = f.poll d s buf

variable {d : Decoder β φ δ} {f p : Async σ (Except (ReadError ρ δ) φ) ε α} {s : σ}
  {buf : List β}

/-- Running one function after another is running the first, and then the second unless the first
    has failed. -/
theorem exec_bind {α' : Type*} (p : Async σ (Except (ReadError ρ δ) φ) ε α)
    (k : α → Async σ (Except (ReadError ρ δ) φ) ε α') (s : σ) (r : Reader β ρ) :
    (p.bind k).exec d s r =
      match p.exec d s r with
      | (.ok a, s', r') => (k a).exec d s' r'
      | (.error e, s', r') => (.error e, s', r') := by
  induction p generalizing s r with
  | done result => cases result <;> rfl
  | get k' ih => exact ih s s r
  | set s' rest ih => exact ih s' r
  | read k' ih => exact ih _ s _

theorem settled_poll (p : Async σ (Except (ReadError ρ δ) φ) ε α) (s : σ) (buf : List β) :
    Settled d (p.poll d s buf).2.2 (p.poll d s buf).1 := by
  induction p generalizing s buf with
  | done result => trivial
  | get k ih => exact ih s s buf
  | set s' rest ih => exact ih s' buf
  | read k ih =>
    simp only [poll]
    split
    · exact ih _ _ _
    · exact ih _ _ _
    · next hdecode => exact hdecode

/-- Running as far as the buffer goes changes nothing about the end. -/
theorem exec_poll (p : Async σ (Except (ReadError ρ δ) φ) ε α) (s : σ) (buf : List β)
    (source : Source β ρ) :
    (p.poll d s buf).1.exec d (p.poll d s buf).2.1 ⟨source, (p.poll d s buf).2.2⟩ =
      p.exec d s ⟨source, buf⟩ := by
  induction p generalizing s buf with
  | done result => rfl
  | get k ih => exact ih s s buf
  | set s' rest ih => exact ih s' buf
  | read k ih =>
    simp only [poll]
    split
    · next fr n hdecode => rw [ih, exec, Reader.next_of_decode hdecode]
    · next e hdecode => rw [ih, exec, Reader.next_of_decode_error hdecode]
    · rfl

/-- Running as far as the buffer goes changes nothing about how far it goes with more. -/
theorem poll_poll_append (p : Async σ (Except (ReadError ρ δ) φ) ε α) (s : σ) (buf more : List β) :
    (p.poll d s buf).1.poll d (p.poll d s buf).2.1 ((p.poll d s buf).2.2 ++ more) =
      p.poll d s (buf ++ more) := by
  induction p generalizing s buf with
  | done result => rfl
  | get k ih => exact ih s s buf
  | set s' rest ih => exact ih s' buf
  | read k ih =>
    cases hdecode : d.decode buf with
    | error e => simp only [poll, hdecode, d.error_append more hdecode, ih]
    | ok result =>
      cases result with
      | none => simp only [poll, hdecode]
      | some fn =>
        obtain ⟨fr, n⟩ := fn
        simp only [poll, hdecode, d.frame_append more hdecode, ih]
        rw [List.drop_append_of_le_length (d.le_length hdecode)]

/-- A function that waits for a read goes on with the next chunk. -/
theorem Settled.exec_cons (h : Settled d buf p) (hp : ∀ result, p ≠ .done result) {c : Chunk β}
    {chunks : List (Chunk β)} {ending : Option ρ} :
    p.exec d s ⟨⟨c :: chunks, ending⟩, buf⟩ = p.exec d s ⟨⟨chunks, ending⟩, buf ++ c.1⟩ := by
  cases p with
  | done result => exact absurd rfl (hp result)
  | get k | set s rest => exact h.elim
  | read k => rw [exec, exec, Reader.next_of_decode_none h]

/-- What a function gives that has run as far as the buffer goes is what it gives anyway. -/
theorem results_poll {n : ℕ} {source : Source β ρ} :
    results d f n (p.poll d s buf).1 (p.poll d s buf).2.1 ⟨source, (p.poll d s buf).2.2⟩ =
      results d f n p s ⟨source, buf⟩ := by
  cases n with
  | zero => rfl
  | succ n => rw [results, results, exec_poll]

end Async

/-! ## Loops -/

/-- A loop that calls a function time and again: the state and the buffer, the future that waits,
    and the results so far. -/
structure Loop (σ β R ε α : Type*) where
  state : σ
  buf : List β
  future : Option (Async σ R ε α)
  results : List (Except ε α)

/-- What happens in a loop. -/
inductive CallEvent (β : Type*)
  /-- The function is called. -/
  | call
  /-- The next chunk of the stream arrives. -/
  | chunk (c : Chunk β)
  /-- The future is dropped where it waits, and the function called anew. -/
  | reissue

/-- The chunk that arrives. -/
def CallEvent.chunk? {β : Type*} : CallEvent β → Option (Chunk β)
  | .chunk c => some c
  | _ => none

/-- The chunks that arrive. -/
def arrived {β : Type*} (es : List (CallEvent β)) : List (Chunk β) := es.filterMap CallEvent.chunk?

namespace Loop

section Steps

variable {σ β R ε α : Type*}

/-- A loop before the first call. -/
def start (s : σ) (buf : List β) : Loop σ β R ε α := ⟨s, buf, none, []⟩

/-- An error has ended the loop. -/
def ended (l : Loop σ β R ε α) : Bool :=
  match l.results.getLast? with
  | some (.error _) => true
  | _ => false

/-- The loop with what a future has come to: its result, or itself if it waits. -/
def settle (l : Loop σ β R ε α) : Async σ R ε α × σ × List β → Loop σ β R ε α
  | (.done result, s, buf) => ⟨s, buf, none, l.results ++ [result]⟩
  | (p, s, buf) => ⟨s, buf, some p, l.results⟩

end Steps

variable {σ β φ δ ρ ε α : Type*} (d : Decoder β φ δ)
  (f : Async σ (Except (ReadError ρ δ) φ) ε α)

/-- The steps of a loop that calls `f`. -/
def step (l : Loop σ β (Except (ReadError ρ δ) φ) ε α) :
    CallEvent β → Option (Loop σ β (Except (ReadError ρ δ) φ) ε α)
  | .call =>
    if l.future.isNone && !l.ended then some (l.settle (f.poll d l.state l.buf)) else none
  | .chunk c => l.future.map fun p => l.settle (p.poll d l.state (l.buf ++ c.1))
  | .reissue => l.future.map fun _ => l.settle (f.poll d l.state l.buf)

/-- A loop that calls `f`, as a machine. -/
def machine : Machine (Loop σ β (Except (ReadError ρ δ) φ) ε α) (CallEvent β) := ⟨step d f⟩

/-- All the loop has got, and gets with up to `n` more results, if it is left alone and the stream
    goes on with the source. -/
def outcome (l : Loop σ β (Except (ReadError ρ δ) φ) ε α) (source : Source β ρ) (n : ℕ) :
    List (Except ε α) :=
  if l.ended then l.results
  else l.results ++ f.results d n (l.future.getD f) l.state ⟨source, l.buf⟩

/-- With what the loop has got so far, and whatever the stream goes on with, it gets what a loop
    would have got that had been left alone since `l₀`. -/
def Faithful (l₀ : Loop σ β (Except (ReadError ρ δ) φ) ε α) (es : List (CallEvent β))
    (l : Loop σ β (Except (ReadError ρ δ) φ) ε α) : Prop :=
  ∀ chunks ending n, l.outcome d f ⟨chunks, ending⟩ n =
    l₀.outcome d f ⟨arrived es ++ chunks, ending⟩ (l.results.length + n)

/-- The future that waits may be dropped: a new call gives the same, whatever the stream goes on
    with. -/
def Harmless (l : Loop σ β (Except (ReadError ρ δ) φ) ε α) : Prop :=
  ∀ source n, f.results d n f l.state ⟨source, l.buf⟩ =
    f.results d n (l.future.getD f) l.state ⟨source, l.buf⟩

/-- A future that waits is at a read for which the buffer is too short, and the loop goes on. -/
def Waiting (l : Loop σ β (Except (ReadError ρ δ) φ) ε α) : Prop :=
  ∀ p, l.future = some p → p.Settled d l.buf ∧ (∀ result, p ≠ .done result) ∧ l.ended = false

variable {d f} {l l' : Loop σ β (Except (ReadError ρ δ) φ) ε α} {es : List (CallEvent β)}
  {e : CallEvent β}

theorem waiting_start (s : σ) (buf : List β) :
    (start s buf : Loop σ β (Except (ReadError ρ δ) φ) ε α).Waiting d := fun p hp => by cases hp

/-- Where a future has come to, a loop is waiting or has a result more. -/
theorem settle_cases (l : Loop σ β (Except (ReadError ρ δ) φ) ε α)
    (p : Async σ (Except (ReadError ρ δ) φ) ε α) (s : σ) (buf : List β) :
    (∃ result, (p.poll d s buf).1 = .done result ∧ l.settle (p.poll d s buf) =
      ⟨(p.poll d s buf).2.1, (p.poll d s buf).2.2, none, l.results ++ [result]⟩) ∨
    (∀ result, (p.poll d s buf).1 ≠ .done result) ∧ l.settle (p.poll d s buf) =
      ⟨(p.poll d s buf).2.1, (p.poll d s buf).2.2, some (p.poll d s buf).1, l.results⟩ := by
  obtain ⟨p', s', buf'⟩ := p.poll d s buf
  cases p' with
  | done result => exact .inl ⟨result, rfl, rfl⟩
  | get k | set s rest | read k => exact .inr ⟨by simp, rfl⟩

/-- A loop waits or has a result more, where a future has come to. -/
theorem waiting_settle (hended : l.ended = false)
    (p : Async σ (Except (ReadError ρ δ) φ) ε α) (s : σ) (buf : List β) :
    (l.settle (p.poll d s buf)).Waiting d := by
  rcases settle_cases l p s buf with ⟨result, -, hsettle⟩ | ⟨hne, hsettle⟩
  · rw [hsettle]
    exact fun p' hp' => by cases hp'
  · rw [hsettle]
    intro p' hp'
    cases hp'
    exact ⟨p.settled_poll s buf, hne, hended⟩

/-- A loop that has taken a future as far as the buffer goes gets what the future gives. -/
theorem outcome_settle (hended : l.ended = false)
    (p : Async σ (Except (ReadError ρ δ) φ) ε α) (s : σ) (buf : List β) :
    ∃ k ≤ 1, (l.settle (p.poll d s buf)).results.length = l.results.length + k ∧
      ∀ source n, (l.settle (p.poll d s buf)).outcome d f source n =
        l.results ++ f.results d (k + n) p s ⟨source, buf⟩ := by
  rcases settle_cases l p s buf with ⟨result, hdone, hsettle⟩ | ⟨hne, hsettle⟩
  · -- the future has come to its end
    refine ⟨1, Nat.le_refl 1, by rw [hsettle]; simp, fun source n => ?_⟩
    have hexec := p.exec_poll (d := d) s buf source
    rw [hdone, Async.exec] at hexec
    rw [hsettle, Nat.add_comm, Async.results, ← hexec]
    cases result with
    | error e => simp [outcome, ended]
    | ok a => simp [outcome, ended]
  · refine ⟨0, Nat.zero_le 1, by rw [hsettle]; rfl, fun source n => ?_⟩
    rw [hsettle, Nat.zero_add, ← Async.results_poll, outcome]
    exact if_neg (by rw [← Bool.not_eq_true] at hended; exact hended)

/-! ### Steps -/

theorem step_call (h : l.step d f .call = some l') :
    l.future = none ∧ l.ended = false ∧ l' = l.settle (f.poll d l.state l.buf) := by
  simp only [step, Bool.and_eq_true, Bool.not_eq_true', Option.isNone_iff_eq_none,
    Option.ite_none_right_eq_some, Option.some.injEq] at h
  exact ⟨h.1.1, h.1.2, h.2.symm⟩

theorem step_chunk {c : Chunk β} (h : l.step d f (.chunk c) = some l') :
    ∃ p, l.future = some p ∧ l' = l.settle (p.poll d l.state (l.buf ++ c.1)) := by
  obtain ⟨p, hp, rfl⟩ := Option.map_eq_some_iff.1 h
  exact ⟨p, hp, rfl⟩

theorem step_reissue (h : l.step d f .reissue = some l') :
    ∃ p, l.future = some p ∧ l' = l.settle (f.poll d l.state l.buf) := by
  obtain ⟨p, hp, rfl⟩ := Option.map_eq_some_iff.1 h
  exact ⟨p, hp, rfl⟩

/-- Every step leaves a future that waits waiting. -/
theorem Waiting.step (h : l.Waiting d) (hstep : l.step d f e = some l') : l'.Waiting d := by
  cases e with
  | call =>
    obtain ⟨-, hended, rfl⟩ := step_call hstep
    exact waiting_settle hended f _ _
  | chunk c =>
    obtain ⟨p, hp, rfl⟩ := step_chunk hstep
    exact waiting_settle (h p hp).2.2 p _ _
  | reissue =>
    obtain ⟨p, hp, rfl⟩ := step_reissue hstep
    exact waiting_settle (h p hp).2.2 f _ _

/-- A step that drops no future leaves what the loop gets if left alone. -/
theorem outcome_step (h : l.Waiting d) (hstep : l.step d f e = some l') (he : e ≠ .reissue) :
    ∃ k, l'.results.length = l.results.length + k ∧ ∀ chunks ending n,
      l'.outcome d f ⟨chunks, ending⟩ n =
        l.outcome d f ⟨(e.chunk?).toList ++ chunks, ending⟩ (k + n) := by
  cases e with
  | reissue => exact absurd rfl he
  | call =>
    obtain ⟨hnone, hended, rfl⟩ := step_call hstep
    obtain ⟨k, -, hlength, houtcome⟩ := outcome_settle (d := d) (f := f) hended f l.state l.buf
    refine ⟨k, hlength, fun chunks ending n => ?_⟩
    rw [houtcome, outcome, hended, hnone]
    rfl
  | chunk c =>
    obtain ⟨p, hp, rfl⟩ := step_chunk hstep
    obtain ⟨hsettled, hne, hended⟩ := h p hp
    obtain ⟨k, -, hlength, houtcome⟩ :=
      outcome_settle (d := d) (f := f) hended p l.state (l.buf ++ c.1)
    refine ⟨k, hlength, fun chunks ending n => ?_⟩
    rw [houtcome, outcome, hended, hp]
    -- the future has been waiting for the chunk
    cases hkn : k + n with
    | zero => rfl
    | succ m =>
      simp only [Async.results, Option.getD_some]
      exact congrArg (l.results ++ ·) (by rw [← hsettled.exec_cons hne]; rfl)

/-- A loop whose future is dropped gets what a new call gives. -/
theorem outcome_reissue (h : l.Waiting d) (hstep : l.step d f .reissue = some l') :
    ∃ k ≤ 1, l'.results.length = l.results.length + k ∧ ∀ source n,
      l'.outcome d f source n = l.results ++ f.results d (k + n) f l.state ⟨source, l.buf⟩ := by
  obtain ⟨p, hp, rfl⟩ := step_reissue hstep
  exact outcome_settle (h p hp).2.2 f l.state l.buf

/-- Without a future there is nothing to drop. -/
theorem harmless_of_none (h : l.future = none) : l.Harmless d f := by
  intro source n
  rw [h]
  rfl

@[simp] theorem arrived_append_singleton :
    arrived (es ++ [e]) = arrived es ++ (e.chunk?).toList := by
  rw [arrived, List.filterMap_append]
  cases e <;> rfl

/-- A step keeps a loop faithful exactly if it drops no future but one that may be dropped. -/
theorem Faithful.step {l₀ : Loop σ β (Except (ReadError ρ δ) φ) ε α} (h : Faithful d f l₀ es l)
    (hwait : l.Waiting d) (hstep : l.step d f e = some l') :
    Faithful d f l₀ (es ++ [e]) l' ↔ (e = .reissue → l.Harmless d f) := by
  by_cases he : e = .reissue
  · subst he
    obtain ⟨k, hk, hlength, houtcome⟩ := outcome_reissue hwait hstep
    have hended : l.ended = false := by
      obtain ⟨p, hp, -⟩ := step_reissue hstep
      exact (hwait p hp).2.2
    -- what the loop was to get if left alone, as the one left alone all along gets it
    have halone : ∀ chunks ending n, l.results ++
        f.results d n (l.future.getD f) l.state ⟨⟨chunks, ending⟩, l.buf⟩ =
          l₀.outcome d f ⟨arrived es ++ chunks, ending⟩ (l.results.length + n) := by
      intro chunks ending n
      rw [← h chunks ending n, outcome, hended]
      rfl
    have harrived : arrived (es ++ [.reissue]) = arrived es := by simp [CallEvent.chunk?]
    simp only [forall_const, Faithful, harrived, hlength, houtcome, Nat.add_assoc, ← halone,
      List.append_cancel_left_eq]
    constructor
    · rintro h' ⟨chunks, ending⟩ n
      by_cases hn : k ≤ n
      · obtain ⟨m, rfl⟩ := Nat.exists_eq_add_of_le hn
        exact h' chunks ending m
      · obtain rfl : n = 0 := by omega
        rfl
    · exact fun h' chunks ending n => h' ⟨chunks, ending⟩ (k + n)
  · refine iff_of_true (fun chunks ending n => ?_) fun he' => absurd he' he
    obtain ⟨k, hlength, houtcome⟩ := outcome_step hwait hstep he
    rw [houtcome, h, hlength, arrived_append_singleton, List.append_assoc, Nat.add_assoc]

theorem Waiting.run (h : l.Waiting d) (hrun : (machine d f).run l es = some l') : l'.Waiting d :=
  Machine.run_invariant (fun _ _ _ hw hstep => hw.step hstep) h hrun

theorem faithful_nil (l : Loop σ β (Except (ReadError ρ δ) φ) ε α) (h : l.results = []) :
    Faithful d f l [] l := by
  intro chunks ending n
  rw [h]
  exact congrArg _ (Nat.zero_add n).symm

/-- A loop is faithful all along exactly if every future that is dropped may be dropped. -/
theorem faithful_iff_harmless {s : σ} {buf : List β} :
    (∀ es', es' <+: es → ∀ l, (machine d f).run (start s buf) es' = some l →
      Faithful d f (start s buf) es' l) ↔
    ∀ es', es' ++ [.reissue] <+: es → ∀ l, (machine d f).run (start s buf) es' = some l →
      l.Harmless d f := by
  have hstep : ∀ es' e, (∀ l, (machine d f).run (start s buf) es' = some l →
      Faithful d f (start s buf) es' l) →
      ((∀ l, (machine d f).run (start s buf) (es' ++ [e]) = some l →
        Faithful d f (start s buf) (es' ++ [e]) l) ↔
      (e = .reissue → ∀ l, (machine d f).run (start s buf) es' = some l → l.Harmless d f)) := by
    intro es' e hfaithful
    constructor
    · rintro h rfl l hrun
      cases hp : l.future with
      | none => exact harmless_of_none hp
      | some p =>
        have hl' : l.step d f .reissue = some (l.settle (f.poll d l.state l.buf)) := by
          rw [step, hp]
          rfl
        have hrun' : (machine d f).run (start s buf) (es' ++ [.reissue]) = some _ :=
          Machine.run_append_eq_some.2 ⟨l, hrun, Machine.run_cons_eq_some.2 ⟨_, hl', rfl⟩⟩
        exact ((hfaithful l hrun).step ((waiting_start s buf).run hrun) hl').1 (h _ hrun') rfl
    · intro h l' hrun
      obtain ⟨l, hl, hrun⟩ := Machine.run_append_eq_some.1 hrun
      obtain ⟨l'', hl', hnil⟩ := Machine.run_cons_eq_some.1 hrun
      obtain rfl := Option.some.inj hnil
      exact ((hfaithful l hl).step ((waiting_start s buf).run hl) hl').2 fun he => h he l hl
  have hnil : ∀ l, (machine d f).run (start s buf) [] = some l →
      Faithful d f (start s buf) [] l := by
    intro l hl
    obtain rfl := Option.some.inj hl
    exact faithful_nil _ rfl
  refine (Histories.forall_prefix_iff hnil hstep).trans ⟨fun h es' hes' => h es' _ hes' rfl, ?_⟩
  rintro h es' e hes' rfl
  exact h es' hes'

end Loop

/-! ### Restartable functions -/

namespace Loop

variable {σ β φ δ ρ ε α : Type*} {d : Decoder β φ δ}
  {f : Async σ (Except (ReadError ρ δ) φ) ε α}
  {l l' : Loop σ β (Except (ReadError ρ δ) φ) ε α} {es : List (CallEvent β)} {e : CallEvent β}

/-- A future that waits is where a new call comes to wait. -/
def Resumes (d : Decoder β φ δ) (f : Async σ (Except (ReadError ρ δ) φ) ε α)
    (l : Loop σ β (Except (ReadError ρ δ) φ) ε α) : Prop :=
  ∀ p, l.future = some p → f.poll d l.state l.buf = (p, l.state, l.buf)

theorem resumes_settle (hf : f.Restartable d) (l : Loop σ β (Except (ReadError ρ δ) φ) ε α) (s : σ)
    (buf : List β) : (l.settle (f.poll d s buf)).Resumes d f := by
  intro p hp
  rcases settle_cases l f s buf with ⟨result, -, hsettle⟩ | ⟨hne, hsettle⟩
  · rw [hsettle] at hp
    cases hp
  · rw [hsettle] at hp ⊢
    cases hp
    exact (hf s buf).resolve_left fun ⟨result, hdone⟩ => hne result hdone

/-- A chunk takes a future where it takes a new call. -/
theorem Resumes.step (h : l.Resumes d f) (hf : f.Restartable d)
    (hstep : l.step d f e = some l') : l'.Resumes d f := by
  cases e with
  | call =>
    obtain ⟨-, -, rfl⟩ := step_call hstep
    exact resumes_settle hf l _ _
  | reissue =>
    obtain ⟨p, -, rfl⟩ := step_reissue hstep
    exact resumes_settle hf l _ _
  | chunk c =>
    obtain ⟨p, hp, rfl⟩ := step_chunk hstep
    have hpoll := f.poll_poll_append (d := d) l.state l.buf c.1
    rw [h p hp] at hpoll
    rw [hpoll]
    exact resumes_settle hf l _ _

theorem Resumes.harmless (h : l.Resumes d f) : l.Harmless d f := by
  intro source n
  cases hp : l.future with
  | none => rfl
  | some p =>
    have hpoll := @Async.results_poll _ _ _ _ _ _ _ d f f l.state l.buf n source
    rw [h p hp] at hpoll
    exact hpoll.symm

end Loop

/-- Whenever futures of a restartable function are dropped, its loop gets what it would have got
    if left alone. -/
theorem Async.Restartable.faithful {σ β φ δ ρ ε α : Type*} {d : Decoder β φ δ}
    {f : Async σ (Except (ReadError ρ δ) φ) ε α} (hf : f.Restartable d) {s : σ} {buf : List β}
    {es : List (CallEvent β)} {l : Loop σ β (Except (ReadError ρ δ) φ) ε α}
    (hrun : (Loop.machine d f).run (.start s buf) es = some l) :
    Loop.Faithful d f (.start s buf) es l := by
  refine Loop.faithful_iff_harmless.2 (fun es' _ l' hl' => ?_) es (List.prefix_refl es) l hrun
  have hresumes : l'.Resumes d f :=
    Machine.run_invariant (fun _ _ _ h hstep => h.step hf hstep) (fun p hp => by cases hp) hl'
  exact hresumes.harmless

end Framing
