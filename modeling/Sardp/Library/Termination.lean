import Sardp.Library.Cancellation
import Sardp.Library.Contents

/-!
# Frames that end a stream

A function that reads frames may fail on some of them, without reading any more
(`Async.Refuses`). A stream that carries such a frame ends there: a call that comes to it gives an
error, as it would if the stream ended before the frame, and the calls before it give what they
would anyway (`Async.Refuses.results`). If every call takes a frame at least (`Async.Takes`), then
the calls do come to it (`Async.Refuses.results_ends`).
-/

namespace Framing

namespace Async

section Programs

variable {σ R ε α α' : Type*}

/-- The function fails without reading any more. -/
def Fails : Async σ R ε α → Prop
  | .done (.ok _) => False
  | .done (.error _) => True
  | .get k => ∀ s, (k s).Fails
  | .set _ rest => rest.Fails
  | .read _ => False

/-- The function fails wherever what it reads is refused. -/
def Refuses (refused : R → Prop) : Async σ R ε α → Prop
  | .done _ => True
  | .get k => ∀ s, (k s).Refuses refused
  | .set _ rest => rest.Refuses refused
  | .read k => (∀ r, refused r → (k r).Fails) ∧ ∀ r, (k r).Refuses refused

/-- The function reads at least once before it succeeds. -/
def Takes : Async σ R ε α → Prop
  | .done (.ok _) => False
  | .done (.error _) => True
  | .get k => ∀ s, (k s).Takes
  | .set _ rest => rest.Takes
  | .read _ => True

variable {refused : R → Prop} {p : Async σ R ε α} {f : α → Async σ R ε α'}

theorem Fails.bind (h : p.Fails) (f : α → Async σ R ε α') : (p.bind f).Fails := by
  induction p with
  | done result =>
    cases result with
    | ok a => exact h.elim
    | error e => trivial
  | get k ih => exact fun s => ih s (h s)
  | set s rest ih => exact ih h
  | read k ih => exact h.elim

/-- One function after another refuses what both of them do. -/
theorem Refuses.bind (h : p.Refuses refused) (hf : ∀ a, (f a).Refuses refused) :
    (p.bind f).Refuses refused := by
  induction p with
  | done result =>
    cases result with
    | ok a => exact hf a
    | error e => trivial
  | get k ih => exact fun s => ih s (h s)
  | set s rest ih => exact ih h
  | read k ih => exact ⟨fun r hr => (h.1 r hr).bind f, fun r => ih r (h.2 r)⟩

theorem Takes.bind (h : p.Takes) (f : α → Async σ R ε α') : (p.bind f).Takes := by
  induction p with
  | done result =>
    cases result with
    | ok a => exact h.elim
    | error e => trivial
  | get k ih => exact fun s => ih s (h s)
  | set s rest ih => exact ih h
  | read k ih => trivial

end Programs

variable {σ β φ δ ρ ε α : Type*} {d : Decoder β φ δ} {hd : d.Progressive}
  {f p : Async σ (Except (ReadError ρ δ) φ) ε α} {s : σ} {r r₀ : Reader β ρ} {x : φ}
  {pre post tail tail₀ : List φ} {stop stop₀ : ReadError ρ δ}

theorem Fails.exec (h : p.Fails) (s : σ) (r : Reader β ρ) :
    ∃ e y, p.exec d s r = (.error e, y) := by
  induction p generalizing s with
  | done result =>
    cases result with
    | ok a => exact h.elim
    | error e => exact ⟨e, _, rfl⟩
  | get k ih => exact ih s (h s) s
  | set s' rest ih => exact ih h s'
  | read k ih => exact h.elim

/-- What is read is no frame but `x`. -/
def NoneBut (x : φ) (read : Except (ReadError ρ δ) φ) : Prop := ∀ f, read = .ok f → f = x

/-- The stream goes on with `x`, or ends. -/
def StartsWith (x : φ) (tail : List φ) : Prop := ∀ f ∈ tail.head?, f = x

theorem startsWith_nil : StartsWith x [] := fun _ hf => by cases hf

theorem startsWith_cons : StartsWith x (x :: post) := fun _ hf => (Option.some.inj hf).symm

/-- A read of a frame that is refused, or of the end, fails. -/
theorem exec_read_of_startsWith {k : Except (ReadError ρ δ) φ → Async σ _ ε α}
    (h : ∀ read, NoneBut x read → (k read).Fails) (htail : StartsWith x tail)
    (hr : Holds d hd r tail stop) (s : σ) : ∃ e y, (Async.read k).exec d s r = (.error e, y) := by
  cases tail with
  | nil =>
    obtain ⟨r', hnext, -⟩ := hr.next_nil
    rw [exec, hnext]
    exact (h (.error stop) fun f hf => by cases hf).exec s r'
  | cons y tail =>
    obtain ⟨r', hnext, -⟩ := hr.next_cons
    rw [exec, hnext]
    exact (h (.ok y) fun f hf => Except.ok.inj hf ▸ htail y rfl).exec s r'

/-- Over two streams with the same frames up to the refused one, a function gives the same and has
    not come to it, or it fails over both. -/
theorem Refuses.exec (h : p.Refuses (NoneBut x)) (htail : StartsWith x tail)
    (htail₀ : StartsWith x tail₀) (hr : Holds d hd r (pre ++ tail) stop)
    (hr₀ : Holds d hd r₀ (pre ++ tail₀) stop₀) (s : σ) :
    (∃ a s' r' r₀' pre', p.exec d s r = (.ok a, s', r') ∧ p.exec d s r₀ = (.ok a, s', r₀') ∧
      Holds d hd r' (pre' ++ tail) stop ∧ Holds d hd r₀' (pre' ++ tail₀) stop₀ ∧
      pre'.length ≤ pre.length ∧ (p.Takes → pre'.length < pre.length)) ∨
    (∃ e y, p.exec d s r = (.error e, y)) ∧ ∃ e y, p.exec d s r₀ = (.error e, y) := by
  induction p generalizing s r r₀ pre with
  | done result =>
    cases result with
    | ok a => exact .inl ⟨a, s, r, r₀, pre, rfl, rfl, hr, hr₀, Nat.le_refl _, False.elim⟩
    | error e => exact .inr ⟨⟨e, _, rfl⟩, e, _, rfl⟩
  | get k ih =>
    rcases ih s (h s) hr hr₀ s with ⟨a, s', r', r₀', pre', hexec, hexec₀, hr', hr₀', hle, htakes⟩ |
      herror
    · exact .inl ⟨a, s', r', r₀', pre', hexec, hexec₀, hr', hr₀', hle, fun ht => htakes (ht s)⟩
    · exact .inr herror
  | set s' rest ih => exact ih h hr hr₀ s'
  | read k ih =>
    cases pre with
    | nil =>
      exact .inr ⟨exec_read_of_startsWith h.1 htail hr s, exec_read_of_startsWith h.1 htail₀ hr₀ s⟩
    | cons fr pre =>
      obtain ⟨r', hnext, hr'⟩ := hr.next_cons
      obtain ⟨r₀', hnext₀, hr₀'⟩ := hr₀.next_cons
      rw [exec, exec, hnext, hnext₀]
      rcases ih (.ok fr) (h.2 (.ok fr)) hr' hr₀' s with
        ⟨a, s', r'', r₀'', pre', hexec, hexec₀, hr'', hr₀'', hle, -⟩ | herror
      · exact .inl ⟨a, s', r'', r₀'', pre', hexec, hexec₀, hr'', hr₀'', Nat.le_succ_of_le hle,
          fun _ => Nat.lt_succ_of_le hle⟩
      · exact .inr herror

/-- The calls before the refused frame give what they would if the stream ended there, and there is
    an error over both streams at the same call. -/
theorem Refuses.results (hp : p.Refuses (NoneBut x)) (hf : f.Refuses (NoneBut x))
    (hr : Holds d hd r (pre ++ x :: post) stop) (hr₀ : Holds d hd r₀ pre stop₀) (s : σ) (n : ℕ) :
    (f.results d n p s r).map Except.toOption = (f.results d n p s r₀).map Except.toOption := by
  rw [← List.append_nil pre] at hr₀
  induction n generalizing p s r r₀ pre with
  | zero => rfl
  | succ n ih =>
    rcases hp.exec startsWith_cons startsWith_nil hr hr₀ s with
      ⟨a, s', r', r₀', pre', hexec, hexec₀, hr', hr₀', -, -⟩ | ⟨⟨e, y, hexec⟩, e₀, y₀, hexec₀⟩
    · rw [Async.results, Async.results, hexec, hexec₀]
      simp only [List.map_cons]
      rw [ih hf hr' hr₀' s']
    · rw [Async.results, Async.results, hexec, hexec₀]
      rfl

/-- As many calls as there are frames up to the refused one come to an error. -/
theorem Refuses.results_ends (hp : p.Refuses (NoneBut x)) (hf : f.Refuses (NoneBut x))
    (hptakes : p.Takes) (hftakes : f.Takes) (hr : Holds d hd r (pre ++ x :: post) stop) (s : σ)
    {n : ℕ} (hn : pre.length < n) : ∃ e, (f.results d n p s r).getLast? = some (.error e) := by
  induction n generalizing p s r pre with
  | zero => omega
  | succ n ih =>
    rcases hp.exec startsWith_cons startsWith_cons hr hr s with
      ⟨a, s', r', -, pre', hexec, -, hr', -, -, htakes⟩ | ⟨⟨e, y, hexec⟩, -⟩
    · obtain ⟨e, he⟩ := ih hf hftakes hr' s' (by have := htakes hptakes; omega)
      refine ⟨e, ?_⟩
      rw [Async.results, hexec]
      simp only
      rw [List.getLast?_cons, he]
      rfl
    · refine ⟨e, ?_⟩
      rw [Async.results, hexec]
      rfl

end Async

end Framing
