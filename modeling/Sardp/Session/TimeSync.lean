import Mathlib.Data.Real.Basic
import Sardp.Library.ClockSync
import Sardp.Library.FixedWidth
import Sardp.Server.ConnError
import Sardp.Session.StreamReaders

/-!
# The clock of the server

The client asks the server for the time, a few times, and goes by the answer that came fastest
(`timesync.rs`). The four times of an exchange (`ClockSync.Exchange`) give the round trip and, up to
half of it, the offset of the server's clock, as long as the times are small enough for the
arithmetic (`SyncRound.compute_accurate`). Of several answers, `bestOf` takes the last one with the
smallest round trip.

The times are numbers of 64 bits, of which the server chooses three. They are taken as signed ones,
and differences of such need not fit. The arithmetic of an exchange and of a conversion by its
offset overflows nowhere exactly if four differences and the converted time fit
(`clientTimeSync_tolerates_iff`).
-/

namespace Sardp

namespace TypeId

def TIME_SYNC_RESPONSE : UInt16 := 0x000A

end TypeId

/-- The signed integers of 64 bits. -/
abbrev I64 := Signed 63

/-- Taking an unsigned integer as a signed one, by its bits. -/
def asI64 (t : UInt64) : I64 := .cast 63 t.toNat

/-- What an exchange told. -/
structure TimeSyncResult where
  /-- How far the clock of the server is ahead. -/
  offsetUs : I64
  rttUs : ℕ
  deriving DecidableEq

/-- The answer of the server, to a request sent at `t1`. -/
structure TimeSyncResponse where
  t1 : UInt64
  t2 : UInt64
  t3 : UInt64
  deriving DecidableEq

/-- The offset and the round trip of the four times of an exchange; `none` if the arithmetic
    panics. -/
def compute (mode : Overflow) (t1 t2 t3 t4 : UInt64) : Option TimeSyncResult := do
  let (t1, t2, t3, t4) := (asI64 t1, asI64 t2, asI64 t3, asI64 t4)
  let there ← mode.sub t2 t1
  let back ← mode.sub t3 t4
  let sum ← mode.add there back
  let elapsed ← mode.sub t4 t1
  let processing ← mode.sub t3 t2
  let rtt ← mode.sub elapsed processing
  -- a negative round trip only comes of times that cannot be
  return { offsetUs := sum.half, rttUs := (max rtt.val 0).toNat }

/-- Converting a time of the client to one of the server; `none` if the arithmetic panics. -/
def toResponderClock (mode : Overflow) (localTs : UInt64) (offsetUs : I64) : Option ℕ := do
  let sum ← mode.add (asI64 localTs) offsetUs
  return (max sum.val 0).toNat

/-- An exchange, from what becomes of the request and what is read at `t4`, the answer as far as it
    decodes; `none` if the arithmetic panics. -/
def clientTimeSyncOnce (mode : Overflow) (written : Except Quinn.WriteError Unit)
    (answer : Except StreamReadError (UInt16 × Option TimeSyncResponse)) (t4 : UInt64) :
    Option (Except TimeSyncError TimeSyncResult) :=
  match written, answer with
  | .error e, _ => some (.error (.write e))
  | .ok (), .error e => some (.error (.read e))
  | .ok (), .ok (typeRaw, response) =>
    if typeRaw ≠ TypeId.TIME_SYNC_RESPONSE then some (.error (.unexpectedType typeRaw))
    else
      match response with
      | none => some (.error .decode)
      | some response => (compute mode response.t1 response.t2 response.t3 t4).map .ok

/-- The better of two results, the second one if they are as good. -/
def betterOf (best : Option TimeSyncResult) (r : TimeSyncResult) : Option TimeSyncResult :=
  match best with
  | some b => if b.rttUs < r.rttUs then some b else some r
  | none => some r

/-- The result to go by. -/
def bestOf (rounds : List TimeSyncResult) : Option TimeSyncResult := rounds.foldl betterOf none

open FixedWidth

variable {mode : Overflow} {t1 t2 t3 t4 localTs : UInt64}

theorem asI64_of_lt {t : UInt64} (h : t.toNat < 2 ^ 63) : (asI64 t).val = t.toNat := by
  refine wrap_of_fits ⟨?_, ?_⟩
  · omega
  · omega

/-! ## What is computed -/

/-- Twice the offset of an exchange. -/
def offsetSum (t1 t2 t3 t4 : I64) : ℤ := (t2.val - t1.val) + (t3.val - t4.val)

/-- The round trip of an exchange. -/
def roundTrip (t1 t2 t3 t4 : I64) : ℤ := (t4.val - t1.val) - (t3.val - t2.val)

/-- The differences that the offset and the round trip are made of fit. -/
structure DifferencesFit (t1 t2 t3 t4 : I64) : Prop where
  elapsed : FixedWidth.Fits 63 (t4.val - t1.val)
  processing : FixedWidth.Fits 63 (t3.val - t2.val)
  offsetSum : FixedWidth.Fits 63 (offsetSum t1 t2 t3 t4)
  roundTrip : FixedWidth.Fits 63 (roundTrip t1 t2 t3 t4)

/-- The differences there and back fit as well then. -/
theorem DifferencesFit.there_back {t1 t2 t3 t4 : I64} (h : DifferencesFit t1 t2 t3 t4) :
    FixedWidth.Fits 63 (t2.val - t1.val) ∧ FixedWidth.Fits 63 (t3.val - t4.val) := by
  have hsum := h.offsetSum
  have hrtt := h.roundTrip
  simp only [FixedWidth.Fits, Sardp.offsetSum, Sardp.roundTrip] at *
  omega

/-- Where the differences fit, they are computed exactly. -/
theorem compute_of_fit (mode : Overflow)
    (h : DifferencesFit (asI64 t1) (asI64 t2) (asI64 t3) (asI64 t4)) :
    ∃ result, compute mode t1 t2 t3 t4 = some result ∧
      result.offsetUs.val = (offsetSum (asI64 t1) (asI64 t2) (asI64 t3) (asI64 t4)).tdiv 2 ∧
      (result.rttUs : ℤ) = max (roundTrip (asI64 t1) (asI64 t2) (asI64 t3) (asI64 t4)) 0 := by
  obtain ⟨hthere, hback⟩ := h.there_back
  obtain ⟨there, hthere, hthere'⟩ := Overflow.exists_sub mode hthere
  obtain ⟨back, hback, hback'⟩ := Overflow.exists_sub mode hback
  obtain ⟨elapsed, helapsed, helapsed'⟩ := Overflow.exists_sub mode h.elapsed
  obtain ⟨processing, hprocessing, hprocessing'⟩ := Overflow.exists_sub mode h.processing
  obtain ⟨sum, hsum, hsum'⟩ : ∃ c, mode.add there back = some c ∧ c.val = _ :=
    Overflow.exists_add mode (by rw [hthere', hback']; exact h.offsetSum)
  obtain ⟨rtt, hrtt, hrtt'⟩ : ∃ c, mode.sub elapsed processing = some c ∧ c.val = _ :=
    Overflow.exists_sub mode (by rw [helapsed', hprocessing']; exact h.roundTrip)
  refine ⟨⟨sum.half, (max rtt.val 0).toNat⟩, ?_, ?_, ?_⟩
  · simp only [compute, hthere, hback, hsum, helapsed, hprocessing, hrtt, Option.bind_eq_bind,
      Option.bind_some]
    rfl
  · rw [Signed.half_val, hsum', hthere', hback', offsetSum]
  · rw [Int.toNat_of_nonneg (le_max_right _ 0), hrtt', helapsed', hprocessing', roundTrip]

/-- Where they do not, the arithmetic panics. -/
theorem differencesFit_of_compute {result : TimeSyncResult}
    (h : compute .panicking t1 t2 t3 t4 = some result) :
    DifferencesFit (asI64 t1) (asI64 t2) (asI64 t3) (asI64 t4) := by
  simp only [compute, Option.bind_eq_bind, Option.bind_eq_some_iff,
    Overflow.sub_panicking_eq_some, Overflow.add_panicking_eq_some] at h
  obtain ⟨there, hthere, back, hback, sum, hsum, elapsed, helapsed, processing, hprocessing, rtt,
    hrtt, -⟩ := h
  constructor
  · exact helapsed ▸ elapsed.fits
  · exact hprocessing ▸ processing.fits
  · rw [offsetSum, ← hthere, ← hback, ← hsum]
    exact sum.fits
  · rw [roundTrip, ← helapsed, ← hprocessing, ← hrtt]
    exact rtt.fits

/-- An offset that has been computed is half of an integer of 64 bits. -/
theorem compute_offset_fits {result : TimeSyncResult} (h : compute mode t1 t2 t3 t4 = some result) :
    FixedWidth.Fits 62 result.offsetUs.val := by
  simp only [compute, Option.bind_eq_bind, Option.bind_eq_some_iff] at h
  obtain ⟨there, -, back, -, sum, -, elapsed, -, processing, -, rtt, -, hresult⟩ := h
  cases hresult
  have hbounds := tdiv_two_bounds sum.val
  have hfits := sum.fits
  rw [Signed.half_val]
  simp only [FixedWidth.Fits] at *
  omega

/-! ## Accuracy -/

/-- An exchange with the server as it really was: the offset of its clock, the delays of the request
    and of the answer, and the time between, all of any precision. The times are small ones. -/
structure SyncRound where
  t1 : UInt64
  t2 : UInt64
  t3 : UInt64
  t4 : UInt64
  theta : ℝ
  d1 : ℝ
  d2 : ℝ
  p : ℝ
  d1_nonneg : 0 ≤ d1
  d2_nonneg : 0 ≤ d2
  t2_eq : (t2.toNat : ℝ) = t1.toNat + theta + d1
  t3_eq : (t3.toNat : ℝ) = t2.toNat + p
  t4_eq : (t4.toNat : ℝ) = t3.toNat - theta + d2
  t1_lt : t1.toNat < 2 ^ 62
  t2_lt : t2.toNat < 2 ^ 62
  t3_lt : t3.toNat < 2 ^ 62
  t4_lt : t4.toNat < 2 ^ 62

/-- A round with the result computed for it. -/
structure MeasuredRound (mode : Overflow) extends SyncRound where
  result : TimeSyncResult
  compute_eq : compute mode t1 t2 t3 t4 = some result

/-- How far the offset of a result may be off. -/
noncomputable def TimeSyncResult.errorBound (result : TimeSyncResult) : ℝ := (result.rttUs + 1) / 2

namespace SyncRound

variable (round : SyncRound)

def exchange : ClockSync.Exchange ℝ where
  t₁ := round.t1.toNat
  t₂ := round.t2.toNat
  t₃ := round.t3.toNat
  t₄ := round.t4.toNat
  offset := round.theta
  d₁ := round.d1
  d₂ := round.d2
  processing := round.p
  d₁_nonneg := round.d1_nonneg
  d₂_nonneg := round.d2_nonneg
  t₂_eq := round.t2_eq
  t₃_eq := round.t3_eq
  t₄_eq := round.t4_eq

theorem asI64_val :
    (asI64 round.t1).val = round.t1.toNat ∧ (asI64 round.t2).val = round.t2.toNat ∧
      (asI64 round.t3).val = round.t3.toNat ∧ (asI64 round.t4).val = round.t4.toNat := by
  have h1 := round.t1_lt
  have h2 := round.t2_lt
  have h3 := round.t3_lt
  have h4 := round.t4_lt
  exact ⟨asI64_of_lt (by omega), asI64_of_lt (by omega), asI64_of_lt (by omega),
    asI64_of_lt (by omega)⟩

theorem differencesFit :
    DifferencesFit (asI64 round.t1) (asI64 round.t2) (asI64 round.t3) (asI64 round.t4) := by
  obtain ⟨h1, h2, h3, h4⟩ := round.asI64_val
  have h1' := round.t1_lt
  have h2' := round.t2_lt
  have h3' := round.t3_lt
  have h4' := round.t4_lt
  constructor
  all_goals
    simp only [FixedWidth.Fits, offsetSum, roundTrip, h1, h2, h3, h4]
    omega

/-- The round trip is the two delays, and the offset is off by half of it at most. -/
theorem compute_accurate (mode : Overflow) :
    ∃ result, compute mode round.t1 round.t2 round.t3 round.t4 = some result ∧
      (result.rttUs : ℝ) = round.d1 + round.d2 ∧
        |(result.offsetUs.val : ℝ) - round.theta| ≤ result.errorBound := by
  obtain ⟨result, hresult, hoffset, hrtt⟩ := compute_of_fit mode round.differencesFit
  obtain ⟨h1, h2, h3, h4⟩ := round.asI64_val
  simp only [offsetSum, roundTrip, h1, h2, h3, h4] at hoffset hrtt
  -- the differences of the times, as integers and as what they really were
  set trip : ℤ := (round.t4.toNat - round.t1.toNat) - (round.t3.toNat - round.t2.toNat) with htrip
  set sum : ℤ := (round.t2.toNat - round.t1.toNat) + (round.t3.toNat - round.t4.toNat) with hsum
  have htripR : (trip : ℝ) = round.d1 + round.d2 := by
    have hexact := round.exchange.roundTrip_eq
    rw [htrip]
    push_cast
    exact hexact
  have hsumR : (sum : ℝ) = (round.exchange.t₂ - round.exchange.t₁) +
      (round.exchange.t₃ - round.exchange.t₄) := by
    rw [hsum]
    push_cast
    rfl
  have hnonneg : 0 ≤ trip := by
    have hdelays := add_nonneg round.d1_nonneg round.d2_nonneg
    rw [← htripR] at hdelays
    exact_mod_cast hdelays
  have hrttR : (result.rttUs : ℝ) = round.d1 + round.d2 := by
    rw [max_eq_left hnonneg] at hrtt
    rw [← htripR, ← hrtt, Int.cast_natCast]
  refine ⟨result, hresult, hrttR, ?_⟩
  rw [TimeSyncResult.errorBound, hrttR]
  have hbounds := tdiv_two_bounds sum
  rw [← hoffset] at hbounds
  refine round.exchange.abs_sub_offset_le ?_ ?_
  · have hlow : sum - 1 ≤ 2 * result.offsetUs.val := by omega
    rw [← hsumR]
    exact_mod_cast hlow
  · have hhigh : 2 * result.offsetUs.val ≤ sum + 1 := by omega
    rw [← hsumR]
    exact_mod_cast hhigh

end SyncRound

/-! ## The best of several results -/

/-- The result to go by is one with the smallest round trip, the last of them. -/
theorem exists_bestOf {rounds : List TimeSyncResult} (h : rounds ≠ []) :
    ∃ pre best post, rounds = pre ++ best :: post ∧ bestOf rounds = some best ∧
      (∀ r ∈ pre, best.rttUs ≤ r.rttUs) ∧ ∀ r ∈ post, best.rttUs < r.rttUs := by
  induction rounds using List.reverseRecOn with
  | nil => exact absurd rfl h
  | append_singleton rounds r ih =>
    rw [bestOf, List.foldl_append, List.foldl_cons, List.foldl_nil]
    rcases List.eq_nil_or_concat rounds with rfl | ⟨_, _, hne⟩
    · exact ⟨[], r, [], rfl, rfl, fun _ h => absurd h List.not_mem_nil,
        fun _ h => absurd h List.not_mem_nil⟩
    · obtain ⟨pre, best, post, rfl, hbest, hpre, hpost⟩ := ih (by simp [hne])
      rw [bestOf] at hbest
      rw [hbest, betterOf]
      split_ifs with hlt
      · -- the best so far stays
        refine ⟨pre, best, post ++ [r], by simp, rfl, hpre, fun r' hr' => ?_⟩
        rcases List.mem_append.1 hr' with hr' | hr'
        · exact hpost r' hr'
        · rwa [List.mem_singleton.1 hr']
      · refine ⟨_, r, [], rfl, rfl, fun r' hr' => ?_, fun _ h => absurd h List.not_mem_nil⟩
        rw [Nat.not_lt] at hlt
        rcases List.mem_append.1 hr' with hr' | hr'
        · exact hlt.trans (hpre r' hr')
        · rcases List.mem_cons.1 hr' with rfl | hr'
          · exact hlt
          · exact hlt.trans (hpost r' hr').le

/-- An exchange of small times tells the round trip, and the offset up to half of it. Of several,
    the last one with the smallest round trip is gone by, and no other has a smaller bound for its
    error. -/
theorem timeSync_accurate (mode : Overflow) :
    (∀ round : SyncRound, ∃ result,
      compute mode round.t1 round.t2 round.t3 round.t4 = some result ∧
        (result.rttUs : ℝ) = round.d1 + round.d2 ∧
          |(result.offsetUs.val : ℝ) - round.theta| ≤ (result.rttUs + 1) / 2) ∧
    ∀ rounds : List (MeasuredRound mode), rounds ≠ [] → ∃ pre best post,
      rounds = pre ++ best :: post ∧
        bestOf (rounds.map MeasuredRound.result) = some best.result ∧
        (∀ r ∈ pre, best.result.rttUs ≤ r.result.rttUs) ∧
        (∀ r ∈ post, best.result.rttUs < r.result.rttUs) ∧
        |(best.result.offsetUs.val : ℝ) - best.theta| ≤ best.result.errorBound ∧
        ∀ r ∈ rounds, best.result.errorBound ≤ r.result.errorBound := by
  refine ⟨fun round => round.compute_accurate mode, fun rounds hne => ?_⟩
  obtain ⟨pre', best', post', heq, hbest, hpre, hpost⟩ :=
    exists_bestOf (mt List.map_eq_nil_iff.1 hne)
  obtain ⟨pre, rest, rfl, rfl, hrest⟩ := List.map_eq_append_iff.1 heq
  obtain ⟨best, post, rfl, rfl, rfl⟩ := List.map_eq_cons_iff.1 hrest
  simp only [List.forall_mem_map] at hpre hpost
  refine ⟨pre, best, post, rfl, hbest, hpre, hpost, ?_, fun r hr => ?_⟩
  · obtain ⟨result, hresult, -, hoff⟩ := best.compute_accurate mode
    cases best.compute_eq.symm.trans hresult
    exact hoff
  · have hle : best.result.rttUs ≤ r.result.rttUs := by
      rcases List.mem_append.1 hr with hr | hr
      · exact hpre r hr
      · rcases List.mem_cons.1 hr with rfl | hr
        · exact le_rfl
        · exact (hpost r hr).le
    have hle' : (best.result.rttUs : ℝ) ≤ r.result.rttUs := by exact_mod_cast hle
    rw [TimeSyncResult.errorBound, TimeSyncResult.errorBound]
    linarith

/-- A round in which the answer takes longer than the request, by a clock that is 1000 ahead. -/
noncomputable def SyncRound.asymmetric : SyncRound where
  t1 := 0
  t2 := 1020
  t3 := 1025
  t4 := 65
  theta := 1000
  d1 := 20
  d2 := 40
  p := 5
  d1_nonneg := by norm_num
  d2_nonneg := by norm_num
  t2_eq := by norm_num [show (1020 : UInt64).toNat = 1020 from rfl]
  t3_eq := by
    norm_num [show (1020 : UInt64).toNat = 1020 from rfl,
      show (1025 : UInt64).toNat = 1025 from rfl]
  t4_eq := by
    norm_num [show (1025 : UInt64).toNat = 1025 from rfl, show (65 : UInt64).toNat = 65 from rfl]
  t1_lt := by decide
  t2_lt := by decide
  t3_lt := by decide
  t4_lt := by decide

/-- A quicker round by the same clocks. -/
noncomputable def SyncRound.quick : SyncRound where
  t1 := 100
  t2 := 1105
  t3 := 1110
  t4 := 120
  theta := 1000
  d1 := 5
  d2 := 10
  p := 5
  d1_nonneg := by norm_num
  d2_nonneg := by norm_num
  t2_eq := by
    norm_num [show (100 : UInt64).toNat = 100 from rfl, show (1105 : UInt64).toNat = 1105 from rfl]
  t3_eq := by
    norm_num [show (1110 : UInt64).toNat = 1110 from rfl,
      show (1105 : UInt64).toNat = 1105 from rfl]
  t4_eq := by
    norm_num [show (1110 : UInt64).toNat = 1110 from rfl, show (120 : UInt64).toNat = 120 from rfl]
  t1_lt := by decide
  t2_lt := by decide
  t3_lt := by decide
  t4_lt := by decide

/-- Of these two, the quick round is gone by, and its offset is within 8 of the real one. -/
theorem timeSync_accurate_asymmetric :
    ∃ slow quick, compute .panicking 0 1020 1025 65 = some slow ∧
      compute .panicking 100 1105 1110 120 = some quick ∧ quick.rttUs < slow.rttUs ∧
      bestOf [slow, quick] = some quick ∧ |(quick.offsetUs.val : ℝ) - 1000| ≤ 8 := by
  obtain ⟨hround, hbest⟩ := timeSync_accurate .panicking
  obtain ⟨slow, hslow, hrttSlow, -⟩ := hround SyncRound.asymmetric
  obtain ⟨quick, hquick, hrttQuick, -⟩ := hround SyncRound.quick
  have hlt : quick.rttUs < slow.rttUs := by
    have hreal : (quick.rttUs : ℝ) < slow.rttUs := by
      rw [hrttSlow, hrttQuick]
      norm_num [SyncRound.asymmetric, SyncRound.quick]
    exact_mod_cast hreal
  obtain ⟨pre, best, post, heq, hbestOf, -, hpost, hoffset, -⟩ := hbest
    [⟨SyncRound.asymmetric, slow, hslow⟩, ⟨SyncRound.quick, quick, hquick⟩] (List.cons_ne_nil _ _)
  -- the slow round is not gone by
  cases pre with
  | nil =>
    obtain ⟨rfl, rfl⟩ := List.cons.inj heq
    exact absurd (hpost _ (List.mem_singleton_self _)) hlt.le.not_gt
  | cons _ pre =>
    obtain ⟨-, heq⟩ := List.cons.inj heq
    obtain ⟨rfl, rfl, rfl⟩ : pre = [] ∧ best = _ ∧ post = [] := by
      cases pre with
      | nil =>
        obtain ⟨rfl, rfl⟩ := List.cons.inj heq
        exact ⟨rfl, rfl, rfl⟩
      | cons _ pre => simp at heq
    refine ⟨slow, quick, hslow, hquick, hlt, hbestOf, hoffset.trans ?_⟩
    rw [TimeSyncResult.errorBound, hrttQuick]
    norm_num [SyncRound.quick]

/-! ## Hostile times -/

/-- Neither the exchange that gets the answer nor the conversion by what it tells overflows, and the
    conversion of a small time is exact. -/
def Tolerates (t1 t2 t3 t4 localTs : UInt64) : Prop :=
  ∃ result ts,
    clientTimeSyncOnce .panicking (.ok ())
      (.ok (TypeId.TIME_SYNC_RESPONSE, some ⟨t1, t2, t3⟩)) t4 = some (.ok result) ∧
    toResponderClock .panicking localTs result.offsetUs = some ts ∧
    (localTs.toNat < 2 ^ 62 → (ts : ℤ) = max 0 (localTs.toNat + result.offsetUs.val))

theorem toResponderClock_panicking {offsetUs : I64} {ts : ℕ} :
    toResponderClock .panicking localTs offsetUs = some ts ↔
      FixedWidth.Fits 63 ((asI64 localTs).val + offsetUs.val) ∧
        (ts : ℤ) = max 0 ((asI64 localTs).val + offsetUs.val) := by
  simp only [toResponderClock, Option.bind_eq_bind, Option.bind_eq_some_iff,
    Overflow.add_panicking_eq_some]
  constructor
  · rintro ⟨sum, hsum, h⟩
    cases h
    refine ⟨hsum ▸ sum.fits, ?_⟩
    rw [Int.toNat_of_nonneg (le_max_right _ 0), hsum, max_comm]
  · rintro ⟨hfits, hts⟩
    refine ⟨⟨_, hfits⟩, rfl, congrArg some ?_⟩
    rw [max_comm, ← hts, Int.toNat_natCast]

/-- What an exchange that gets the answer comes to. -/
theorem clientTimeSyncOnce_answer {result : TimeSyncResult} :
    clientTimeSyncOnce mode (.ok ())
        (.ok (TypeId.TIME_SYNC_RESPONSE, some ⟨t1, t2, t3⟩)) t4 = some (.ok result) ↔
      compute mode t1 t2 t3 t4 = some result := by
  simp [clientTimeSyncOnce]

/-- For the times of an answer and of the client, whatever they are, no arithmetic overflows exactly
    if the differences fit, and so does what a time is converted to. -/
theorem clientTimeSync_tolerates_iff (t1 t2 t3 t4 localTs : UInt64) :
    Tolerates t1 t2 t3 t4 localTs ↔
      DifferencesFit (asI64 t1) (asI64 t2) (asI64 t3) (asI64 t4) ∧
        FixedWidth.Fits 63 ((asI64 localTs).val +
          (offsetSum (asI64 t1) (asI64 t2) (asI64 t3) (asI64 t4)).tdiv 2) := by
  constructor
  · rintro ⟨result, ts, hresult, hts, -⟩
    rw [clientTimeSyncOnce_answer] at hresult
    have hfit := differencesFit_of_compute hresult
    obtain ⟨result', hresult', hoffset, -⟩ := compute_of_fit .panicking hfit
    cases hresult.symm.trans hresult'
    exact ⟨hfit, hoffset ▸ (toResponderClock_panicking.1 hts).1⟩
  · rintro ⟨hfit, hclock⟩
    obtain ⟨result, hresult, hoffset, -⟩ := compute_of_fit .panicking hfit
    rw [← hoffset] at hclock
    refine ⟨result, _, clientTimeSyncOnce_answer.2 hresult,
      toResponderClock_panicking.2 ⟨hclock, Int.toNat_of_nonneg (le_max_left 0 _)⟩, fun hlt => ?_⟩
    rw [Int.toNat_of_nonneg (le_max_left 0 _), asI64_of_lt (by omega)]

/-- The conversion of a small time by an offset that has been computed is exact, whatever the answer
    was: where the arithmetic wraps around, it does so before. -/
theorem toResponderClock_exact {result : TimeSyncResult} (mode' : Overflow)
    (hresult : compute mode t1 t2 t3 t4 = some result) (hlt : localTs.toNat < 2 ^ 62) :
    ∃ ts, toResponderClock mode' localTs result.offsetUs = some ts ∧
      (ts : ℤ) = max 0 (localTs.toNat + result.offsetUs.val) := by
  have hfits := compute_offset_fits hresult
  have hlocal := asI64_of_lt (t := localTs) (by omega)
  have hsum : FixedWidth.Fits 63 ((asI64 localTs).val + result.offsetUs.val) := by
    rw [hlocal]
    simp only [FixedWidth.Fits] at *
    omega
  obtain ⟨sum, hadd, hval⟩ := Overflow.exists_add mode' hsum
  refine ⟨(max sum.val 0).toNat, ?_, ?_⟩
  · rw [toResponderClock, hadd]
    rfl
  · rw [Int.toNat_of_nonneg (le_max_right _ 0), hval, hlocal, max_comm]

/-- A server that says it got the request at the time 2^63, which is negative as a signed integer:
    the difference to the time the client has sent it at overflows. -/
theorem not_tolerates_hostile :
    ¬Tolerates 1 9223372036854775808 9223372036854775808 2 3 := by
  rintro ⟨result, ts, hresult, -, -⟩
  have hfit := (differencesFit_of_compute (clientTimeSyncOnce_answer.1 hresult)).offsetSum
  revert hfit
  decide

end Sardp
