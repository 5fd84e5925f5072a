import Mathlib.Data.List.SplitBy
import Sardp.Library.Text

/-!
# Pacing text on macOS

Text is posted to macOS in clusters, with a pause between them, so that a control that cannot keep
up misses whole characters (`perform` and `split_graphemes` in `sardp-mac`, `inject.rs`). A cluster
is a character with those that combine with it: the text is divided before every character that
does not combine (`MacInput.splitGraphemes_eq_splitBy`).

So no part of it is lost, and the clusters that are posted type the text
(`MacInput.splitGraphemes_preserves`).
-/

namespace Sardp.MacInput

/-- The blocks of the characters that combine with the one before. -/
def COMBINING : List (ℕ × ℕ) :=
  [(0x0300, 0x036F), (0x1AB0, 0x1AFF), (0x1DC0, 0x1DFF), (0x20D0, 0x20FF), (0xFE20, 0xFE2F),
    (0x3099, 0x309A), (0x200D, 0x200D), (0xFE0E, 0xFE0F)]

def isCombining (c : Char) : Bool := COMBINING.any fun (lo, hi) => lo ≤ c.toNat && c.toNat ≤ hi

/-- A round of the loop, with the clusters so far and where the next one starts: that ends before a
    character that does not combine. `none` if cutting it out panics. -/
def splitBefore (text : List Char) (acc : List (List Char) × ℕ) (ic : ℕ × Char) :
    Option (List (List Char) × ℕ) :=
  let (out, start) := acc
  let (i, c) := ic
  if i > start && !isCombining c then
    (Text.slice text start i).map fun cluster => (out ++ [cluster], i)
  else some (out, start)

/-- What the loop has left over is the last cluster. -/
def splitRest (text : List Char) (acc : List (List Char) × ℕ) : Option (List (List Char)) :=
  let (out, start) := acc
  if start < Text.byteLen text then
    (Text.slice text start (Text.byteLen text)).map fun cluster => out ++ [cluster]
  else some out

/-- The clusters of a text; `none` if cutting them out panics. -/
def splitGraphemes (text : List Char) : Option (List (List Char)) :=
  ((Text.charIndices text 0).foldlM (splitBefore text) ([], 0)).bind (splitRest text)

/-- Posting clusters until one fails, with what each of them returns: the result, and those that
    have been posted. -/
def postClusters {E : Type} (text : ℕ → Except E Unit) :
    ℕ → List (List Char) → Except E Unit × List (List Char)
  | _, [] => (.ok (), [])
  | i, cluster :: clusters =>
    match text i with
    | .error e => (.error e, [])
    | .ok () =>
      let (result, posted) := postClusters text (i + 1) clusters
      (result, cluster :: posted)

/-! ## Clusters -/

variable {text : List Char} {clusters : List (List Char)}

section Loop

variable {done g cs : List Char} {b c : Char} {out gs : List (List Char)}

/-- The cluster that has begun is what stands between its start and the current character. -/
theorem slice_begun (htext : text = done ++ ((b :: g).reverse ++ cs)) :
    Text.byteLen done < Text.byteLen (done ++ (b :: g).reverse) ∧
      Text.slice text (Text.byteLen done) (Text.byteLen (done ++ (b :: g).reverse)) =
        some (b :: g).reverse := by
  have hpos := b.utf8Size_pos
  refine ⟨?_, htext ▸ Text.slice_append done (b :: g).reverse cs⟩
  rw [List.reverse_cons, Text.byteLen_append, Text.byteLen_append, Text.byteLen_cons]
  omega

theorem splitBefore_of_combining (hc : isCombining c) (acc : List (List Char) × ℕ) (i : ℕ) :
    splitBefore text acc (i, c) = some acc := by
  rw [splitBefore, hc, Bool.not_true, Bool.and_false]
  rfl

theorem splitBefore_of_not_combining (hc : isCombining c = false)
    (htext : text = done ++ ((b :: g).reverse ++ cs)) :
    splitBefore text (out, Text.byteLen done) (Text.byteLen (done ++ (b :: g).reverse), c) =
      some (out ++ [(b :: g).reverse], Text.byteLen (done ++ (b :: g).reverse)) := by
  obtain ⟨hlt, hslice⟩ := slice_begun htext
  rw [splitBefore, hc, decide_eq_true hlt, hslice]
  rfl

theorem splitRest_begun (htext : text = done ++ (b :: g).reverse) :
    splitRest text (out, Text.byteLen done) = some (out ++ [(b :: g).reverse]) := by
  have htext' : text = done ++ ((b :: g).reverse ++ []) := by rw [List.append_nil, htext]
  obtain ⟨hlt, hslice⟩ := slice_begun htext'
  rw [← htext] at hlt hslice
  rw [splitRest, if_pos hlt, hslice]
  rfl

/-- The loop goes on as dividing the list does, when some clusters are complete and another one has
    begun. -/
theorem splitBefore_loop (htext : text = gs.reverse.flatten ++ ((b :: g).reverse ++ cs)) :
    ((Text.charIndices cs (Text.byteLen (gs.reverse.flatten ++ (b :: g).reverse))).foldlM
        (splitBefore text) (gs.reverse, Text.byteLen gs.reverse.flatten)).bind (splitRest text) =
      some (List.splitBy.loop (fun _ c => isCombining c) cs b g gs) := by
  induction cs generalizing b g gs with
  | nil =>
    rw [List.append_nil] at htext
    rw [Text.charIndices, List.foldlM_nil, Option.pure_def, Option.bind_some,
      splitRest_begun htext, List.splitBy.loop]
    exact congrArg some List.reverse_cons.symm
  | cons c cs ih =>
    rw [Text.charIndices, List.foldlM_cons, Option.bind_eq_bind, List.splitBy.loop,
      ← Text.byteLen_singleton, ← Text.byteLen_append, List.append_assoc]
    cases hc : isCombining c with
    | true =>
      have hjoin : text = gs.reverse.flatten ++ ((c :: b :: g).reverse ++ cs) := by
        rw [htext, List.reverse_cons (a := c), List.append_assoc _ [c], List.singleton_append]
      rw [splitBefore_of_combining hc, Option.bind_some, ← List.reverse_cons]
      exact ih hjoin
    | false =>
      have hflatten :
          ((b :: g).reverse :: gs).reverse.flatten = gs.reverse.flatten ++ (b :: g).reverse := by
        rw [List.reverse_cons, List.flatten_append, List.flatten_singleton]
      have hjoin : text = ((b :: g).reverse :: gs).reverse.flatten ++ ([c].reverse ++ cs) := by
        rw [hflatten, htext, List.append_assoc]
        rfl
      have hnext := ih hjoin
      rw [splitBefore_of_not_combining hc htext, Option.bind_some]
      rw [hflatten, List.append_assoc, List.reverse_singleton, List.reverse_cons] at hnext
      exact hnext

end Loop

/-- The clusters are the text divided before each character that does not combine. -/
theorem splitGraphemes_eq_splitBy (text : List Char) :
    splitGraphemes text = some (text.splitBy fun _ c => isCombining c) := by
  cases text with
  | nil => rfl
  | cons c cs =>
    -- The first character starts the first cluster, whether or not it combines.
    have hfirst : splitBefore (c :: cs) ([], 0) (0, c) = some ([], 0) := rfl
    have hfrom : Text.byteLen [c] = 0 + c.utf8Size := (Nat.zero_add c.utf8Size).symm
    rw [splitGraphemes, Text.charIndices, List.foldlM_cons, hfirst, ← hfrom]
    have hjoin : c :: cs = ([] : List (List Char)).reverse.flatten ++ ([c].reverse ++ cs) := rfl
    exact splitBefore_loop hjoin

/-- Only the first cluster can begin with a character that combines. -/
theorem head_not_combining {cluster : List Char}
    (h : cluster ∈ (text.splitBy fun _ c => isCombining c).tail) :
    ∀ c ∈ cluster.head?, isCombining c = false := by
  -- Where the text is divided does not depend on what stands before.
  let begun (_ cluster : List Char) : Prop := ∀ c ∈ cluster.head?, isCombining c = false
  have : Trans begun begun begun := ⟨fun _ h => h⟩
  have hchain : (text.splitBy fun _ c => isCombining c).IsChain begun :=
    (List.isChain_getLast_head_splitBy _ text).imp fun l cluster hcut c hc => by
      obtain ⟨_, hne, hcut⟩ := hcut
      rw [List.head?_eq_some_head hne, Option.mem_some_iff] at hc
      exact hc ▸ hcut
  generalize text.splitBy (fun _ c => isCombining c) = clusters at h hchain
  cases clusters with
  | nil => cases h
  | cons first clusters =>
    exact List.rel_of_pairwise_cons (List.isChain_iff_pairwise.1 hchain) h

/-! ## Posting -/

theorem postClusters_prefix {E : Type} (clusters : List (List Char)) (outcome : ℕ → Except E Unit)
    (i : ℕ) : (postClusters outcome i clusters).2 <+: clusters := by
  induction clusters generalizing i with
  | nil => exact List.prefix_rfl
  | cons cluster clusters ih =>
    rw [postClusters]
    cases outcome i with
    | error e => exact List.nil_prefix
    | ok u => exact (List.prefix_cons_inj cluster).2 (ih (i + 1))

theorem postClusters_of_ok {E : Type} {outcome : ℕ → Except E Unit} {i : ℕ}
    (h : (postClusters outcome i clusters).1 = .ok ()) :
    (postClusters outcome i clusters).2 = clusters := by
  induction clusters generalizing i with
  | nil => rfl
  | cons cluster clusters ih =>
    rw [postClusters] at h ⊢
    cases ho : outcome i with
    | error e => rw [ho] at h; cases h
    | ok u => rw [ho] at h; exact congrArg (cluster :: ·) (ih h)

/-- The clusters of a text are not empty, together they are the text, and none but the first begins
    with a character that combines. What is posted of them is a part of the text from its start on,
    and the whole text if posting has not failed. -/
theorem splitGraphemes_preserves (text : List Char) :
    ∃ clusters, splitGraphemes text = some clusters ∧
      (∀ cluster ∈ clusters, cluster ≠ []) ∧
      clusters.flatten = text ∧
      (∀ cluster ∈ clusters.tail, ∀ c ∈ cluster.head?, isCombining c = false) ∧
      ∀ (E : Type) (outcome : ℕ → Except E Unit),
        (postClusters outcome 0 clusters).2.flatten <+: text ∧
          ((postClusters outcome 0 clusters).1 = .ok () →
            (postClusters outcome 0 clusters).2.flatten = text) := by
  have hflatten := List.flatten_splitBy (fun _ c => isCombining c) text
  refine ⟨text.splitBy fun _ c => isCombining c, splitGraphemes_eq_splitBy text,
    fun cluster h => List.ne_nil_of_mem_splitBy h, hflatten, fun cluster h => head_not_combining h,
    fun E outcome => ⟨?_, fun hok => ?_⟩⟩
  · obtain ⟨rest, hrest⟩ := postClusters_prefix (text.splitBy fun _ c => isCombining c) outcome 0
    exact ⟨rest.flatten, by rw [← List.flatten_append, hrest, hflatten]⟩
  · rw [postClusters_of_ok hok, hflatten]

/-- A mark stays with its letter, also after one at the start. -/
example :
    splitGraphemes ['\u0301', 'e', '\u0301', 'x'] =
      some [['\u0301'], ['e', '\u0301'], ['x']] := by
  decide

end Sardp.MacInput
