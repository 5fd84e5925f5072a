import Mathlib.Data.List.Forall2
import Sardp.Library.FixedWidth
import Sardp.Library.Raster

/-!
# Timecodes in frames

A frame for measuring the latency shows its timecode in a row of blocks along its top, a white one
for each bit that is set (`timecode_frame.rs`). The timecode is read from the pixels in the middle
of the blocks, by how bright they are.

A frame of a size that can be stored shows the timecode on its background
(`shows_generateTimecodeFrame`), and the timecode is read from it, and from any frame that looks
almost the same (`extract_generateTimecodeFrame`).
-/

namespace Sardp

def BIT_BLOCK_SIZE : ℕ := 8

def TIMECODE_BITS : ℕ := 64

/-- Red, green and blue. -/
abbrev Color := UInt8 × UInt8 × UInt8

def WHITE : Color := (255, 255, 255)

def BLACK : Color := (0, 0, 0)

/-- A frame, with its pixels row by row. -/
structure SyntheticFrame where
  width : ℕ
  height : ℕ
  rgb : List UInt8
  deriving DecidableEq

/-- Storing the bytes of a colour; `none` if they are beyond the end. -/
def storeColor (rgb : List UInt8) (idx : ℕ) : Color → Option (List UInt8)
  | (r, g, b) =>
    if idx + 3 ≤ rgb.length then some (((rgb.set idx r).set (idx + 1) g).set (idx + 2) b) else none

def loadColor (rgb : List UInt8) (idx : ℕ) : Option Color := do
  let r ← rgb[idx]?
  let g ← rgb[idx + 1]?
  let b ← rgb[idx + 2]?
  return (r, g, b)

namespace SyntheticFrame

/-- Where a pixel is stored; `none` if computing that panics. -/
def pixelIndex (mode : Overflow) (frame : SyntheticFrame) (x y : ℕ) : Option ℕ := do
  let row ← Overflow.settleNat 32 mode (y * frame.width)
  let pixel ← Overflow.settleNat 32 mode (row + x)
  Overflow.settleNat 32 mode (pixel * 3)

def setPixel (mode : Overflow) (frame : SyntheticFrame) (x y : ℕ) (color : Color) :
    Option SyntheticFrame := do
  let idx ← frame.pixelIndex mode x y
  let rgb ← storeColor frame.rgb idx color
  return { frame with rgb }

def getPixel (mode : Overflow) (frame : SyntheticFrame) (x y : ℕ) : Option Color := do
  let idx ← frame.pixelIndex mode x y
  loadColor frame.rgb idx

/-- The loops over some rows and columns. -/
def setPixels (mode : Overflow) (xs ys : List ℕ) (color : Color) (frame : SyntheticFrame) :
    Option SyntheticFrame :=
  ys.foldlM (fun frame y => xs.foldlM (fun frame x => frame.setPixel mode x y color) frame) frame

end SyntheticFrame

/-- The colour of the block of a bit. -/
def bitColor (timecodeUs : BitVec 64) (bit : ℕ) : Color :=
  if (timecodeUs >>> bit) &&& 1 = 1 then WHITE else BLACK

/-- The block of a bit. -/
def setBit (mode : Overflow) (timecodeUs : BitVec 64) (frame : SyntheticFrame) (bit : ℕ) :
    Option SyntheticFrame := do
  let x0 ← Overflow.settleNat 32 mode (bit * BIT_BLOCK_SIZE)
  let x1 ← Overflow.settleNat 32 mode (x0 + BIT_BLOCK_SIZE)
  frame.setPixels mode (List.range' x0 (x1 - x0)) (List.range BIT_BLOCK_SIZE)
    (bitColor timecodeUs bit)

/-- A frame with a timecode; `none` if that panics, as it does if the frame is too small. -/
def generateTimecodeFrame (mode : Overflow) (width height : ℕ) (timecodeUs : BitVec 64)
    (background : Color) : Option SyntheticFrame := do
  let requiredWidth ← Overflow.settleNat 32 mode (TIMECODE_BITS * BIT_BLOCK_SIZE)
  if requiredWidth ≤ width ∧ BIT_BLOCK_SIZE ≤ height then
    let pixels ← Overflow.settleNat 32 mode (width * height)
    let size ← Overflow.settleNat 32 mode (pixels * 3)
    let frame ← SyntheticFrame.setPixels mode (List.range width) (List.range height) background
      ⟨width, height, List.replicate size 0⟩
    (List.range TIMECODE_BITS).foldlM (setBit mode timecodeUs) frame
  else none

def brightness : Color → ℕ
  | (r, g, b) => r.toNat + g.toNat + b.toNat

/-- Reading a bit, with those before. -/
def readBit (mode : Overflow) (frame : SyntheticFrame) (value : BitVec 64) (bit : ℕ) :
    Option (BitVec 64) := do
  let x0 ← Overflow.settleNat 32 mode (bit * BIT_BLOCK_SIZE)
  let cx ← Overflow.settleNat 32 mode (x0 + BIT_BLOCK_SIZE / 2)
  let color ← frame.getPixel mode cx (BIT_BLOCK_SIZE / 2)
  return if 3 * 128 < brightness color then value ||| 1#64 <<< bit else value

/-- The timecode of a frame. -/
def extractTimecode (mode : Overflow) (frame : SyntheticFrame) : Option (BitVec 64) :=
  (List.range TIMECODE_BITS).foldlM (readBit mode frame) 0

/-! ## Colours -/

section Colors

variable {rgb rgb' : List UInt8} {i j : ℕ} {color : Color}

theorem storeColor_eq_some (h : storeColor rgb i color = some rgb') :
    i + 3 ≤ rgb.length ∧
      rgb' = ((rgb.set i color.1).set (i + 1) color.2.1).set (i + 2) color.2.2 := by
  rw [storeColor] at h
  split_ifs at h with hle
  exact ⟨hle, (Option.some.inj h).symm⟩

theorem exists_storeColor (color : Color) (h : i + 3 ≤ rgb.length) :
    ∃ rgb', storeColor rgb i color = some rgb' := ⟨_, if_pos h⟩

theorem length_of_storeColor (h : storeColor rgb i color = some rgb') :
    rgb'.length = rgb.length := by
  rw [(storeColor_eq_some h).2, List.length_set, List.length_set, List.length_set]

theorem loadColor_storeColor (h : storeColor rgb i color = some rgb') :
    loadColor rgb' i = some color := by
  obtain ⟨hle, rfl⟩ := storeColor_eq_some h
  have hr : i < rgb.length := by omega
  have hg : i + 1 < rgb.length := by omega
  have hb : i + 2 < rgb.length := by omega
  simp [loadColor, hr, hg, hb]

/-- Colours that do not overlap the one that is stored stay. -/
theorem loadColor_of_storeColor (h : storeColor rgb i color = some rgb')
    (hij : i + 3 ≤ j ∨ j + 3 ≤ i) : loadColor rgb' j = loadColor rgb j := by
  obtain ⟨hle, rfl⟩ := storeColor_eq_some h
  have hsame (k : ℕ) (hk : k < i ∨ i + 3 ≤ k) :
      (((rgb.set i color.1).set (i + 1) color.2.1).set (i + 2) color.2.2)[k]? = rgb[k]? := by
    rw [List.getElem?_set_ne (by omega), List.getElem?_set_ne (by omega),
      List.getElem?_set_ne (by omega)]
  rw [loadColor, hsame j (by omega), hsame (j + 1) (by omega), hsame (j + 2) (by omega)]
  rfl

end Colors

/-! ## Frames and pictures -/

namespace SyntheticFrame

/-- A frame has every pixel of a picture. -/
structure Shows (frame : SyntheticFrame) (width height : ℕ) (picture : ℕ → ℕ → Color) : Prop where
  width_eq : frame.width = width
  height_eq : frame.height = height
  length_eq : frame.rgb.length = width * height * 3
  getPixel_eq : ∀ mode, ∀ x < width, ∀ y < height, frame.getPixel mode x y = some (picture x y)

variable {mode : Overflow} {frame : SyntheticFrame} {width height x y : ℕ}
  {picture : ℕ → ℕ → Color} {xs ys : List ℕ} {color : Color}

theorem Shows.congr (h : frame.Shows width height picture) {picture' : ℕ → ℕ → Color}
    (hsame : ∀ x < width, ∀ y < height, picture x y = picture' x y) :
    frame.Shows width height picture' :=
  ⟨h.width_eq, h.height_eq, h.length_eq,
    fun mode x hx y hy => hsame x hx y hy ▸ h.getPixel_eq mode x hx y hy⟩

section Size

variable (hsize : width * height * 3 < 2 ^ 32)

include hsize

/-- The pixels of a frame that can be stored are found without overflow. -/
theorem pixelIndex_eq (hwidth : frame.width = width) (hx : x < width) (hy : y < height) :
    frame.pixelIndex mode x y = some (Raster.position width x y * 3) := by
  have hlt := Raster.position_lt hx hy
  have hle : y * width ≤ Raster.position width x y := Nat.le_add_right ..
  rw [pixelIndex, hwidth, Overflow.settleNat_of_lt (by omega), Option.bind_eq_bind,
    Option.bind_some]
  change (Overflow.settleNat 32 mode (Raster.position width x y)).bind _ = _
  rw [Overflow.settleNat_of_lt (by omega), Option.bind_some, Overflow.settleNat_of_lt (by omega)]

theorem getPixel_eq_loadColor (hwidth : frame.width = width) (hx : x < width) (hy : y < height) :
    frame.getPixel mode x y = loadColor frame.rgb (Raster.position width x y * 3) := by
  rw [getPixel, pixelIndex_eq hsize hwidth hx hy]
  rfl

/-- A new frame is black. -/
theorem shows_new :
    Shows ⟨width, height, List.replicate (width * height * 3) 0⟩ width height fun _ _ => BLACK := by
  refine ⟨rfl, rfl, List.length_replicate, fun mode x hx y hy => ?_⟩
  have hlt := Raster.position_lt hx hy
  have hbyte (i : ℕ) (hi : i < width * height * 3) :
      (List.replicate (width * height * 3) (0 : UInt8))[i]? = some 0 := by
    rw [List.getElem?_replicate, if_pos hi]
  rw [getPixel_eq_loadColor hsize rfl hx hy, loadColor, hbyte _ (by omega), hbyte _ (by omega),
    hbyte _ (by omega)]
  rfl

/-- Setting a pixel sets it in the picture. -/
theorem Shows.setPixel (mode : Overflow) (h : frame.Shows width height picture) (hx : x < width)
    (hy : y < height) (color : Color) : ∃ frame', frame.setPixel mode x y color = some frame' ∧
      frame'.Shows width height (Raster.fill [x] [y] color picture) := by
  have hlt := Raster.position_lt hx hy
  have hlength := h.length_eq
  have hroom : Raster.position width x y * 3 + 3 ≤ frame.rgb.length := by omega
  obtain ⟨rgb, hstore⟩ := exists_storeColor color hroom
  refine ⟨{ frame with rgb }, ?_, h.width_eq, h.height_eq,
    (length_of_storeColor hstore).trans hlength, fun mode x' hx' y' hy' => ?_⟩
  · rw [SyntheticFrame.setPixel, pixelIndex_eq hsize h.width_eq hx hy, Option.bind_eq_bind,
      Option.bind_some, hstore]
    rfl
  · have hload : getPixel mode { frame with rgb } x' y' =
        loadColor rgb (Raster.position width x' y' * 3) :=
      getPixel_eq_loadColor hsize h.width_eq hx' hy'
    rw [hload, Raster.fill]
    by_cases hsame : x' = x ∧ y' = y
    · obtain ⟨rfl, rfl⟩ := hsame
      rw [if_pos ⟨List.mem_singleton_self x', List.mem_singleton_self y'⟩]
      exact loadColor_storeColor hstore
    · have hne : Raster.position width x y ≠ Raster.position width x' y' := by
        intro heq
        obtain ⟨rfl, rfl⟩ := Raster.position_inj hx hx' heq
        exact hsame ⟨rfl, rfl⟩
      rw [if_neg (by simpa using hsame), loadColor_of_storeColor hstore (by omega),
        ← h.getPixel_eq mode x' hx' y' hy', getPixel_eq_loadColor hsize h.width_eq hx' hy']

/-- The loops fill some rows and columns of the picture. -/
theorem Shows.setPixels (mode : Overflow) (h : frame.Shows width height picture)
    (hxs : ∀ x ∈ xs, x < width) (hys : ∀ y ∈ ys, y < height) (color : Color) :
    ∃ frame', frame.setPixels mode xs ys color = some frame' ∧
      frame'.Shows width height (Raster.fill xs ys color picture) := by
  refine Raster.exists_foldlM
    (fun ys frame => Shows frame width height (Raster.fill xs ys color picture)) ys ?_
    fun done y hy frame hdone => ?_
  · rw [Raster.fill_nil_right]
    exact h
  · rw [Raster.fill_append_singleton_right]
    refine Raster.exists_foldlM
      (fun xs' frame => Shows frame width height
        (Raster.fill xs' [y] color (Raster.fill xs done color picture))) xs ?_
      fun done' x hx frame hdone' => ?_
    · rw [Raster.fill_nil_left]
      exact hdone
    · rw [Raster.fill_append_singleton_left]
      exact hdone'.setPixel hsize mode (hxs x hx) (hys y hy) color

end Size

end SyntheticFrame

/-! ## Writing the timecode -/

open SyntheticFrame

variable {mode : Overflow} {frame frame' : SyntheticFrame} {width height bit : ℕ}
  {picture : ℕ → ℕ → Color} {timecodeUs value : BitVec 64} {background color : Color}

/-- The block of a bit is within the row. -/
theorem block_le (hbit : bit < TIMECODE_BITS) :
    bit * BIT_BLOCK_SIZE + BIT_BLOCK_SIZE ≤ TIMECODE_BITS * BIT_BLOCK_SIZE := by
  unfold TIMECODE_BITS BIT_BLOCK_SIZE at *
  omega

/-- The background, with the blocks of some bits. -/
def withBlocks (timecodeUs : BitVec 64) (background : Color) (bits : List ℕ) (x y : ℕ) : Color :=
  if x / BIT_BLOCK_SIZE ∈ bits ∧ y < BIT_BLOCK_SIZE then bitColor timecodeUs (x / BIT_BLOCK_SIZE)
  else background

theorem withBlocks_append_singleton (bits : List ℕ) :
    withBlocks timecodeUs background (bits ++ [bit]) =
      Raster.fill (List.range' (bit * BIT_BLOCK_SIZE) BIT_BLOCK_SIZE) (List.range BIT_BLOCK_SIZE)
        (bitColor timecodeUs bit) (withBlocks timecodeUs background bits) := by
  funext x y
  have hx : x ∈ List.range' (bit * BIT_BLOCK_SIZE) BIT_BLOCK_SIZE ↔ x / BIT_BLOCK_SIZE = bit := by
    rw [List.mem_range'_1, Nat.div_eq_iff (by decide)]
    unfold BIT_BLOCK_SIZE
    omega
  simp only [withBlocks, Raster.fill, hx, List.mem_range, List.mem_append, List.mem_singleton]
  split_ifs with h₁ h₂ h₃ h₄ <;> grind

section Size

variable (hsize : width * height * 3 < 2 ^ 32) (hwidth : TIMECODE_BITS * BIT_BLOCK_SIZE ≤ width)
  (hheight : BIT_BLOCK_SIZE ≤ height)

include hsize hwidth hheight

theorem SyntheticFrame.Shows.setBit (mode : Overflow) (h : frame.Shows width height picture)
    (hbit : bit < TIMECODE_BITS) :
    ∃ frame', setBit mode timecodeUs frame bit = some frame' ∧ frame'.Shows width height
      (Raster.fill (List.range' (bit * BIT_BLOCK_SIZE) BIT_BLOCK_SIZE) (List.range BIT_BLOCK_SIZE)
        (bitColor timecodeUs bit) picture) := by
  have hblock := block_le hbit
  have hrow : TIMECODE_BITS * BIT_BLOCK_SIZE < 2 ^ 32 := by decide
  rw [Sardp.setBit, Overflow.settleNat_of_lt (by omega), Option.bind_eq_bind, Option.bind_some,
    Overflow.settleNat_of_lt (by omega), Option.bind_some, Nat.add_sub_cancel_left]
  refine h.setPixels hsize mode (fun x hx => ?_) (fun y hy => ?_) _
  · rw [List.mem_range'_1] at hx
    omega
  · rw [List.mem_range] at hy
    omega

/-- A frame of a size that can be stored is generated, and shows the timecode on its background. -/
theorem shows_generateTimecodeFrame (mode : Overflow) (timecodeUs : BitVec 64)
    (background : Color) :
    ∃ frame, generateTimecodeFrame mode width height timecodeUs background = some frame ∧
      frame.Shows width height
        (withBlocks timecodeUs background (List.range TIMECODE_BITS)) := by
  have hrow : TIMECODE_BITS * BIT_BLOCK_SIZE < 2 ^ 32 := by decide
  obtain ⟨frame, hframe, hshows⟩ := (shows_new hsize).setPixels hsize mode
    (fun x => List.mem_range.1) (fun y => List.mem_range.1) background
  have hbackground : frame.Shows width height (withBlocks timecodeUs background []) :=
    hshows.congr fun x hx y hy => by
      rw [Raster.fill, if_pos ⟨List.mem_range.2 hx, List.mem_range.2 hy⟩, withBlocks,
        if_neg fun h => List.not_mem_nil h.1]
  obtain ⟨frame', hframe', hshows'⟩ := Raster.exists_foldlM
    (fun bits frame => Shows frame width height (withBlocks timecodeUs background bits))
    (List.range TIMECODE_BITS) hbackground fun done bit hbit frame hdone => by
      rw [withBlocks_append_singleton]
      exact hdone.setBit hsize hwidth hheight mode (List.mem_range.1 hbit)
  refine ⟨frame', ?_, hshows'⟩
  rw [generateTimecodeFrame, Overflow.settleNat_of_lt hrow, Option.bind_eq_bind, Option.bind_some,
    if_pos ⟨hwidth, hheight⟩, Overflow.settleNat_of_lt (by omega), Option.bind_eq_bind,
    Option.bind_some, Overflow.settleNat_of_lt hsize, Option.bind_some, hframe]
  exact hframe'

end Size

/-! ## Reading the timecode -/

/-- A bit is read, if its block is bright exactly if it is set. -/
theorem readBit_eq (hbit : bit < TIMECODE_BITS)
    (hpixel : frame.getPixel mode (bit * BIT_BLOCK_SIZE + BIT_BLOCK_SIZE / 2) (BIT_BLOCK_SIZE / 2) =
      some color) :
    readBit mode frame value bit =
      some (if 3 * 128 < brightness color then value ||| 1#64 <<< bit else value) := by
  have hblock := block_le hbit
  have hhalf : BIT_BLOCK_SIZE / 2 ≤ BIT_BLOCK_SIZE := by decide
  have hrow : TIMECODE_BITS * BIT_BLOCK_SIZE < 2 ^ 32 := by decide
  rw [readBit, Overflow.settleNat_of_lt (by omega), Option.bind_eq_bind, Option.bind_some,
    Overflow.settleNat_of_lt (by omega), Option.bind_some, hpixel]
  rfl

theorem getLsbD_setBit (hbit : bit < 64) (i : ℕ) :
    (value ||| 1#64 <<< bit).getLsbD i = (value.getLsbD i || decide (i = bit)) := by
  rw [← BitVec.twoPow_eq, BitVec.getLsbD_or, BitVec.getLsbD_twoPow, decide_eq_true hbit,
    Bool.true_and]
  simp only [eq_comm]

/-- The timecode is read, if the middles of the blocks are bright exactly for the bits that are
    set. -/
theorem extractTimecode_eq
    (h : ∀ bit < TIMECODE_BITS, ∃ color,
      frame.getPixel mode (bit * BIT_BLOCK_SIZE + BIT_BLOCK_SIZE / 2) (BIT_BLOCK_SIZE / 2) =
        some color ∧ (3 * 128 < brightness color ↔ timecodeUs.getLsbD bit)) :
    extractTimecode mode frame = some timecodeUs := by
  obtain ⟨value, hvalue, hbits⟩ := Raster.exists_foldlM (f := readBit mode frame) (s := 0)
    (fun bits (value : BitVec 64) =>
      ∀ i, value.getLsbD i = (decide (i ∈ bits) && timecodeUs.getLsbD i))
    (List.range TIMECODE_BITS) (fun i => by simp) fun done bit hbit value hdone => by
      rw [List.mem_range] at hbit
      obtain ⟨color, hpixel, hbright⟩ := h bit hbit
      refine ⟨_, readBit_eq hbit hpixel, fun i => ?_⟩
      rw [decide_eq_decide.2 (List.mem_append.trans (or_congr_right List.mem_singleton)),
        Bool.decide_or, Bool.and_or_distrib_right, ← hdone i]
      split_ifs with hbrighter
      · rw [getLsbD_setBit hbit]
        by_cases hi : i = bit
        · subst hi
          rw [hbright.1 hbrighter, Bool.and_true]
        · rw [decide_eq_false hi, Bool.false_and]
      · by_cases hi : i = bit
        · subst hi
          rw [Bool.eq_false_iff.2 fun hset => hbrighter (hbright.2 hset), Bool.and_false,
            Bool.or_false]
        · rw [decide_eq_false hi, Bool.false_and, Bool.or_false]
  have htimecode : value = timecodeUs := by
    refine BitVec.eq_of_getLsbD_eq fun i hi => ?_
    have hmem : i ∈ List.range TIMECODE_BITS := List.mem_range.2 hi
    rw [hbits i, decide_eq_true hmem, Bool.true_and]
  rw [← htimecode]
  exact hvalue

/-! ## Frames that look almost the same -/

/-- Bytes that differ by no more than `d`. -/
def NearByte (d : ℕ) (a b : UInt8) : Prop := a.toNat ≤ b.toNat + d ∧ b.toNat ≤ a.toNat + d

/-- A frame of the same size, with every byte almost the same. -/
structure SyntheticFrame.Near (d : ℕ) (frame frame' : SyntheticFrame) : Prop where
  width_eq : frame'.width = frame.width
  height_eq : frame'.height = frame.height
  rgb_near : List.Forall₂ (NearByte d) frame.rgb frame'.rgb

variable {d i : ℕ} {rgb rgb' : List UInt8}

theorem SyntheticFrame.Near.refl (d : ℕ) (frame : SyntheticFrame) : frame.Near d frame :=
  ⟨rfl, rfl, List.forall₂_same.2 fun _ _ => ⟨Nat.le_add_right _ _, Nat.le_add_right _ _⟩⟩

theorem exists_nearByte (h : List.Forall₂ (NearByte d) rgb rgb') {a : UInt8}
    (ha : rgb[i]? = some a) : ∃ b, rgb'[i]? = some b ∧ NearByte d a b := by
  obtain ⟨hi, rfl⟩ := List.getElem?_eq_some_iff.1 ha
  have hi' : i < rgb'.length := h.length_eq ▸ hi
  exact ⟨rgb'[i], List.getElem?_eq_getElem hi', h.get hi hi'⟩

theorem exists_near_color (h : List.Forall₂ (NearByte d) rgb rgb')
    (hcolor : loadColor rgb i = some color) : ∃ color', loadColor rgb' i = some color' ∧
      brightness color ≤ brightness color' + 3 * d ∧
      brightness color' ≤ brightness color + 3 * d := by
  simp only [loadColor, Option.bind_eq_bind, Option.bind_eq_some_iff, Option.pure_def] at hcolor
  obtain ⟨r, hr, g, hg, b, hb, ⟨⟩⟩ := hcolor
  obtain ⟨r', hr', hnearR⟩ := exists_nearByte h hr
  obtain ⟨g', hg', hnearG⟩ := exists_nearByte h hg
  obtain ⟨b', hb', hnearB⟩ := exists_nearByte h hb
  refine ⟨(r', g', b'), ?_, ?_⟩
  · rw [loadColor, hr', hg', hb']
    rfl
  · unfold NearByte at hnearR hnearG hnearB
    dsimp only [brightness]
    omega

theorem bitColor_eq (timecodeUs : BitVec 64) (bit : ℕ) :
    bitColor timecodeUs bit = if timecodeUs.getLsbD bit then WHITE else BLACK := by
  have hbit : (timecodeUs >>> bit) &&& 1 =
      BitVec.setWidth 64 (.ofBool (timecodeUs.getLsbD bit)) := by
    rw [← Nat.add_zero bit, ← BitVec.getLsbD_ushiftRight]
    exact BitVec.and_one_eq_setWidth_ofBool_getLsbD
  rw [bitColor, hbit]
  cases timecodeUs.getLsbD bit with
  | false => exact if_neg (by decide)
  | true => exact if_pos rfl

/-- White stays bright, and black dark. -/
theorem bright_iff (h : brightness (bitColor timecodeUs bit) ≤ brightness color + 3 * 126)
    (h' : brightness color ≤ brightness (bitColor timecodeUs bit) + 3 * 126) :
    3 * 128 < brightness color ↔ timecodeUs.getLsbD bit := by
  have hwhite : brightness WHITE = 765 := rfl
  have hblack : brightness BLACK = 0 := rfl
  rw [bitColor_eq] at h h'
  split_ifs at h h' with hset
  · exact iff_of_true (by omega) hset
  · exact iff_of_false (by omega) hset

section Size

variable (hsize : width * height * 3 < 2 ^ 32) (hwidth : TIMECODE_BITS * BIT_BLOCK_SIZE ≤ width)
  (hheight : BIT_BLOCK_SIZE ≤ height)

include hsize hwidth hheight

/-- The timecode is read from every frame that looks almost like one that shows it. -/
theorem extractTimecode_of_near
    (h : frame.Shows width height (withBlocks timecodeUs background (List.range TIMECODE_BITS)))
    (hnear : frame.Near 126 frame') : extractTimecode mode frame' = some timecodeUs := by
  refine extractTimecode_eq fun bit hbit => ?_
  have hblock := block_le hbit
  have hhalf : BIT_BLOCK_SIZE / 2 < BIT_BLOCK_SIZE := by decide
  have hx : bit * BIT_BLOCK_SIZE + BIT_BLOCK_SIZE / 2 < width := by omega
  have hy : BIT_BLOCK_SIZE / 2 < height := by omega
  have hdiv : (bit * BIT_BLOCK_SIZE + BIT_BLOCK_SIZE / 2) / BIT_BLOCK_SIZE = bit := by
    unfold BIT_BLOCK_SIZE
    omega
  have hpixel := h.getPixel_eq mode _ hx _ hy
  rw [withBlocks, hdiv, if_pos ⟨List.mem_range.2 hbit, hhalf⟩,
    getPixel_eq_loadColor hsize h.width_eq hx hy] at hpixel
  obtain ⟨color, hcolor, hle, hle'⟩ := exists_near_color hnear.rgb_near hpixel
  refine ⟨color, ?_, bright_iff hle hle'⟩
  rw [getPixel_eq_loadColor hsize (hnear.width_eq.trans h.width_eq) hx hy, hcolor]

end Size

/-- A frame of a size that can be stored is generated with a timecode, which is read from it, and
    also if every byte has been changed by up to 126. It has the background everywhere but in the
    row of the timecode. -/
theorem extract_generateTimecodeFrame (mode : Overflow) (hwidth : 512 ≤ width)
    (hheight : 8 ≤ height) (hsize : width * height * 3 < 2 ^ 32) (timecodeUs : BitVec 64)
    (background : Color) :
    ∃ frame, generateTimecodeFrame mode width height timecodeUs background = some frame ∧
      frame.width = width ∧ frame.height = height ∧ frame.rgb.length = width * height * 3 ∧
      extractTimecode mode frame = some timecodeUs ∧
      (∀ frame', frame.Near 126 frame' → extractTimecode mode frame' = some timecodeUs) ∧
      ∀ x < width, ∀ y < height, ¬(x < 512 ∧ y < 8) →
        frame.getPixel mode x y = some background := by
  obtain ⟨frame, hframe, hshows⟩ :=
    shows_generateTimecodeFrame hsize hwidth hheight mode timecodeUs background
  have hextract (frame' : SyntheticFrame) (hnear : frame.Near 126 frame') :
      extractTimecode mode frame' = some timecodeUs :=
    extractTimecode_of_near hsize hwidth hheight hshows hnear
  refine ⟨frame, hframe, hshows.width_eq, hshows.height_eq, hshows.length_eq,
    hextract frame (.refl 126 frame), hextract, fun x hx y hy hrow => ?_⟩
  rw [hshows.getPixel_eq mode x hx y hy, withBlocks, if_neg]
  rintro ⟨hbit, hlow⟩
  rw [List.mem_range] at hbit
  unfold TIMECODE_BITS BIT_BLOCK_SIZE at *
  exact hrow ⟨by omega, hlow⟩

/-- A frame just large enough has its background below the timecode. -/
theorem extract_generateTimecodeFrame_narrow :
    ∃ frame, generateTimecodeFrame .panicking 512 9 0x8001 (64, 64, 64) = some frame ∧
      extractTimecode .panicking frame = some 0x8001 ∧
      frame.getPixel .panicking 0 8 = some (64, 64, 64) := by
  obtain ⟨frame, hframe, -, -, -, hextract, -, hbackground⟩ := extract_generateTimecodeFrame
    .panicking (Nat.le_refl 512) (Nat.le_add_right 8 1) (by decide) 0x8001 (64, 64, 64)
  exact ⟨frame, hframe, hextract, hbackground 0 (by decide) 8 (by decide) (by decide)⟩

end Sardp
