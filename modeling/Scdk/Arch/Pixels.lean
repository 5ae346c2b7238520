import Scdk.Arch.Framebuffer
import Scdk.Arch.Glyphs
import Scdk.Lib.Copy
import Scdk.Lib.Memory
import Scdk.Lib.Overwrite

/-! # Pixels

    Model of the functions of `arch/x86_64/framebuffer.c` that write to the frame buffer,
    which is memory: rows of pixels of four bytes, each row `pitch` bytes from the next.

    * `Screen`: a frame buffer that is in memory as it should be,
    * `putPixel`, `fillRect`, `drawConsoleChar`, `scrollConsolePixelsUp`: the functions of
      the source,
    * `pixelAt_paint`: what is at a pixel after some writes,
    * `pixelAt_fillRect`, `pixelAt_drawConsoleChar`, `pixelAt_scrollPixels`: what each
      function shows,
    * `Outside`: none of them writes outside the frame buffer.

    Coordinates are numbers; those of a pixel on a screen are far from overflow. -/

namespace Scdk

/-! ## Functions -/

/-- The masks of `struct limine_framebuffer`. -/
structure PixelFormat where
  redMaskSize : UInt8
  redMaskShift : UInt8
  greenMaskSize : UInt8
  greenMaskShift : UInt8
  blueMaskSize : UInt8
  blueMaskShift : UInt8
  deriving DecidableEq, Repr

/-- `struct limine_framebuffer`: 32 bits a pixel, a row is as long as its pixels at least,
    the rows are in memory, and there is room for text. -/
structure Screen extends Framebuffer where
  address : Nat
  pitch : UInt64
  format : PixelFormat
  depth : bpp = 32
  rowFits : 4 * width.toNat ≤ pitch.toNat
  inMemory : address + height.toNat * pitch.toNat ≤ 2 ^ 64
  roomX : toFramebuffer.consoleOriginX ≤ width

/-- `pack_rgb` -/
def packRgb (f : PixelFormat) (r g b : UInt8) : UInt32 :=
  (r.toUInt32 >>> (8 - f.redMaskSize.toUInt32)) <<< f.redMaskShift.toUInt32 |||
    (g.toUInt32 >>> (8 - f.greenMaskSize.toUInt32)) <<< f.greenMaskShift.toUInt32 |||
    (b.toUInt32 >>> (8 - f.blueMaskSize.toUInt32)) <<< f.blueMaskShift.toUInt32

namespace Screen

/-- `background` of the drawing functions. -/
def background (g : Screen) : UInt32 := packRgb g.format 8 13 18

/-- `foreground` of `draw_console_char`. -/
def foreground (g : Screen) : UInt32 := packRgb g.format 226 232 240

/-- `shadow` of `draw_console_char`. -/
def shadow (g : Screen) : UInt32 := packRgb g.format 15 23 42

/-- Where a byte of a row is. -/
def byteAt (g : Screen) (y offset : Nat) : Nat := g.address + y * g.pitch.toNat + offset

end Screen

/-- A pixel that is written, and its color. -/
abbrev PixelWrite : Type := (Nat × Nat) × UInt32

/-- `put_pixel` -/
def putPixel (g : Screen) (m : Memory) (w : PixelWrite) : Memory :=
  if g.width.toNat ≤ w.1.1 ∨ g.height.toNat ≤ w.1.2 then m
  else m.store (g.byteAt w.1.2 (4 * w.1.1)) 4 w.2.toNat

/-- Pixels that are put one after the other. -/
def paint (g : Screen) (m : Memory) (ws : List PixelWrite) : Memory := ws.foldl (putPixel g) m

/-- The pixels of the loops of `fill_rect`. -/
def rectPoints (x y width height : Nat) : List (Nat × Nat) :=
  (List.range height).flatMap fun py => (List.range width).map fun px => (x + px, y + py)

/-- `fill_rect` -/
def fillRect (g : Screen) (m : Memory) (x y width height : Nat) (pixel : UInt32) : Memory :=
  paint g m ((rectPoints x y width height).map fun p => (p, pixel))

/-- `clear_console_cell` -/
def clearConsoleCell (g : Screen) (m : Memory) (x y : Nat) : Memory :=
  fillRect g m x y consoleCellWidth.toNat consoleCellHeight.toNat g.background

/-- The points of the two inner loops of `draw_console_char`, for one bit. -/
def bitPoints (x y row col : Nat) : List (Nat × Nat) :=
  (List.range 2).flatMap fun sy =>
    (List.range 2).map fun sx => (x + 2 + col * 2 + sx, y + 3 + row * 2 + sy)

/-- The points of the loops of `draw_console_char`: those of the bits that are set. -/
def glyphPoints (c : UInt8) (x y : Nat) : List (Nat × Nat) :=
  (List.range 7).flatMap fun row =>
    (List.range 5).flatMap fun col =>
      if glyphBit c row col = false then [] else bitPoints x y row col

/-- The shadow of a point. -/
def below (p : Nat × Nat) : Nat × Nat := (p.1 + 1, p.2 + 1)

/-- `draw_console_char`: each point is put in the foreground, after its shadow. -/
def drawConsoleChar (g : Screen) (m : Memory) (c : UInt8) (x y : Nat) : Memory :=
  paint g (clearConsoleCell g m x y)
    (shadowedWrites id below g.foreground g.shadow (glyphPoints c x y))

/-- The bytes of a row that move. -/
def movedOffsets (g : Screen) : List Nat :=
  List.range' (4 * g.consoleOriginX.toNat) (g.pitch.toNat - 4 * g.consoleOriginX.toNat)

/-- The inner loop of `scroll_console_pixels_up`, for the row `y` of pixels. -/
def copyRow (g : Screen) (m : Memory) (y : Nat) : Memory :=
  copyEach (g.byteAt y) (g.byteAt (y + consoleLineStep.toNat)) (movedOffsets g) m

/-- `bottom_y` -/
def Screen.bottomY (g : Screen) : Nat :=
  g.consoleOriginY.toNat + g.consoleRows.toNat * consoleLineStep.toNat

/-- The rows of pixels that others move to. -/
def movedRows (g : Screen) : List Nat :=
  List.range' g.consoleOriginY.toNat (g.bottomY - consoleLineStep.toNat - g.consoleOriginY.toNat)

/-- `scroll_console_pixels_up` -/
def scrollPixels (g : Screen) (m : Memory) : Memory :=
  if g.bottomY ≤ g.consoleOriginY.toNat + consoleLineStep.toNat then m
  else
    fillRect g ((movedRows g).foldl (copyRow g) m) g.consoleOriginX.toNat
      (g.bottomY - consoleLineStep.toNat) (g.width.toNat - g.consoleOriginX.toNat)
      consoleLineStep.toNat g.background

/-- The color that is in memory for a pixel. -/
def pixelAt (g : Screen) (m : Memory) (x y : Nat) : UInt32 :=
  UInt32.ofNat (m.load (g.byteAt y (4 * x)) 4)

/-! ## Rows -/

section rows

variable {g : Screen} {m : Memory} {x y y' offset offset' : Nat}

theorem byteAt_add (g : Screen) (y offset : Nat) : g.byteAt y offset = g.byteAt y 0 + offset := rfl

/-- A row ends before the next one. -/
theorem byteAt_le (h : y < y') (hoffset : offset ≤ g.pitch.toNat) : g.byteAt y offset ≤ g.byteAt y' 0 := by
  have hrows : (y + 1) * g.pitch.toNat ≤ y' * g.pitch.toNat := Nat.mul_le_mul_right _ h
  rw [Nat.succ_mul] at hrows
  unfold Screen.byteAt
  omega

/-- Bytes of different rows are different. -/
theorem byteAt_ne (h : offset < g.pitch.toNat) (h' : offset' < g.pitch.toNat)
    (hne : y ≠ y' ∨ offset ≠ offset') : g.byteAt y offset ≠ g.byteAt y' offset' := by
  have hsplit := byteAt_add g y offset
  have hsplit' := byteAt_add g y' offset'
  rcases Nat.lt_trichotomy y y' with hlt | rfl | hgt
  · have hle : g.byteAt y g.pitch.toNat ≤ g.byteAt y' 0 := byteAt_le hlt (Nat.le_refl _)
    have hpitch := byteAt_add g y g.pitch.toNat
    omega
  · omega
  · have hle : g.byteAt y' g.pitch.toNat ≤ g.byteAt y 0 := byteAt_le hgt (Nat.le_refl _)
    have hpitch := byteAt_add g y' g.pitch.toNat
    omega

/-- A byte of a row is in the frame buffer. -/
theorem byteAt_lt (hy : y < g.height.toNat) (hoffset : offset < g.pitch.toNat) :
    g.address ≤ g.byteAt y offset ∧ g.byteAt y offset < g.address + g.height.toNat * g.pitch.toNat := by
  have hrows : (y + 1) * g.pitch.toNat ≤ g.height.toNat * g.pitch.toNat := Nat.mul_le_mul_right _ hy
  rw [Nat.succ_mul] at hrows
  unfold Screen.byteAt
  omega

end rows

/-! ## Painting -/

section paint

variable {g : Screen} {m : Memory} {x y : Nat}

/-- The bytes of different pixels. -/
theorem byteAt_pixels {x' y' : Nat} (hx : x < g.width.toNat) (hx' : x' < g.width.toNat)
    (hne : (x', y') ≠ (x, y)) :
    g.byteAt y (4 * x) + 4 ≤ g.byteAt y' (4 * x') ∨ g.byteAt y' (4 * x') + 4 ≤ g.byteAt y (4 * x) := by
  have hfits := g.rowFits
  have hsplit := byteAt_add g y (4 * x)
  have hsplit' := byteAt_add g y' (4 * x')
  rcases Nat.lt_trichotomy y y' with hlt | rfl | hgt
  · have hle : g.byteAt y g.pitch.toNat ≤ g.byteAt y' 0 := byteAt_le hlt (Nat.le_refl _)
    have hpitch := byteAt_add g y g.pitch.toNat
    omega
  · have hcolumn : x' ≠ x := fun heq => hne (by rw [heq])
    omega
  · have hle : g.byteAt y' g.pitch.toNat ≤ g.byteAt y 0 := byteAt_le hgt (Nat.le_refl _)
    have hpitch := byteAt_add g y' g.pitch.toNat
    omega

theorem pixelAt_putPixel (w : PixelWrite) (hx : x < g.width.toNat) (hy : y < g.height.toNat) :
    pixelAt g (putPixel g m w) x y = if w.1 = (x, y) then w.2 else pixelAt g m x y := by
  obtain ⟨⟨x', y'⟩, color⟩ := w
  unfold putPixel pixelAt
  by_cases hout : g.width.toNat ≤ x' ∨ g.height.toNat ≤ y'
  · have hne : (x', y') ≠ (x, y) := by
      intro heq
      obtain ⟨rfl, rfl⟩ := Prod.mk.inj heq
      omega
    rw [if_pos hout, if_neg hne]
  · rw [if_neg hout]
    by_cases heq : (x', y') = (x, y)
    · obtain ⟨rfl, rfl⟩ := Prod.mk.inj heq
      have hcolor : color.toNat % 256 ^ 4 = color.toNat := Nat.mod_eq_of_lt color.toNat_lt
      rw [if_pos rfl, Memory.load_store_self, hcolor, UInt32.ofNat_toNat]
    · rw [if_neg heq, Memory.load_store_of_disjoint]
      exact byteAt_pixels hx (Nat.not_le.mp (not_or.mp hout).1) heq

/-- What is at a pixel after some writes. -/
theorem pixelAt_paint (ws : List PixelWrite) (hx : x < g.width.toNat) (hy : y < g.height.toNat) :
    pixelAt g (paint g m ws) x y = overwrite ws (x, y) (pixelAt g m x y) := by
  induction ws generalizing m with
  | nil => rfl
  | cons w ws ih =>
    show pixelAt g (paint g (putPixel g m w) ws) x y = _
    rw [ih, pixelAt_putPixel w hx hy]
    rfl

end paint

/-! ## Rectangles and characters -/

section shapes

variable {g : Screen} {m : Memory} {x y : Nat}

theorem mem_rectPoints {x₀ y₀ width height : Nat} :
    (x, y) ∈ rectPoints x₀ y₀ width height ↔
      x₀ ≤ x ∧ x < x₀ + width ∧ y₀ ≤ y ∧ y < y₀ + height := by
  unfold rectPoints
  simp only [List.mem_flatMap, List.mem_map, List.mem_range, Prod.mk.injEq]
  constructor
  · rintro ⟨py, hpy, px, hpx, rfl, rfl⟩
    omega
  · intro h
    exact ⟨y - y₀, by omega, x - x₀, by omega, by omega, by omega⟩

/-- A rectangle is filled. -/
theorem pixelAt_fillRect (hx : x < g.width.toNat) (hy : y < g.height.toNat)
    (x₀ y₀ width height : Nat) (pixel : UInt32) :
    pixelAt g (fillRect g m x₀ y₀ width height pixel) x y =
      if x₀ ≤ x ∧ x < x₀ + width ∧ y₀ ≤ y ∧ y < y₀ + height then pixel else pixelAt g m x y := by
  unfold fillRect
  rw [pixelAt_paint _ hx hy, overwrite_const]
  simp only [mem_rectPoints]

/-- The pixels of the bits of a glyph, in its cell. -/
def InGlyph (c : UInt8) (dx dy : Nat) : Prop :=
  2 ≤ dx ∧ dx < 12 ∧ 3 ≤ dy ∧ dy < 17 ∧ glyphBit c ((dy - 3) / 2) ((dx - 2) / 2) = true

instance (c : UInt8) (dx dy : Nat) : Decidable (InGlyph c dx dy) :=
  inferInstanceAs (Decidable (_ ∧ _))

/-- The pixels of a cell: the glyph, its shadow to the lower right, and the background. -/
def cellPixel (g : Screen) (c : UInt8) (dx dy : Nat) : UInt32 :=
  if InGlyph c dx dy then g.foreground
  else if 1 ≤ dx ∧ 1 ≤ dy ∧ InGlyph c (dx - 1) (dy - 1) then g.shadow
  else g.background

theorem mem_bitPoints {x₀ y₀ row col : Nat} :
    (x, y) ∈ bitPoints x₀ y₀ row col ↔ x₀ + 2 + col * 2 ≤ x ∧ x < x₀ + 4 + col * 2 ∧
      y₀ + 3 + row * 2 ≤ y ∧ y < y₀ + 5 + row * 2 := by
  unfold bitPoints
  simp only [List.mem_flatMap, List.mem_map, List.mem_range, Prod.mk.injEq]
  constructor
  · rintro ⟨sy, hsy, sx, hsx, rfl, rfl⟩
    omega
  · intro h
    exact ⟨y - (y₀ + 3 + row * 2), by omega, x - (x₀ + 2 + col * 2), by omega, by omega, by omega⟩

theorem mem_glyphPoints {c : UInt8} {x₀ y₀ : Nat} :
    (x, y) ∈ glyphPoints c x₀ y₀ ↔ x₀ ≤ x ∧ y₀ ≤ y ∧ InGlyph c (x - x₀) (y - y₀) := by
  unfold glyphPoints InGlyph
  simp only [List.mem_flatMap, List.mem_range]
  constructor
  · rintro ⟨row, hrow, col, hcol, hmem⟩
    split at hmem
    · cases hmem
    · next hbit =>
      rw [mem_bitPoints] at hmem
      have hr : (y - y₀ - 3) / 2 = row := by omega
      have hc : (x - x₀ - 2) / 2 = col := by omega
      rw [hr, hc]
      exact ⟨by omega, by omega, by omega, by omega, by omega, by omega, by simpa using hbit⟩
  · rintro ⟨hx, hy, hleft, hright, htop, hbottom, hbit⟩
    refine ⟨(y - y₀ - 3) / 2, by omega, (x - x₀ - 2) / 2, by omega, ?_⟩
    rw [if_neg (by simp [hbit]), mem_bitPoints]
    omega

theorem pairwise_bitPoints (x₀ y₀ row col : Nat) :
    (bitPoints x₀ y₀ row col).Pairwise fun p q => p ≠ below q := by
  simp [bitPoints, List.range_succ, below]
  omega

/-- No shadow falls on a point that was put before. -/
theorem pairwise_glyphPoints (c : UInt8) (x₀ y₀ : Nat) :
    (glyphPoints c x₀ y₀).Pairwise fun p q => p ≠ below q := by
  have hblock : ∀ {row col p}, p ∈ (if glyphBit c row col = false then [] else bitPoints x₀ y₀ row col) →
      p ∈ bitPoints x₀ y₀ row col := by
    intro row col p hp
    split at hp
    · cases hp
    · exact hp
  unfold glyphPoints
  rw [List.pairwise_flatMap]
  constructor
  · intro row _
    rw [List.pairwise_flatMap]
    constructor
    · intro col _
      split
      · exact .nil
      · exact pairwise_bitPoints x₀ y₀ row col
    · -- a bit further to the right
      apply List.pairwise_lt_range.imp
      intro col col' hlt p hp q hq heq
      have hp := mem_bitPoints.mp (hblock hp)
      have hq := mem_bitPoints.mp (hblock hq)
      rw [heq] at hp
      unfold below at hp
      omega
  · -- a lower bit
    apply List.pairwise_lt_range.imp
    intro row row' hlt p hp q hq heq
    obtain ⟨col, _, hp⟩ := List.mem_flatMap.mp hp
    obtain ⟨col', _, hq⟩ := List.mem_flatMap.mp hq
    have hp := mem_bitPoints.mp (hblock hp)
    have hq := mem_bitPoints.mp (hblock hq)
    rw [heq] at hp
    unfold below at hp
    omega

theorem mem_shadows {c : UInt8} {x₀ y₀ : Nat} :
    (x, y) ∈ (glyphPoints c x₀ y₀).map below ↔
      x₀ + 1 ≤ x ∧ y₀ + 1 ≤ y ∧ InGlyph c (x - x₀ - 1) (y - y₀ - 1) := by
  rw [List.mem_map]
  constructor
  · rintro ⟨⟨x', y'⟩, hmem, heq⟩
    obtain ⟨rfl, rfl⟩ := Prod.mk.inj heq
    obtain ⟨hx, hy, hin⟩ := mem_glyphPoints.mp hmem
    refine ⟨Nat.succ_le_succ hx, Nat.succ_le_succ hy, ?_⟩
    rwa [show x' + 1 - x₀ - 1 = x' - x₀ by omega, show y' + 1 - y₀ - 1 = y' - y₀ by omega]
  · rintro ⟨hx, hy, hin⟩
    refine ⟨(x - 1, y - 1), mem_glyphPoints.mpr ⟨by omega, by omega, ?_⟩, ?_⟩
    · rwa [show x - 1 - x₀ = x - x₀ - 1 by omega, show y - 1 - y₀ = y - y₀ - 1 by omega]
    · exact Prod.ext (show x - 1 + 1 = x by omega) (show y - 1 + 1 = y by omega)

/-- A character is drawn. -/
theorem pixelAt_drawConsoleChar (hx : x < g.width.toNat) (hy : y < g.height.toNat) (c : UInt8)
    (x₀ y₀ : Nat) :
    pixelAt g (drawConsoleChar g m c x₀ y₀) x y =
      if x₀ ≤ x ∧ x < x₀ + 14 ∧ y₀ ≤ y ∧ y < y₀ + 20 then cellPixel g c (x - x₀) (y - y₀)
      else pixelAt g m x y := by
  unfold drawConsoleChar clearConsoleCell
  rw [pixelAt_paint _ hx hy, overwrite_shadowed id below _ _ (pairwise_glyphPoints c x₀ y₀),
    pixelAt_fillRect hx hy, List.map_id]
  simp only [mem_glyphPoints, mem_shadows]
  have hwidth : consoleCellWidth.toNat = 14 := rfl
  have hheight : consoleCellHeight.toNat = 20 := rfl
  rw [hwidth, hheight]
  by_cases hcell : x₀ ≤ x ∧ x < x₀ + 14 ∧ y₀ ≤ y ∧ y < y₀ + 20
  · rw [if_pos hcell, if_pos hcell]
    unfold cellPixel
    congr 1
    · simp [hcell.1, hcell.2.2.1]
    · congr 1
      simp only [eq_iff_iff]
      constructor
      · rintro ⟨h, h', hin⟩
        exact ⟨by omega, by omega, hin⟩
      · rintro ⟨h, h', hin⟩
        exact ⟨by omega, by omega, hin⟩
  · -- the glyph and its shadow are in the cell
    rw [if_neg hcell, if_neg, if_neg, if_neg hcell]
    · rintro ⟨h, h', hleft, hright, htop, hbottom, _⟩
      omega
    · rintro ⟨h, h', hleft, hright, htop, hbottom, _⟩
      omega

end shapes

/-! ## Scrolling -/

section scroll

variable {g : Screen} {m : Memory} {x y : Nat}

/-- The bytes that move, with their rows. -/
def movedBytes (g : Screen) : List (Nat × Nat) :=
  (movedRows g).flatMap fun y => (movedOffsets g).map fun offset => (y, offset)

theorem mem_movedBytes {y offset : Nat} : (y, offset) ∈ movedBytes g ↔
    (g.consoleOriginY.toNat ≤ y ∧ y + 22 < g.bottomY) ∧
      4 * g.consoleOriginX.toNat ≤ offset ∧ offset < g.pitch.toNat := by
  have hstep : consoleLineStep.toNat = 22 := rfl
  unfold movedBytes movedRows movedOffsets
  simp only [List.mem_flatMap, List.mem_map, List.mem_range'_1, Prod.mk.injEq, hstep]
  constructor
  · rintro ⟨y', hy', offset', hoffset', rfl, rfl⟩
    omega
  · intro h
    exact ⟨y, by omega, offset, by omega, rfl, rfl⟩

/-- The rows are copied from the first to the last one. -/
theorem pairwise_movedBytes (g : Screen) : (movedBytes g).Pairwise fun p q =>
    p.1 < q.1 ∨ p.1 = q.1 ∧ p.2 < q.2 := by
  unfold movedBytes movedRows movedOffsets
  rw [List.pairwise_flatMap]
  constructor
  · intro y _
    rw [List.pairwise_map]
    apply (List.pairwise_lt_range' 1).imp
    intro offset offset' hlt
    exact .inr ⟨rfl, hlt⟩
  · apply (List.pairwise_lt_range' 1).imp
    intro y y' hlt p hp q hq
    obtain ⟨_, _, rfl⟩ := List.mem_map.mp hp
    obtain ⟨_, _, rfl⟩ := List.mem_map.mp hq
    exact .inl hlt

/-- Both loops are one. -/
theorem copyRows_eq (g : Screen) (m : Memory) : (movedRows g).foldl (copyRow g) m =
    copyEach (fun p : Nat × Nat => g.byteAt p.1 p.2) (fun p => g.byteAt (p.1 + 22) p.2)
      (movedBytes g) m := by
  unfold copyEach movedBytes
  rw [List.foldl_flatMap]
  simp only [List.foldl_map]
  rfl

/-- A byte that others move to. -/
theorem copyRows_of_mem {offset : Nat} (hmem : (y, offset) ∈ movedBytes g) :
    (movedRows g).foldl (copyRow g) m (g.byteAt y offset) = m (g.byteAt (y + 22) offset) := by
  rw [copyRows_eq]
  have hpitch : ∀ {p}, p ∈ movedBytes g → p.2 < g.pitch.toNat := fun hp => (mem_movedBytes.mp hp).2.2
  have hdst : (movedBytes g).Pairwise fun p q => g.byteAt p.1 p.2 ≠ g.byteAt q.1 q.2 := by
    apply (pairwise_movedBytes g).imp_of_mem
    intro p q hp hq hlt
    apply byteAt_ne (hpitch hp) (hpitch hq)
    omega
  -- a row is read before it is written
  have hsrc : (movedBytes g).Pairwise fun p q => g.byteAt p.1 p.2 ≠ g.byteAt (q.1 + 22) q.2 := by
    apply (pairwise_movedBytes g).imp_of_mem
    intro p q hp hq hlt
    apply byteAt_ne (hpitch hp) (hpitch hq)
    omega
  exact copyEach_of_mem hdst hsrc hmem

theorem copyRows_of_notMem {i : Nat} (h : ∀ p ∈ movedBytes g, g.byteAt p.1 p.2 ≠ i) :
    (movedRows g).foldl (copyRow g) m i = m i := by
  rw [copyRows_eq]
  exact copyEach_of_notMem h

/-- The text rows end on the screen. -/
theorem bottomY_le (h : g.consoleRows ≠ 0) : g.bottomY ≤ g.height.toNat := by
  have hstep : consoleLineStep.toNat = 22 := rfl
  have horigin : ¬ g.height ≤ g.consoleOriginY := by
    intro hle
    unfold Framebuffer.consoleRows at h
    exact h (if_pos hle)
  have hle := UInt64.le_of_lt (UInt64.not_le.mp horigin)
  have hrows : g.consoleRows.toNat = (g.height.toNat - g.consoleOriginY.toNat) / 22 := by
    unfold Framebuffer.consoleRows
    rw [if_neg horigin, UInt64.toNat_div, UInt64.toNat_sub_of_le _ _ hle, hstep]
  have hle := UInt64.le_iff_toNat_le.mp hle
  unfold Screen.bottomY
  rw [hstep]
  omega

theorem byteAt_add_add (g : Screen) (y offset i : Nat) :
    g.byteAt y offset + i = g.byteAt y (offset + i) := Nat.add_assoc _ _ _

/-- The pixels when the rows have moved. -/
theorem pixelAt_copyRows (hx : x < g.width.toNat) :
    pixelAt g ((movedRows g).foldl (copyRow g) m) x y =
      if g.consoleOriginX.toNat ≤ x ∧ g.consoleOriginY.toNat ≤ y ∧ y + 22 < g.bottomY then
        pixelAt g m x (y + 22)
      else pixelAt g m x y := by
  have hfits := g.rowFits
  unfold pixelAt
  by_cases hmoved : g.consoleOriginX.toNat ≤ x ∧ g.consoleOriginY.toNat ≤ y ∧ y + 22 < g.bottomY
  · rw [if_pos hmoved]
    congr 1
    apply Memory.load_congr_at
    intro i hi
    have hmem : (y, 4 * x + i) ∈ movedBytes g := mem_movedBytes.mpr (by omega)
    rw [byteAt_add_add, byteAt_add_add]
    exact copyRows_of_mem hmem
  · rw [if_neg hmoved]
    congr 1
    apply Memory.load_congr_at
    intro i hi
    apply copyRows_of_notMem
    rintro ⟨y', offset⟩ hp
    have hmem := mem_movedBytes.mp hp
    rw [byteAt_add_add]
    apply byteAt_ne hmem.2.2 (by omega)
    by_contra heq
    omega

/-- The text area moves up by a line step. -/
theorem pixelAt_scrollPixels (hx : x < g.width.toNat) (hy : y < g.height.toNat)
    (hmoves : g.consoleOriginY.toNat + 22 < g.bottomY) :
    pixelAt g (scrollPixels g m) x y =
      if g.consoleOriginX.toNat ≤ x ∧ g.consoleOriginY.toNat ≤ y ∧ y < g.bottomY then
        if y + 22 < g.bottomY then pixelAt g m x (y + 22) else g.background
      else pixelAt g m x y := by
  have hstep : consoleLineStep.toNat = 22 := rfl
  have hroom := UInt64.le_iff_toNat_le.mp g.roomX
  unfold scrollPixels
  rw [hstep, if_neg (by omega), pixelAt_fillRect hx hy, pixelAt_copyRows hx]
  by_cases harea : g.consoleOriginX.toNat ≤ x ∧ g.consoleOriginY.toNat ≤ y ∧ y < g.bottomY
  · rw [if_pos harea]
    by_cases hlast : y + 22 < g.bottomY
    · rw [if_pos hlast, if_neg (by omega), if_pos (by omega)]
    · rw [if_neg hlast, if_pos (by omega)]
  · rw [if_neg harea, if_neg (by omega), if_neg (by omega)]

end scroll

/-! ## The frame -/

section frame

variable {g : Screen} {m : Memory}

/-- Memory outside the frame buffer is the same. -/
def Outside (g : Screen) (m m' : Memory) : Prop :=
  ∀ i, i < g.address ∨ g.address + g.height.toNat * g.pitch.toNat ≤ i → m' i = m i

theorem Outside.trans {m₁ m₂ m₃ : Memory} (h : Outside g m₁ m₂) (h' : Outside g m₂ m₃) :
    Outside g m₁ m₃ := fun i hi => (h' i hi).trans (h i hi)

theorem outside_paint (g : Screen) (m : Memory) (ws : List PixelWrite) : Outside g m (paint g m ws) := by
  induction ws generalizing m with
  | nil => exact fun _ _ => rfl
  | cons w ws ih =>
    refine Outside.trans (?_ : Outside g m (putPixel g m w)) (ih _)
    intro i hi
    unfold putPixel
    by_cases hout : g.width.toNat ≤ w.1.1 ∨ g.height.toNat ≤ w.1.2
    · rw [if_pos hout]
    · rw [if_neg hout, Memory.store_of_not_mem]
      have hfits := g.rowFits
      have hx := Nat.not_le.mp (not_or.mp hout).1
      have hy := Nat.not_le.mp (not_or.mp hout).2
      have hrow : 4 * w.1.1 + 3 < g.pitch.toNat := by omega
      have hfirst := byteAt_lt hy (Nat.lt_of_add_right_lt hrow)
      have hlast := byteAt_lt hy hrow
      have hsplit := byteAt_add g w.1.2 (4 * w.1.1)
      have hsplit' := byteAt_add g w.1.2 (4 * w.1.1 + 3)
      omega

theorem outside_fillRect (g : Screen) (m : Memory) (x y width height : Nat) (pixel : UInt32) :
    Outside g m (fillRect g m x y width height pixel) := outside_paint g m _

theorem outside_drawConsoleChar (g : Screen) (m : Memory) (c : UInt8) (x y : Nat) :
    Outside g m (drawConsoleChar g m c x y) :=
  (outside_fillRect g m _ _ _ _ _).trans (outside_paint g _ _)

theorem outside_scrollPixels (g : Screen) (m : Memory) : Outside g m (scrollPixels g m) := by
  have hstep : consoleLineStep.toNat = 22 := rfl
  unfold scrollPixels
  by_cases hmoves : g.bottomY ≤ g.consoleOriginY.toNat + consoleLineStep.toNat
  · rw [if_pos hmoves]
    exact fun _ _ => rfl
  · rw [if_neg hmoves]
    refine Outside.trans (?_ : Outside g m ((movedRows g).foldl (copyRow g) m))
      (outside_fillRect g _ _ _ _ _ _)
    have hrows : g.consoleRows ≠ 0 := by
      intro hzero
      apply hmoves
      unfold Screen.bottomY
      rw [hzero]
      simp
    have hbottom := bottomY_le hrows
    intro i hi
    apply copyRows_of_notMem
    rintro ⟨y, offset⟩ hp
    have hmem := mem_movedBytes.mp hp
    have hy : y < g.height.toNat := by omega
    have hlt := byteAt_lt hy hmem.2.2
    show g.byteAt y offset ≠ i
    omega

end frame

end Scdk
