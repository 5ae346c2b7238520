import Mathlib.Data.List.Basic
import Scdk.Arch.Pixels
import Scdk.Arch.Scrollback

/-! # The pixels of the text console

    The text console is modelled over a grid of cells, each with the character it shows.
    This file goes on from the cells to the pixels: what the functions of
    `arch/x86_64/framebuffer.c` draw, in memory, is at all times what the cells say.

    * `Drawing`: what the functions draw, `Drawing.onPixels`: the functions of the source
      that do it, `Drawing.onCells`: what it is in the grid of cells,
    * `drawHistoryCellDrawings`, …, `runDrawings`: the drawings of each function of the
      console, with `cells_consoleNewline`, …: they are what it does to the cells,
    * `Displays`: each pixel is one of the cell it is in,
    * `Displays.draw`: every drawing keeps this,
    * `pixels_show_cells`: so it holds after any calls. -/

namespace Scdk

open TextConsole

/-! ## Drawings -/

/-- The characters of the cells, by row and column. -/
abbrev Cells : Type := UInt64 → UInt64 → UInt8

/-- One cell is drawn, or the whole text area, or the text area moves up, or the screen is
    cleared. -/
inductive Drawing where
  | cell (ch : UInt8) (row column : UInt64)
  | view (chars : Cells)
  | scroll
  | clear

/-- The drawing in the grid of cells. -/
def Drawing.onCells (fb : Framebuffer) (cells : Cells) : Drawing → Cells
  | .cell ch row column => fun r c => if r = row ∧ c = column then ch else cells r c
  | .view chars => fun r c =>
    if r < fb.consoleRows ∧ c < fb.consoleVisibleColumns then chars r c else blank
  | .scroll =>
    if fb.consoleOriginY + fb.consoleRows * consoleLineStep ≤ fb.consoleOriginY + consoleLineStep then
      cells
    else fun r c =>
      if r + 1 < fb.consoleRows then cells (r + 1) c
      else if r + 1 = fb.consoleRows then blank
      else cells r c
  | .clear => fun _ _ => blank

/-- Some drawings in the grid of cells. -/
def drawnCells (fb : Framebuffer) (cells : Cells) (ds : List Drawing) : Cells :=
  ds.foldl (Drawing.onCells fb) cells

/-- The end of `draw_history_cell`, for a cell on the screen. -/
def drawCell (g : Screen) (m : Memory) (ch : UInt8) (row column : Nat) : Memory :=
  let x := g.consoleOriginX.toNat + column * consoleCellWidth.toNat
  let y := g.consoleOriginY.toNat + row * consoleLineStep.toNat
  if ch = blank then clearConsoleCell g m x y else drawConsoleChar g m ch x y

/-- The loops of `render_console`. -/
def drawChars (g : Screen) (m : Memory) (chars : Cells) : Memory :=
  (List.range g.consoleRows.toNat).foldl (fun m row =>
    (List.range g.consoleVisibleColumns.toNat).foldl (fun m column =>
      let ch := chars (UInt64.ofNat row) (UInt64.ofNat column)
      if ch ≠ blank then
        drawConsoleChar g m ch (g.consoleOriginX.toNat + column * consoleCellWidth.toNat)
          (g.consoleOriginY.toNat + row * consoleLineStep.toNat)
      else m) m) m

/-- The drawing in memory. -/
def Drawing.onPixels (g : Screen) (m : Memory) : Drawing → Memory
  | .cell ch row column => drawCell g m ch row.toNat column.toNat
  | .view chars =>
    drawChars g (fillRect g m g.consoleOriginX.toNat g.consoleOriginY.toNat
      (g.width.toNat - g.consoleOriginX.toNat) (g.height.toNat - g.consoleOriginY.toNat)
      g.background) chars
  | .scroll => scrollPixels g m
  | .clear => fillRect g m 0 0 g.width.toNat g.height.toNat g.background

/-- Some drawings in memory. -/
def drawnPixels (g : Screen) (m : Memory) (ds : List Drawing) : Memory :=
  ds.foldl (Drawing.onPixels g) m

/-! ## What the functions draw -/

namespace TextConsole

/-- `draw_history_cell` -/
def drawHistoryCellDrawings (fb : Framebuffer) (s : TextConsole) (line column : UInt64) :
    List Drawing :=
  match s.historyLineVisible fb line with
  | none => []
  | some row =>
    if fb.consoleVisibleColumns ≤ column then []
    else [.cell (s.historyCharAt line column) row column]

/-- `render_console` -/
def renderConsoleDrawings (fb : Framebuffer) (s : TextConsole) : List Drawing :=
  if fb.bpp ≠ 32 then []
  else if fb.height ≤ fb.consoleOriginY ∨ fb.width ≤ fb.consoleOriginX then []
  else
    let s := s.clampConsoleView fb
    [.view fun r c => s.historyCharAt (s.viewTopLine + r) c]

/-- `console_newline` -/
def consoleNewlineDrawings (fb : Framebuffer) (s : TextConsole) : List Drawing :=
  let t := s.nextView fb
  if s.viewIsAtBottom fb = true ∧ t.viewTopLine = s.viewTopLine + 1 then [.scroll]
  else if t.viewTopLine ≠ s.viewTopLine then t.renderConsoleDrawings fb
  else []

/-- `console_backspace` -/
def consoleBackspaceDrawings (fb : Framebuffer) (s : TextConsole) : List Drawing :=
  if s.cursorColumn = 0 then []
  else s.erased.drawHistoryCellDrawings fb s.currentLine (s.cursorColumn - 1)

/-- A character with room on the line. -/
def putHereDrawings (fb : Framebuffer) (s : TextConsole) (ch : UInt8) : List Drawing :=
  let t := s.putView fb ch
  if t.viewTopLine ≠ s.viewTopLine then t.renderConsoleDrawings fb
  else t.drawHistoryCellDrawings fb t.currentLine t.cursorColumn

/-- The end of `scdk_fb_text_putchar`. -/
def putGlyphDrawings (fb : Framebuffer) (s : TextConsole) (ch : UInt8) : List Drawing :=
  if fb.consoleVisibleColumns = 0 then []
  else if fb.consoleVisibleColumns ≤ s.cursorColumn then
    s.consoleNewlineDrawings fb ++ (s.consoleNewline fb).putHereDrawings fb ch
  else s.putHereDrawings fb ch

/-- `scdk_fb_text_putchar` for a character other than a tab. -/
def putcharNoTabDrawings (fb : Framebuffer) (s : TextConsole) (ch : UInt8) : List Drawing :=
  if fb.bpp ≠ 32 then []
  else
    let s := s.ensureConsoleCursor fb
    if ch = 10 then s.consoleNewlineDrawings fb
    else if ch = 13 then []
    else if ch = 8 then s.consoleBackspaceDrawings fb
    else s.putGlyphDrawings fb ch

/-- The loop for a tab. -/
def tabLoopDrawings (fb : Framebuffer) : Nat → TextConsole → List Drawing
  | 0, _ => []
  | rounds + 1, s =>
    s.putcharNoTabDrawings fb blank ++
      match s.putcharNoTab fb blank with
      | (.error _, _) => []
      | (.ok _, s) => if s.cursorColumn % 4 ≠ 0 then tabLoopDrawings fb rounds s else []

/-- `scdk_fb_text_putchar` -/
def fbTextPutcharDrawings (fb : Framebuffer) (s : TextConsole) (ch : UInt8) : List Drawing :=
  if ch = 9 then
    if fb.bpp ≠ 32 then [] else tabLoopDrawings fb 8 (s.ensureConsoleCursor fb)
  else s.putcharNoTabDrawings fb ch

/-- The loop of `scdk_fb_text_write`. -/
def writeLoopDrawings (fb : Framebuffer) : List UInt8 → TextConsole → List Drawing
  | [], _ => []
  | ch :: text, s =>
    s.fbTextPutcharDrawings fb ch ++
      match s.fbTextPutchar fb ch with
      | (.error _, _) => []
      | (.ok _, s) => writeLoopDrawings fb text s

/-- `scdk_fb_text_scroll` -/
def fbTextScrollDrawings (fb : Framebuffer) (s : TextConsole) (lines : Int32) : List Drawing :=
  if fb.bpp ≠ 32 then []
  else
    let s := s.ensureConsoleCursor fb
    if lines = 0 then []
    else
      let t := { s with viewTopLine := s.scrolledTop fb lines }.clampConsoleView fb
      if t.viewTopLine ≠ s.viewTopLine then t.renderConsoleDrawings fb else []

/-- The drawings of a call. -/
def callDrawings (fb : Framebuffer) (s : TextConsole) : Call → List Drawing
  | .write buf len => writeLoopDrawings fb (writtenText buf len) s
  | .scroll lines => s.fbTextScrollDrawings fb lines

/-- The drawings of some calls, one after the other. -/
def runDrawings (fb : Framebuffer) : TextConsole → List Call → List Drawing
  | _, [] => []
  | s, call :: calls => s.callDrawings fb call ++ runDrawings fb (s.perform fb call).2 calls

end TextConsole

/-! ## The drawings are what becomes of the cells -/

/-- A cell that is drawn is on the screen. -/
def Drawing.Fits (fb : Framebuffer) : Drawing → Prop
  | .cell _ row column => row < fb.consoleRows ∧ column < fb.consoleVisibleColumns
  | _ => True

/-- The drawings make `cells'` of `cells`, and are on the screen. -/
structure Draws (fb : Framebuffer) (ds : List Drawing) (cells cells' : Cells) : Prop where
  drawn : cells' = drawnCells fb cells ds
  fits : ∀ d ∈ ds, d.Fits fb

section draws

variable {fb : Framebuffer} {cells cells' cells'' : Cells} {ds ds' : List Drawing}

theorem Draws.nil (fb : Framebuffer) (cells : Cells) : Draws fb [] cells cells :=
  ⟨rfl, fun _ hd => nomatch hd⟩

theorem Draws.single {d : Drawing} (h : d.Fits fb) : Draws fb [d] cells (d.onCells fb cells) where
  drawn := rfl
  fits := by simpa using h

theorem Draws.append (h : Draws fb ds cells cells') (h' : Draws fb ds' cells' cells'') :
    Draws fb (ds ++ ds') cells cells'' where
  drawn := by
    rw [h'.drawn, h.drawn]
    simp [drawnCells]
  fits := by
    intro d hd
    rcases List.mem_append.mp hd with hd | hd
    · exact h.fits d hd
    · exact h'.fits d hd

end draws

namespace TextConsole

variable {fb : Framebuffer} {s : TextConsole}

/-- The row of a visible line is on the screen. -/
theorem historyLineVisible_lt {line row : UInt64} (h : s.historyLineVisible fb line = some row) :
    row < fb.consoleRows := by
  unfold historyLineVisible at h
  split at h
  · cases h
  · next hvisible =>
    obtain rfl := Option.some.inj h
    obtain ⟨hview, hrows⟩ := not_or.mp hvisible
    rw [UInt64.not_lt, UInt64.le_iff_toNat_le] at hview
    rw [UInt64.not_le, UInt64.lt_iff_toNat_lt, UInt64.toNat_add] at hrows
    rw [UInt64.lt_iff_toNat_lt, UInt64.toNat_sub_of_le _ _ (UInt64.le_iff_toNat_le.mpr hview)]
    have hlt := fb.consoleRows.toNat_lt
    omega

theorem draws_drawHistoryCell (s : TextConsole) (line column : UInt64) :
    Draws fb (s.drawHistoryCellDrawings fb line column) s.cells
      (s.drawHistoryCell fb line column).cells := by
  unfold drawHistoryCell drawHistoryCellDrawings
  cases hvisible : s.historyLineVisible fb line with
  | none => exact .nil fb _
  | some row =>
    dsimp only
    split
    · exact .nil fb _
    · next hcolumn =>
      exact .single ⟨historyLineVisible_lt hvisible, UInt64.not_le.mp hcolumn⟩

theorem draws_renderConsole (s : TextConsole) :
    Draws fb (s.renderConsoleDrawings fb) s.cells (s.renderConsole fb).cells := by
  unfold renderConsole renderConsoleDrawings
  split
  · exact .nil fb _
  split
  · exact .nil fb _
  · exact .single trivial

theorem draws_scrollConsolePixelsUp (s : TextConsole) :
    Draws fb [.scroll] s.cells (s.scrollConsolePixelsUp fb).cells := by
  have hcells : (s.scrollConsolePixelsUp fb).cells = Drawing.scroll.onCells fb s.cells := by
    unfold scrollConsolePixelsUp Drawing.onCells
    dsimp only
    split
    · rfl
    · rfl
  rw [hcells]
  exact .single trivial

theorem draws_consoleNewline (s : TextConsole) :
    Draws fb (s.consoleNewlineDrawings fb) s.cells (s.consoleNewline fb).cells := by
  rw [consoleNewline_eq]
  unfold drawNextView consoleNewlineDrawings
  dsimp only
  split
  · exact draws_scrollConsolePixelsUp (s.nextView fb)
  split
  · exact draws_renderConsole (s.nextView fb)
  · exact .nil fb _

theorem draws_consoleBackspace (s : TextConsole) :
    Draws fb (s.consoleBackspaceDrawings fb) s.cells (s.consoleBackspace fb).cells := by
  unfold consoleBackspaceDrawings
  split
  · next hzero =>
    unfold consoleBackspace
    rw [if_pos hzero]
    exact .nil fb _
  · next hne =>
    rw [consoleBackspace_eq hne]
    exact draws_drawHistoryCell s.erased s.currentLine (s.cursorColumn - 1)

theorem updateConsoleCursorPixels_cells (s : TextConsole) :
    (s.updateConsoleCursorPixels fb).cells = s.cells := rfl

theorem putView_cells (fb : Framebuffer) (s : TextConsole) (ch : UInt8) :
    (s.putView fb ch).cells = s.cells := by
  unfold putView
  dsimp only
  split
  · rfl
  · rfl

theorem draws_putHere (s : TextConsole) (ch : UInt8) :
    Draws fb (s.putHereDrawings fb ch) s.cells (s.putHere fb ch).cells := by
  have hview := putView_cells fb s ch
  rw [putHere_draw, updateConsoleCursorPixels_cells, ← hview]
  unfold drawPut putHereDrawings
  dsimp only
  split
  · exact draws_renderConsole (s.putView fb ch)
  · exact draws_drawHistoryCell _ _ _

theorem draws_putGlyph (s : TextConsole) (ch : UInt8) :
    Draws fb (s.putGlyphDrawings fb ch) s.cells (s.putGlyph fb ch).2.cells := by
  unfold putGlyphDrawings
  by_cases hcolumns : fb.consoleVisibleColumns = 0
  · unfold TextConsole.putGlyph
    rw [if_pos hcolumns, if_pos hcolumns]
    exact .nil fb _
  · rw [putGlyph_eq hcolumns, if_neg hcolumns]
    dsimp only
    split
    · exact (draws_consoleNewline s).append (draws_putHere (s.consoleNewline fb) ch)
    · exact draws_putHere s ch

theorem ensure_cells (fb : Framebuffer) (s : TextConsole) : (s.ensureConsoleCursor fb).cells = s.cells := by
  unfold ensureConsoleCursor
  split
  · rfl
  · rfl

theorem draws_putcharNoTab (fb : Framebuffer) (s : TextConsole) (ch : UInt8) :
    Draws fb (s.putcharNoTabDrawings fb ch) s.cells (s.putcharNoTab fb ch).2.cells := by
  unfold putcharNoTab putcharNoTabDrawings
  split
  · exact .nil fb _
  dsimp only
  rw [← ensure_cells fb s]
  split
  · exact draws_consoleNewline _
  split
  · exact .nil fb _
  split
  · exact draws_consoleBackspace _
  · exact draws_putGlyph _ ch

theorem draws_tabLoop (rounds : Nat) (s : TextConsole) :
    Draws fb (tabLoopDrawings fb rounds s) s.cells (tabLoop fb rounds s).2.cells := by
  induction rounds generalizing s with
  | zero => exact .nil fb _
  | succ rounds ih =>
    unfold tabLoop tabLoopDrawings
    have hput := draws_putcharNoTab fb s blank
    refine hput.append ?_
    rcases s.putcharNoTab fb blank with ⟨r, t⟩
    cases r with
    | error e => exact .nil fb _
    | ok _ =>
      dsimp only
      split
      · exact ih t
      · exact .nil fb _

theorem draws_fbTextPutchar (fb : Framebuffer) (s : TextConsole) (ch : UInt8) :
    Draws fb (s.fbTextPutcharDrawings fb ch) s.cells (s.fbTextPutchar fb ch).2.cells := by
  unfold fbTextPutchar fbTextPutcharDrawings
  split
  · split
    · exact .nil fb _
    · rw [← ensure_cells fb s]
      exact draws_tabLoop 8 _
  · exact draws_putcharNoTab fb s ch

theorem draws_writeLoop (text : List UInt8) (s : TextConsole) :
    Draws fb (writeLoopDrawings fb text s) s.cells (writeLoop fb text s).2.cells := by
  induction text generalizing s with
  | nil => exact .nil fb _
  | cons ch text ih =>
    unfold writeLoop writeLoopDrawings
    have hput := draws_fbTextPutchar fb s ch
    refine hput.append ?_
    rcases s.fbTextPutchar fb ch with ⟨r, t⟩
    cases r with
    | error e => exact .nil fb _
    | ok _ => exact ih t

theorem draws_fbTextScroll (s : TextConsole) (lines : Int32) :
    Draws fb (s.fbTextScrollDrawings fb lines) s.cells (s.fbTextScroll fb lines).2.cells := by
  unfold fbTextScroll fbTextScrollDrawings
  split
  · exact .nil fb _
  dsimp only
  rw [← ensure_cells fb s]
  split
  · exact .nil fb _
  dsimp only
  split
  · exact draws_renderConsole _
  · exact .nil fb _

theorem draws_perform (s : TextConsole) (call : Call) :
    Draws fb (s.callDrawings fb call) s.cells (s.perform fb call).2.cells := by
  cases call with
  | write buf len => exact draws_writeLoop _ s
  | scroll lines => exact draws_fbTextScroll s lines

/-- **Cells.**  The drawings of some calls are what becomes of the cells. -/
theorem draws_performAll (s : TextConsole) (calls : List Call) :
    Draws fb (runDrawings fb s calls) s.cells (s.performAll fb calls).cells := by
  induction calls generalizing s with
  | nil => exact .nil fb _
  | cons call calls ih => exact (draws_perform s call).append (ih (s.perform fb call).2)

end TextConsole

/-! ## The pixels of the cells -/

/-- The color of a pixel of the screen: that of the cell it is in, or the background. -/
def screenPixel (g : Screen) (cells : Cells) (x y : Nat) : UInt32 :=
  if g.consoleOriginX.toNat ≤ x ∧ g.consoleOriginY.toNat ≤ y ∧
      (x - g.consoleOriginX.toNat) / 14 < g.consoleVisibleColumns.toNat ∧
      (y - g.consoleOriginY.toNat) / 22 < g.consoleRows.toNat then
    cellPixel g
      (cells (UInt64.ofNat ((y - g.consoleOriginY.toNat) / 22))
        (UInt64.ofNat ((x - g.consoleOriginX.toNat) / 14)))
      ((x - g.consoleOriginX.toNat) % 14) ((y - g.consoleOriginY.toNat) % 22)
  else g.background

/-- The memory has the pixels of the cells. -/
def Displays (g : Screen) (cells : Cells) (m : Memory) : Prop :=
  ∀ x y, x < g.width.toNat → y < g.height.toNat → pixelAt g m x y = screenPixel g cells x y

section pixels

variable {g : Screen} {cells cells' : Cells} {m : Memory} {x y : Nat}

theorem toNat_ofNat_of_lt_toNat {n : Nat} {bound : UInt64} (h : n < bound.toNat) :
    (UInt64.ofNat n).toNat = n := UInt64.toNat_ofNat_of_lt (Nat.lt_trans h bound.toNat_lt)

/-- Below a glyph and its shadow there is background. -/
theorem cellPixel_gap (g : Screen) (c : UInt8) {dx dy : Nat} (h : 18 ≤ dy) :
    cellPixel g c dx dy = g.background := by
  have hglyph : ¬ InGlyph c dx dy := fun hin => by
    have hbottom := hin.2.2.2.1
    omega
  have hshadow : ¬ (1 ≤ dx ∧ 1 ≤ dy ∧ InGlyph c (dx - 1) (dy - 1)) := fun hin => by
    have hbottom := hin.2.2.2.2.2.1
    omega
  unfold cellPixel
  rw [if_neg hglyph, if_neg hshadow]

theorem not_inGlyph_blank (dx dy : Nat) : ¬ InGlyph blank dx dy := by
  rintro ⟨hleft, hright, htop, hbottom, hbit⟩
  have hblank : glyphBit 32 ((dy - 3) / 2) ((dx - 2) / 2) = false :=
    glyphBit_blank (by omega) (by omega)
  rw [show blank = 32 from rfl, hblank] at hbit
  cases hbit

theorem cellPixel_blank (g : Screen) (dx dy : Nat) : cellPixel g blank dx dy = g.background := by
  unfold cellPixel
  rw [if_neg (not_inGlyph_blank dx dy), if_neg fun h => not_inGlyph_blank _ _ h.2.2]

/-- The screen shows the cells of the text area only. -/
theorem Displays.congr (h : Displays g cells m)
    (hcells : ∀ r < g.consoleRows, ∀ c < g.consoleVisibleColumns, cells' r c = cells r c) :
    Displays g cells' m := by
  intro x y hx hy
  rw [h x y hx hy]
  unfold screenPixel
  split
  · next harea =>
    obtain ⟨_, _, hcolumn, hrow⟩ := harea
    rw [hcells]
    · rw [UInt64.lt_iff_toNat_lt, toNat_ofNat_of_lt_toNat hrow]
      exact hrow
    · rw [UInt64.lt_iff_toNat_lt, toNat_ofNat_of_lt_toNat hcolumn]
      exact hcolumn
  · rfl

/-- A cell in memory. -/
theorem pixelAt_drawCell (hx : x < g.width.toNat) (hy : y < g.height.toNat) (ch : UInt8)
    (row column : Nat) :
    pixelAt g (drawCell g m ch row column) x y =
      if g.consoleOriginX.toNat + column * 14 ≤ x ∧ x < g.consoleOriginX.toNat + column * 14 + 14 ∧
          g.consoleOriginY.toNat + row * 22 ≤ y ∧ y < g.consoleOriginY.toNat + row * 22 + 20 then
        cellPixel g ch (x - (g.consoleOriginX.toNat + column * 14))
          (y - (g.consoleOriginY.toNat + row * 22))
      else pixelAt g m x y := by
  have hwidth : consoleCellWidth.toNat = 14 := rfl
  have hheight : consoleCellHeight.toNat = 20 := rfl
  have hstep : consoleLineStep.toNat = 22 := rfl
  unfold drawCell
  rw [hwidth, hstep]
  dsimp only
  by_cases hblank : ch = blank
  · subst hblank
    unfold clearConsoleCell
    rw [if_pos rfl, pixelAt_fillRect hx hy, hwidth, hheight]
    simp only [cellPixel_blank]
  · rw [if_neg hblank, pixelAt_drawConsoleChar hx hy]

/-- A cell is drawn. -/
theorem Displays.cell (h : Displays g cells m) (ch : UInt8) {row column : UInt64}
    (hrow : row < g.consoleRows) (hcolumn : column < g.consoleVisibleColumns) :
    Displays g (fun r c => if r = row ∧ c = column then ch else cells r c)
      (drawCell g m ch row.toNat column.toNat) := by
  intro x y hx hy
  rw [UInt64.lt_iff_toNat_lt] at hrow hcolumn
  rw [pixelAt_drawCell hx hy, h x y hx hy]
  unfold screenPixel
  by_cases harea : g.consoleOriginX.toNat ≤ x ∧ g.consoleOriginY.toNat ≤ y ∧
      (x - g.consoleOriginX.toNat) / 14 < g.consoleVisibleColumns.toNat ∧
      (y - g.consoleOriginY.toNat) / 22 < g.consoleRows.toNat
  · rw [if_pos harea, if_pos harea]
    have hr : UInt64.ofNat ((y - g.consoleOriginY.toNat) / 22) = row ↔
        (y - g.consoleOriginY.toNat) / 22 = row.toNat := by
      rw [← UInt64.toNat_inj, toNat_ofNat_of_lt_toNat harea.2.2.2]
    have hc : UInt64.ofNat ((x - g.consoleOriginX.toNat) / 14) = column ↔
        (x - g.consoleOriginX.toNat) / 14 = column.toNat := by
      rw [← UInt64.toNat_inj, toNat_ofNat_of_lt_toNat harea.2.2.1]
    dsimp only
    simp only [hr, hc]
    by_cases hcell : (y - g.consoleOriginY.toNat) / 22 = row.toNat ∧
        (x - g.consoleOriginX.toNat) / 14 = column.toNat
    · rw [if_pos hcell]
      by_cases hglyph : y < g.consoleOriginY.toNat + row.toNat * 22 + 20
      · rw [if_pos (by omega)]
        congr 1
        · omega
        · omega
      · -- the gap below the cell
        rw [if_neg (by omega), cellPixel_gap g _ (by omega), cellPixel_gap g _ (by omega)]
    · rw [if_neg hcell, if_neg (by omega)]
  · rw [if_neg harea, if_neg harea, if_neg (by omega)]

/-- The screen is cleared. -/
theorem displays_clear (g : Screen) (m : Memory) :
    Displays g (fun _ _ => blank) (fillRect g m 0 0 g.width.toNat g.height.toNat g.background) := by
  intro x y hx hy
  rw [pixelAt_fillRect hx hy, if_pos (by omega)]
  unfold screenPixel
  split
  · exact (cellPixel_blank g _ _).symm
  · rfl

/-- The text area is filled with the background. -/
theorem Displays.fill (h : Displays g cells m) :
    Displays g (fun _ _ => blank)
      (fillRect g m g.consoleOriginX.toNat g.consoleOriginY.toNat
        (g.width.toNat - g.consoleOriginX.toNat) (g.height.toNat - g.consoleOriginY.toNat)
        g.background) := by
  intro x y hx hy
  rw [pixelAt_fillRect hx hy]
  have hblank : screenPixel g (fun _ _ => blank) x y = g.background := by
    unfold screenPixel
    split
    · exact cellPixel_blank g _ _
    · rfl
  rw [hblank]
  by_cases harea : g.consoleOriginX.toNat ≤ x ∧ g.consoleOriginY.toNat ≤ y
  · rw [if_pos (by omega)]
  · -- outside the text area there was background before
    rw [if_neg (by omega), h x y hx hy]
    unfold screenPixel
    rw [if_neg (by omega)]

/-- The characters of some cells over blanks. -/
def cellsOver (chars : Cells) (places : List (UInt64 × UInt64)) : Cells :=
  fun r c => if (r, c) ∈ places then chars r c else blank

/-- The cells of the loops of `render_console`. -/
def areaPlaces (fb : Framebuffer) : List (UInt64 × UInt64) :=
  (List.range fb.consoleRows.toNat).flatMap fun row =>
    (List.range fb.consoleVisibleColumns.toNat).map fun column =>
      (UInt64.ofNat row, UInt64.ofNat column)

theorem mem_areaPlaces {fb : Framebuffer} {r c : UInt64} :
    (r, c) ∈ areaPlaces fb ↔ r < fb.consoleRows ∧ c < fb.consoleVisibleColumns := by
  unfold areaPlaces
  simp only [List.mem_flatMap, List.mem_map, List.mem_range, Prod.mk.injEq, UInt64.lt_iff_toNat_lt]
  constructor
  · rintro ⟨row, hrow, column, hcolumn, rfl, rfl⟩
    rw [toNat_ofNat_of_lt_toNat hrow, toNat_ofNat_of_lt_toNat hcolumn]
    exact ⟨hrow, hcolumn⟩
  · rintro ⟨hr, hc⟩
    exact ⟨r.toNat, hr, c.toNat, hc, UInt64.ofNat_toNat, UInt64.ofNat_toNat⟩

/-- One round of the loops of `render_console`. -/
def drawPlace (g : Screen) (chars : Cells) (m : Memory) (place : UInt64 × UInt64) : Memory :=
  if chars place.1 place.2 ≠ blank then
    drawCell g m (chars place.1 place.2) place.1.toNat place.2.toNat
  else m

theorem drawChars_eq (g : Screen) (m : Memory) (chars : Cells) :
    drawChars g m chars = (areaPlaces g.toFramebuffer).foldl (drawPlace g chars) m := by
  unfold drawChars areaPlaces
  rw [List.foldl_flatMap]
  apply List.foldl_ext
  intro m row hrow
  rw [List.foldl_map]
  apply List.foldl_ext
  intro m column hcolumn
  unfold drawPlace drawCell
  dsimp only
  rw [toNat_ofNat_of_lt_toNat (List.mem_range.mp hrow), toNat_ofNat_of_lt_toNat (List.mem_range.mp hcolumn)]
  by_cases hblank : chars (UInt64.ofNat row) (UInt64.ofNat column) = blank
  · simp [hblank]
  · simp [hblank]

/-- The characters are drawn one after the other. -/
theorem Displays.places (h : Displays g (fun _ _ => blank) m) (chars : Cells)
    {places : List (UInt64 × UInt64)} (hplaces : ∀ p ∈ places, p ∈ areaPlaces g.toFramebuffer) :
    Displays g (cellsOver chars places) (places.foldl (drawPlace g chars) m) := by
  induction places using List.reverseRecOn with
  | nil => exact h
  | append_singleton places p ih =>
    have hrest := ih fun q hq => hplaces q (List.mem_append_left _ hq)
    obtain ⟨hrow, hcolumn⟩ := mem_areaPlaces.mp (hplaces p (by simp))
    rw [List.foldl_append, List.foldl_cons, List.foldl_nil]
    unfold drawPlace
    by_cases hblank : chars p.1 p.2 = blank
    · rw [if_neg (not_not.mpr hblank)]
      apply hrest.congr
      intro r _ c _
      unfold cellsOver
      by_cases hp : (r, c) = p
      · subst hp
        simp [hblank]
      · simp [hp]
    · rw [if_pos hblank]
      apply (hrest.cell (chars p.1 p.2) hrow hcolumn).congr
      intro r _ c _
      unfold cellsOver
      by_cases hp : (r, c) = p
      · subst hp
        simp
      · have hnot : ¬ (r = p.1 ∧ c = p.2) := fun heq => hp (Prod.ext heq.1 heq.2)
        simp [hp, hnot]

/-- The origin is in the upper half, and the text rows end on the screen or there are none. -/
theorem scrolls_iff (g : Screen) :
    (g.consoleOriginY + g.consoleRows * consoleLineStep ≤ g.consoleOriginY + consoleLineStep) ↔
      g.bottomY ≤ g.consoleOriginY.toNat + 22 := by
  have hstep : consoleLineStep.toNat = 22 := rfl
  have horigin : g.consoleOriginY.toNat < 2 ^ 63 := by
    have hheight := g.height.toNat_lt
    unfold Framebuffer.consoleOriginY
    split
    · decide
    dsimp only
    split
    · decide
    · rw [UInt64.toNat_div]
      have hlt := (g.height - (g.height - consoleVerticalMarginMin * 2) / consoleLineStep *
        consoleLineStep).toNat_lt
      show _ / 2 < _
      omega
  have hbottom : g.bottomY < 2 ^ 64 := by
    by_cases hrows : g.consoleRows = 0
    · unfold Screen.bottomY
      rw [hrows]
      show _ + 0 * _ < _
      omega
    · exact Nat.lt_of_le_of_lt (bottomY_le hrows) g.height.toNat_lt
  unfold Screen.bottomY at hbottom ⊢
  rw [hstep] at hbottom ⊢
  have hrows : g.consoleRows.toNat * 22 < 2 ^ 64 := by omega
  have hnext : g.consoleOriginY.toNat + 22 < 2 ^ 64 := by omega
  rw [UInt64.le_iff_toNat_le, UInt64.toNat_add, UInt64.toNat_add, UInt64.toNat_mul, hstep,
    Nat.mod_eq_of_lt hrows, Nat.mod_eq_of_lt hbottom, Nat.mod_eq_of_lt hnext]

/-- The text area moves up. -/
theorem Displays.scroll (h : Displays g cells m) :
    Displays g (Drawing.scroll.onCells g.toFramebuffer cells) (scrollPixels g m) := by
  have hiff := scrolls_iff g
  simp only [Drawing.onCells]
  by_cases hstays : g.bottomY ≤ g.consoleOriginY.toNat + 22
  · have hsame : scrollPixels g m = m := if_pos hstays
    rw [if_pos (hiff.mpr hstays), hsame]
    exact h
  rw [if_neg (mt hiff.mp hstays)]
  have hend : g.bottomY = g.consoleOriginY.toNat + g.consoleRows.toNat * 22 := rfl
  have hrows : g.consoleRows ≠ 0 := by
    intro hzero
    rw [hzero] at hend
    have hzero : (0 : UInt64).toNat * 22 = 0 := rfl
    omega
  have hbottom := bottomY_le hrows
  intro x y hx hy
  rw [pixelAt_scrollPixels hx hy (by omega)]
  by_cases harea : g.consoleOriginX.toNat ≤ x ∧ g.consoleOriginY.toNat ≤ y ∧ y < g.bottomY
  · rw [if_pos harea]
    obtain ⟨hleft, htop, hlow⟩ := harea
    have hrow : (y - g.consoleOriginY.toNat) / 22 < g.consoleRows.toNat := by omega
    have hnat := toNat_ofNat_of_lt_toNat hrow
    have hmax := g.consoleRows.toNat_lt
    have hsucc : (UInt64.ofNat ((y - g.consoleOriginY.toNat) / 22) + 1).toNat =
        (y - g.consoleOriginY.toNat) / 22 + 1 := by
      rw [UInt64.toNat_add, hnat]
      exact Nat.mod_eq_of_lt (show (y - g.consoleOriginY.toNat) / 22 + 1 < 2 ^ 64 by omega)
    by_cases hlast : y + 22 < g.bottomY
    · -- the pixel comes from the row below
      have hdiv : (y + 22 - g.consoleOriginY.toNat) / 22 = (y - g.consoleOriginY.toNat) / 22 + 1 := by omega
      have hmod : (y + 22 - g.consoleOriginY.toNat) % 22 = (y - g.consoleOriginY.toNat) % 22 := by omega
      have hbelow : UInt64.ofNat ((y - g.consoleOriginY.toNat) / 22) + 1 < g.consoleRows := by
        rw [UInt64.lt_iff_toNat_lt, hsucc]
        omega
      have hofNat : UInt64.ofNat ((y - g.consoleOriginY.toNat) / 22 + 1) =
          UInt64.ofNat ((y - g.consoleOriginY.toNat) / 22) + 1 := by
        rw [← hsucc, UInt64.ofNat_toNat]
      rw [if_pos hlast, h x (y + 22) hx (by omega)]
      unfold screenPixel
      dsimp only
      rw [hdiv, hmod, hofNat, if_pos hbelow]
      by_cases hcolumn : (x - g.consoleOriginX.toNat) / 14 < g.consoleVisibleColumns.toNat
      · rw [if_pos (by omega), if_pos (by omega)]
      · rw [if_neg (fun hall => hcolumn hall.2.2.1), if_neg (fun hall => hcolumn hall.2.2.1)]
    · -- the last row is blank
      have hbelow : UInt64.ofNat ((y - g.consoleOriginY.toNat) / 22) + 1 = g.consoleRows := by
        rw [← UInt64.toNat_inj, hsucc]
        omega
      rw [if_neg hlast]
      unfold screenPixel
      dsimp only
      rw [hbelow, if_neg (UInt64.lt_irrefl _), if_pos rfl, cellPixel_blank]
      split
      · rfl
      · rfl
  · rw [if_neg harea, h x y hx hy]
    unfold screenPixel
    rw [if_neg (by omega), if_neg (by omega)]

/-- **A drawing** keeps the pixels those of the cells. -/
theorem Displays.draw (h : Displays g cells m) {d : Drawing} (hd : d.Fits g.toFramebuffer) :
    Displays g (d.onCells g.toFramebuffer cells) (d.onPixels g m) := by
  cases d with
  | cell ch row column => exact h.cell ch hd.1 hd.2
  | view chars =>
    show Displays g _ (drawChars g _ chars)
    rw [drawChars_eq]
    apply (h.fill.places chars fun p hp => hp).congr
    intro r hr c hc
    unfold cellsOver Drawing.onCells
    rw [if_pos (mem_areaPlaces.mpr ⟨hr, hc⟩)]
    exact if_pos ⟨hr, hc⟩
  | scroll => exact h.scroll
  | clear => exact displays_clear g m

theorem outside_drawCell (g : Screen) (m : Memory) (ch : UInt8) (row column : Nat) :
    Outside g m (drawCell g m ch row column) := by
  unfold drawCell
  dsimp only
  split
  · exact outside_fillRect g m _ _ _ _ _
  · exact outside_drawConsoleChar g m ch _ _

theorem outside_drawChars (g : Screen) (m : Memory) (chars : Cells) :
    Outside g m (drawChars g m chars) := by
  rw [drawChars_eq]
  generalize areaPlaces g.toFramebuffer = places
  induction places generalizing m with
  | nil => exact fun _ _ => rfl
  | cons p places ih =>
    refine Outside.trans (?_ : Outside g m (drawPlace g chars m p)) (ih _)
    unfold drawPlace
    split
    · exact outside_drawCell g m _ _ _
    · exact fun _ _ => rfl

/-- A drawing writes inside the frame buffer. -/
theorem outside_draw (g : Screen) (m : Memory) (d : Drawing) : Outside g m (d.onPixels g m) := by
  cases d with
  | cell ch row column => exact outside_drawCell g m ch _ _
  | view chars => exact (outside_fillRect g m _ _ _ _ _).trans (outside_drawChars g _ chars)
  | scroll => exact outside_scrollPixels g m
  | clear => exact outside_fillRect g m _ _ _ _ _

/-! ## Runs -/

/-- Drawings keep the pixels those of the cells. -/
theorem Displays.draws (h : Displays g cells m) {ds : List Drawing}
    (hds : Draws g.toFramebuffer ds cells cells') :
    Displays g cells' (drawnPixels g m ds) ∧ Outside g m (drawnPixels g m ds) := by
  obtain ⟨rfl, hfits⟩ := hds
  induction ds generalizing cells m with
  | nil => exact ⟨h, fun _ _ => rfl⟩
  | cons d ds ih =>
    have hfirst := h.draw (hfits d List.mem_cons_self)
    obtain ⟨hrest, houtside⟩ := ih hfirst fun d' hd' => hfits d' (List.mem_cons_of_mem d hd')
    exact ⟨hrest, (outside_draw g m d).trans houtside⟩

/-- `scdk_fb_text_clear` -/
def fbTextClearDrawings : List Drawing := [.clear]

/-- **Pixels.**  On every screen, after it was cleared and after any calls that write text
    and scroll, each pixel in memory is that of the character that the grid of cells has
    there: of its glyph, of the shadow of its glyph, or of the background.  Memory outside
    the frame buffer is as it was. -/
theorem pixels_show_cells (g : Screen) (s : TextConsole) (m : Memory) (calls : List Call) :
    let t := (s.fbTextClear g.toFramebuffer).2
    let ds := fbTextClearDrawings ++ runDrawings g.toFramebuffer t calls
    (∀ x y, x < g.width.toNat → y < g.height.toNat →
      pixelAt g (drawnPixels g m ds) x y =
        screenPixel g (t.performAll g.toFramebuffer calls).cells x y) ∧
      Outside g m (drawnPixels g m ds) := by
  intro t ds
  have hcells : t.cells = fun _ _ => blank := by
    simp only [t, fbTextClear, if_neg (not_not.mpr g.depth)]
    rfl
  have hclear : Displays g t.cells (drawnPixels g m fbTextClearDrawings) := by
    rw [hcells]
    exact displays_clear g m
  have hfirst : Outside g m (drawnPixels g m fbTextClearDrawings) := outside_draw g m .clear
  obtain ⟨hrun, houtside⟩ := hclear.draws (draws_performAll t calls)
  have hsplit : drawnPixels g m ds =
      drawnPixels g (drawnPixels g m fbTextClearDrawings) (runDrawings g.toFramebuffer t calls) :=
    List.foldl_append
  rw [hsplit]
  exact ⟨hrun, hfirst.trans houtside⟩

/-- There are such screens. -/
example : ∃ g : Screen, g.toFramebuffer = TextConsole.vga :=
  ⟨⟨TextConsole.vga, 0xfd000000, 2560, ⟨8, 16, 8, 8, 8, 0⟩, rfl, by decide, by decide, by decide⟩, rfl⟩

end pixels

end Scdk
