import Scdk.Mm.Initrd

/-! # The text console

    Model of the text console of `arch/x86_64/framebuffer.c`: a history of 256 lines
    in a ring of rows, of which a window of text rows is on the screen.

    The screen is a grid of text cells, each with the character it shows.  A cell is
    wide and high enough for its glyph, so drawing a character changes the pixels of
    one cell only.

    * `Framebuffer`: the geometry,
    * `TextConsole`: the statics and the cells,
    * `renderConsole`, `scrollConsolePixelsUp`, `drawHistoryCell`: drawing,
    * `fbTextPutchar`, `fbTextWrite`, `fbTextClear`, `fbTextScroll`: the calls. -/

namespace Scdk

/-! ## Geometry -/

/-- The fields of `struct limine_framebuffer` that the console reads. -/
structure Framebuffer where
  width : UInt64
  height : UInt64
  bpp : UInt16
  deriving DecidableEq, Repr

/-- `CONSOLE_HISTORY_ROWS` -/
def consoleHistoryRows : UInt64 := 256

/-- `CONSOLE_MAX_COLUMNS` -/
def consoleMaxColumns : UInt64 := 160

/-- `CONSOLE_VERTICAL_MARGIN_MIN` -/
def consoleVerticalMarginMin : UInt64 := 8

/-- `console_cell_width` -/
def consoleCellWidth : UInt64 := 14

/-- `console_cell_height` -/
def consoleCellHeight : UInt64 := 20

/-- `console_line_step` -/
def consoleLineStep : UInt64 := consoleCellHeight + 2

namespace Framebuffer

/-- `console_origin_x` -/
def consoleOriginX (fb : Framebuffer) : UInt64 := if fb.width < 64 then 4 else fb.width / 32

/-- `console_origin_y` -/
def consoleOriginY (fb : Framebuffer) : UInt64 :=
  if fb.height ≤ consoleCellHeight + consoleVerticalMarginMin * 2 then 4
  else
    let rows := (fb.height - consoleVerticalMarginMin * 2) / consoleLineStep
    if rows = 0 then 4 else (fb.height - rows * consoleLineStep) / 2

/-- `console_columns` -/
def consoleColumns (fb : Framebuffer) : UInt64 :=
  if fb.width ≤ fb.consoleOriginX then 0 else (fb.width - fb.consoleOriginX) / consoleCellWidth

/-- `console_visible_columns` -/
def consoleVisibleColumns (fb : Framebuffer) : UInt64 :=
  if consoleMaxColumns < fb.consoleColumns then consoleMaxColumns else fb.consoleColumns

/-- `console_rows` -/
def consoleRows (fb : Framebuffer) : UInt64 :=
  if fb.height ≤ fb.consoleOriginY then 0 else (fb.height - fb.consoleOriginY) / consoleLineStep

end Framebuffer

/-! ## State -/

/-- `' '` -/
def blank : UInt8 := 32

/-- The statics of the console, and the cells of the screen by row and column.
    `history` is indexed as the array is: a line by its row, which is the line modulo
    `consoleHistoryRows`. -/
structure TextConsole where
  history : UInt64 → UInt64 → UInt8
  cursorColumn : UInt64
  currentLine : UInt64
  viewTopLine : UInt64
  cursorReady : Bool
  cells : UInt64 → UInt64 → UInt8

namespace TextConsole

/-- A character of the history. -/
def setHistory (s : TextConsole) (line column : UInt64) (ch : UInt8) : TextConsole :=
  { s with history := fun row col =>
      if row = line % consoleHistoryRows ∧ col = column then ch else s.history row col }

/-- `clear_history_row` -/
def clearHistoryRow (s : TextConsole) (line : UInt64) : TextConsole :=
  { s with history := fun row col =>
      if row = line % consoleHistoryRows ∧ col < consoleMaxColumns then blank else s.history row col }

/-- The loop over all rows of the history in `scdk_fb_text_clear` and
    `ensure_console_cursor`. -/
def clearHistory (s : TextConsole) : TextConsole :=
  { s with history := fun row col =>
      if row < consoleHistoryRows ∧ col < consoleMaxColumns then blank else s.history row col }

/-- `oldest_history_line` -/
def oldestHistoryLine (s : TextConsole) : UInt64 :=
  if consoleHistoryRows < s.currentLine + 1 then s.currentLine + 1 - consoleHistoryRows else 0

/-- `bottom_view_top_line` -/
def bottomViewTopLine (fb : Framebuffer) (s : TextConsole) : UInt64 :=
  if fb.consoleRows = 0 ∨ s.currentLine + 1 ≤ fb.consoleRows then 0
  else s.currentLine + 1 - fb.consoleRows

/-- `view_is_at_bottom` -/
def viewIsAtBottom (fb : Framebuffer) (s : TextConsole) : Bool :=
  s.bottomViewTopLine fb ≤ s.viewTopLine

/-- `clamp_console_view` -/
def clampConsoleView (fb : Framebuffer) (s : TextConsole) : TextConsole :=
  let top := if s.viewTopLine < s.oldestHistoryLine then s.oldestHistoryLine else s.viewTopLine
  { s with viewTopLine := if s.bottomViewTopLine fb < top then s.bottomViewTopLine fb else top }

/-- `history_line_visible`: the row of a line on the screen. -/
def historyLineVisible (fb : Framebuffer) (s : TextConsole) (line : UInt64) : Option UInt64 :=
  if line < s.viewTopLine ∨ s.viewTopLine + fb.consoleRows ≤ line then none
  else some (line - s.viewTopLine)

/-- `history_char_at` -/
def historyCharAt (s : TextConsole) (line column : UInt64) : UInt8 :=
  if consoleMaxColumns ≤ column ∨ line < s.oldestHistoryLine ∨ s.currentLine < line then blank
  else s.history (line % consoleHistoryRows) column

/-- `update_console_cursor_pixels`; the position of the cursor in pixels is left out. -/
def updateConsoleCursorPixels (fb : Framebuffer) (s : TextConsole) : TextConsole :=
  { s with cursorColumn :=
      if fb.consoleVisibleColumns ≠ 0 ∧ fb.consoleVisibleColumns < s.cursorColumn then
        fb.consoleVisibleColumns
      else s.cursorColumn }

/-! ## Drawing -/

/-- `draw_console_char` and `clear_console_cell`: a blank is a cleared cell. -/
def drawConsoleChar (s : TextConsole) (ch : UInt8) (row column : UInt64) : TextConsole :=
  { s with cells := fun r c => if r = row ∧ c = column then ch else s.cells r c }

/-- `draw_history_cell` -/
def drawHistoryCell (fb : Framebuffer) (s : TextConsole) (line column : UInt64) : TextConsole :=
  match s.historyLineVisible fb line with
  | none => s
  | some row =>
    if fb.consoleVisibleColumns ≤ column then s
    else s.drawConsoleChar (s.historyCharAt line column) row column

/-- The part of `render_console` that draws: the whole text area is filled with the
    background, and each character of the history that is not blank is drawn. -/
def drawHistory (fb : Framebuffer) (s : TextConsole) : TextConsole :=
  { s with cells := fun r c =>
      if r < fb.consoleRows ∧ c < fb.consoleVisibleColumns then s.historyCharAt (s.viewTopLine + r) c
      else blank }

/-- `render_console` -/
def renderConsole (fb : Framebuffer) (s : TextConsole) : TextConsole :=
  if fb.bpp ≠ 32 then s
  else if fb.height ≤ fb.consoleOriginY ∨ fb.width ≤ fb.consoleOriginX then s
  else ((s.clampConsoleView fb).drawHistory fb).updateConsoleCursorPixels fb

/-- `scroll_console_pixels_up`: the rows of pixels above the last line step get those
    one line step below, and the last line step is filled with the background. -/
def scrollConsolePixelsUp (fb : Framebuffer) (s : TextConsole) : TextConsole :=
  let bottomY := fb.consoleOriginY + fb.consoleRows * consoleLineStep
  if bottomY ≤ fb.consoleOriginY + consoleLineStep then s
  else
    { s with cells := fun r c =>
        if r + 1 < fb.consoleRows then s.cells (r + 1) c
        else if r + 1 = fb.consoleRows then blank
        else s.cells r c }

/-! ## Characters -/

/-- `console_newline` -/
def consoleNewline (fb : Framebuffer) (s : TextConsole) : TextConsole :=
  let follow := s.viewIsAtBottom fb
  let oldTop := s.viewTopLine
  let s := { s with currentLine := s.currentLine + 1, cursorColumn := 0 }
  let s := s.clearHistoryRow s.currentLine
  let s := if follow = true then { s with viewTopLine := s.bottomViewTopLine fb } else s
  let s := s.clampConsoleView fb
  if follow = true ∧ s.viewTopLine = oldTop + 1 then
    (s.scrollConsolePixelsUp fb).updateConsoleCursorPixels fb
  else if s.viewTopLine ≠ oldTop then s.renderConsole fb
  else s.updateConsoleCursorPixels fb

/-- `console_carriage_return` -/
def consoleCarriageReturn (fb : Framebuffer) (s : TextConsole) : TextConsole :=
  { s with cursorColumn := 0 }.updateConsoleCursorPixels fb

/-- `console_backspace` -/
def consoleBackspace (fb : Framebuffer) (s : TextConsole) : TextConsole :=
  if s.cursorColumn = 0 then s
  else
    let s := { s with cursorColumn := s.cursorColumn - 1 }
    let s := s.setHistory s.currentLine s.cursorColumn blank
    (s.drawHistoryCell fb s.currentLine s.cursorColumn).updateConsoleCursorPixels fb

/-- `ensure_console_cursor` -/
def ensureConsoleCursor (fb : Framebuffer) (s : TextConsole) : TextConsole :=
  if s.cursorReady = true then s
  else
    { s.clearHistory with cursorColumn := 0, currentLine := 0, viewTopLine := 0, cursorReady := true }
      |>.updateConsoleCursorPixels fb

/-- The end of `scdk_fb_text_putchar`: a character that is no control character. -/
def putGlyph (fb : Framebuffer) (s : TextConsole) (ch : UInt8) : Except Err Unit × TextConsole :=
  if fb.consoleVisibleColumns = 0 then (.error .notsup, s)
  else
    let s := if fb.consoleVisibleColumns ≤ s.cursorColumn then s.consoleNewline fb else s
    let follow := s.viewIsAtBottom fb
    let oldTop := s.viewTopLine
    let s := s.setHistory s.currentLine s.cursorColumn ch
    let s := if follow = true then { s with viewTopLine := s.bottomViewTopLine fb } else s
    let s := s.clampConsoleView fb
    let s := if s.viewTopLine ≠ oldTop then s.renderConsole fb
      else s.drawHistoryCell fb s.currentLine s.cursorColumn
    (.ok (), { s with cursorColumn := s.cursorColumn + 1 }.updateConsoleCursorPixels fb)

/-- `scdk_fb_text_putchar` for a character other than a tab. -/
def putcharNoTab (fb : Framebuffer) (s : TextConsole) (ch : UInt8) : Except Err Unit × TextConsole :=
  if fb.bpp ≠ 32 then (.error .notsup, s)
  else
    let s := s.ensureConsoleCursor fb
    if ch = 10 then (.ok (), s.consoleNewline fb)
    else if ch = 13 then (.ok (), s.consoleCarriageReturn fb)
    else if ch = 8 then (.ok (), s.consoleBackspace fb)
    else s.putGlyph fb ch

/-- The loop of `scdk_fb_text_putchar` for a tab, for at most so many rounds.  With
    four columns or more it ends in eight; with one to three columns that of the source
    does not end, and what is said of a screen there holds of texts without tabs only. -/
def tabLoop (fb : Framebuffer) : Nat → TextConsole → Except Err Unit × TextConsole
  | 0, s => (.ok (), s)
  | rounds + 1, s =>
    match s.putcharNoTab fb blank with
    | (.error e, s) => (.error e, s)
    | (.ok _, s) => if s.cursorColumn % 4 ≠ 0 then tabLoop fb rounds s else (.ok (), s)

/-- `scdk_fb_text_putchar` -/
def fbTextPutchar (fb : Framebuffer) (s : TextConsole) (ch : UInt8) :
    Except Err Unit × TextConsole :=
  if ch = 9 then
    if fb.bpp ≠ 32 then (.error .notsup, s) else tabLoop fb 8 (s.ensureConsoleCursor fb)
  else s.putcharNoTab fb ch

/-! ## Calls -/

/-- The loop of `scdk_fb_text_write`. -/
def writeLoop (fb : Framebuffer) : List UInt8 → TextConsole → Except Err Unit × TextConsole
  | [], s => (.ok (), s)
  | ch :: text, s =>
    match s.fbTextPutchar fb ch with
    | (.error e, s) => (.error e, s)
    | (.ok _, s) => writeLoop fb text s

/-- The characters that `scdk_fb_text_write` writes: with a length of zero, those up
    to the terminating zero. -/
def writtenText (buf : List UInt8) (len : UInt64) : List UInt8 :=
  if len = 0 then cString buf else buf.take len.toNat

/-- `scdk_fb_text_write`, with the bytes from `buf` on. -/
def fbTextWrite (fb : Framebuffer) (s : TextConsole) (buf : List UInt8) (len : UInt64) :
    Except Err Unit × TextConsole :=
  writeLoop fb (writtenText buf len) s

/-- `scdk_fb_text_clear` -/
def fbTextClear (fb : Framebuffer) (s : TextConsole) : Except Err Unit × TextConsole :=
  if fb.bpp ≠ 32 then (.error .notsup, s)
  else
    (.ok (), { s.clearHistory with
        cells := fun _ _ => blank
        cursorColumn := 0
        currentLine := 0
        viewTopLine := 0
        cursorReady := true }.updateConsoleCursorPixels fb)

/-- The view that `scdk_fb_text_scroll` asks for. -/
def scrolledTop (fb : Framebuffer) (s : TextConsole) (lines : Int32) : UInt64 :=
  let oldest := s.oldestHistoryLine
  let bottom := s.bottomViewTopLine fb
  let amount := UInt64.ofNat lines.toInt.natAbs
  if lines < 0 then
    if s.viewTopLine - oldest < amount then oldest else s.viewTopLine - amount
  else if bottom - s.viewTopLine < amount then bottom
  else s.viewTopLine + amount

/-- `scdk_fb_text_scroll` -/
def fbTextScroll (fb : Framebuffer) (s : TextConsole) (lines : Int32) :
    Except Err Unit × TextConsole :=
  if fb.bpp ≠ 32 then (.error .notsup, s)
  else
    let s := s.ensureConsoleCursor fb
    if lines = 0 then (.ok (), s)
    else
      let oldTop := s.viewTopLine
      let s := { s with viewTopLine := s.scrolledTop fb lines }.clampConsoleView fb
      (.ok (), if s.viewTopLine ≠ oldTop then s.renderConsole fb else s)

/-- A call of the console. -/
inductive Call where
  | write (buf : List UInt8) (len : UInt64)
  | scroll (lines : Int32)
  deriving Repr

/-- The call on a console. -/
def perform (fb : Framebuffer) (s : TextConsole) : Call → Except Err Unit × TextConsole
  | .write buf len => s.fbTextWrite fb buf len
  | .scroll lines => s.fbTextScroll fb lines

/-- The console after some calls, whatever they return. -/
def performAll (fb : Framebuffer) (s : TextConsole) (calls : List Call) : TextConsole :=
  calls.foldl (fun s call => (s.perform fb call).2) s

end TextConsole

end Scdk
