import Scdk.Arch.Framebuffer

/-! # The screen of the text console

    The calls of the console change the screen a cell or a row at a time.  This file
    proves that the screen is nevertheless always what drawing the whole view of the
    history gives.

    * `TextGeometry`: the screens that are considered,
    * `TextCursor`: line and column of the cursor after a text, as numbers,
    * `Shows`: the invariant; the view is within the history, and each cell shows the
      character of the history that belongs to it,
    * `Shows.newline`, `Shows.putGlyph`, …: each operation keeps it,
    * `screen_shows_history`: so it holds after any calls,
    * `screen_differs`: but not once the line counter has wrapped. -/

namespace Scdk

/-! ## Geometry -/

/-- A screen of 32 bits a pixel with at least four columns and 2 to 256 rows. -/
structure TextGeometry (fb : Framebuffer) : Prop where
  depth : fb.bpp = 32
  wide : 4 ≤ fb.consoleVisibleColumns.toNat
  high : 2 ≤ fb.consoleRows.toNat
  short : fb.consoleRows.toNat ≤ 256

namespace TextGeometry

variable {fb : Framebuffer} (h : TextGeometry fb)

theorem columns_le (fb : Framebuffer) : fb.consoleVisibleColumns.toNat ≤ 160 := by
  unfold Framebuffer.consoleVisibleColumns
  split
  · exact Nat.le_refl _
  · next hle =>
    rw [UInt64.not_lt, UInt64.le_iff_toNat_le] at hle
    exact hle

include h

theorem columns_ne : fb.consoleVisibleColumns ≠ 0 := by
  have hwide := h.wide
  intro hzero
  rw [hzero] at hwide
  simp at hwide

theorem rows_ne : fb.consoleRows ≠ 0 := by
  have hhigh := h.high
  intro hzero
  rw [hzero] at hhigh
  simp at hhigh

theorem originY_lt : ¬ fb.height ≤ fb.consoleOriginY := by
  have hrows := h.rows_ne
  intro hle
  unfold Framebuffer.consoleRows at hrows
  exact hrows (if_pos hle)

theorem originX_lt : ¬ fb.width ≤ fb.consoleOriginX := by
  have hcolumns := h.columns_ne
  intro hle
  have hzero : fb.consoleColumns = 0 := if_pos hle
  unfold Framebuffer.consoleVisibleColumns at hcolumns
  rw [hzero] at hcolumns
  exact hcolumns (if_neg (by decide))

/-- There is a row of pixels to move. -/
theorem scrolls : ¬ fb.consoleOriginY + fb.consoleRows * consoleLineStep ≤
    fb.consoleOriginY + consoleLineStep := by
  have hstep : consoleLineStep.toNat = 22 := rfl
  have hheight := fb.height.toNat_lt
  have hhigh := h.high
  have horigin := h.originY_lt
  have hrows : fb.consoleRows.toNat = (fb.height.toNat - fb.consoleOriginY.toNat) / 22 := by
    unfold Framebuffer.consoleRows
    rw [if_neg horigin, UInt64.toNat_div,
      UInt64.toNat_sub_of_le _ _ (UInt64.le_of_lt (UInt64.not_le.mp horigin)), hstep]
  rw [UInt64.le_iff_toNat_le] at horigin ⊢
  rw [UInt64.toNat_add, UInt64.toNat_add, UInt64.toNat_mul, hstep]
  omega

end TextGeometry

/-! ## The cursor -/

/-- Line and column of the cursor. -/
structure TextCursor where
  line : Nat
  column : Nat
  deriving DecidableEq, Repr

namespace TextCursor

/-- Behind a character, on the next line if this one is full. -/
def put (columns : Nat) (p : TextCursor) : TextCursor :=
  if columns ≤ p.column then ⟨p.line + 1, 1⟩ else ⟨p.line, p.column + 1⟩

/-- Behind blanks up to a column that is a multiple of four. -/
def tab (columns : Nat) : Nat → TextCursor → TextCursor
  | 0, p => p
  | rounds + 1, p =>
    if (p.put columns).column % 4 ≠ 0 then tab columns rounds (p.put columns) else p.put columns

/-- Behind a character of a text. -/
def step (columns : Nat) (p : TextCursor) (ch : UInt8) : TextCursor :=
  if ch = 9 then tab columns 8 p
  else if ch = 10 then ⟨p.line + 1, 0⟩
  else if ch = 13 then ⟨p.line, 0⟩
  else if ch = 8 then ⟨p.line, p.column - 1⟩
  else p.put columns

/-- Behind a text. -/
def after (columns : Nat) (p : TextCursor) (text : List UInt8) : TextCursor :=
  text.foldl (step columns) p

/-- The characters up to the column at which a tab ends. -/
def tabWidth (columns : Nat) (p : TextCursor) : Nat :=
  if 4 * (p.column / 4 + 1) ≤ columns then 4 * (p.column / 4 + 1) - p.column
  else columns - p.column + 4

/-- A tab ends at a multiple of four, if there are rounds enough. -/
theorem tab_ends {columns rounds : Nat} {p : TextCursor} (hwide : 4 ≤ columns)
    (hp : p.column ≤ columns) (hrounds : p.tabWidth columns ≤ rounds) :
    (p.tab columns rounds).column % 4 = 0 := by
  induction rounds generalizing p with
  | zero =>
    unfold tabWidth at hrounds
    split at hrounds <;> omega
  | succ rounds ih =>
    unfold tab
    split
    swap
    · next hend => exact not_not.mp hend
    next hmore =>
    unfold put at hmore ⊢
    -- A full line is left first, and the tab goes on in the next one.
    by_cases hfull : columns ≤ p.column
    · rw [if_pos hfull] at hmore ⊢
      apply ih (show 1 ≤ columns by omega)
      unfold tabWidth at hrounds ⊢
      split at hrounds <;> (dsimp only; split <;> omega)
    · rw [if_neg hfull] at hmore ⊢
      apply ih (show p.column + 1 ≤ columns by omega)
      unfold tabWidth at hrounds ⊢
      dsimp only at hmore ⊢
      split at hrounds <;> (split <;> omega)

theorem tabWidth_le (columns : Nat) (p : TextCursor) : p.tabWidth columns ≤ 8 := by
  unfold tabWidth
  split <;> omega

theorem line_le_put (columns : Nat) (p : TextCursor) : p.line ≤ (p.put columns).line := by
  unfold put
  split
  · exact Nat.le_succ _
  · exact Nat.le_refl _

theorem line_le_tab (columns rounds : Nat) (p : TextCursor) : p.line ≤ (tab columns rounds p).line := by
  induction rounds generalizing p with
  | zero => exact Nat.le_refl _
  | succ rounds ih =>
    unfold tab
    split
    · exact (p.line_le_put columns).trans (ih _)
    · exact p.line_le_put columns

theorem line_le_step (columns : Nat) (p : TextCursor) (ch : UInt8) :
    p.line ≤ (p.step columns ch).line := by
  unfold step
  split
  · exact line_le_tab columns 8 p
  split
  · exact Nat.le_succ _
  split
  · exact Nat.le_refl _
  split
  · exact Nat.le_refl _
  · exact p.line_le_put columns

/-- The line never goes back. -/
theorem line_le_after (columns : Nat) (p : TextCursor) (text : List UInt8) :
    p.line ≤ (p.after columns text).line := by
  induction text generalizing p with
  | nil => exact Nat.le_refl _
  | cons ch text ih => exact (p.line_le_step columns ch).trans (ih _)

end TextCursor

namespace TextConsole

variable {fb : Framebuffer} {s : TextConsole}

/-! ## Views -/

section

variable (hline : s.currentLine.toNat + 1 < 2 ^ 64)

include hline

theorem toNat_nextLine : (s.currentLine + 1).toNat = s.currentLine.toNat + 1 := by
  rw [UInt64.toNat_add]
  exact Nat.mod_eq_of_lt hline

theorem toNat_oldest : s.oldestHistoryLine.toNat = s.currentLine.toNat + 1 - 256 := by
  have hnext := toNat_nextLine hline
  have hrows : consoleHistoryRows.toNat = 256 := rfl
  unfold oldestHistoryLine
  split
  · next hlt =>
    rw [UInt64.toNat_sub_of_le _ _ (UInt64.le_of_lt hlt), hnext, hrows]
  · next hle =>
    rw [UInt64.lt_iff_toNat_lt, hnext, hrows] at hle
    change 0 = _
    omega

theorem toNat_bottom (hg : TextGeometry fb) :
    (s.bottomViewTopLine fb).toNat = s.currentLine.toNat + 1 - fb.consoleRows.toNat := by
  have hnext := toNat_nextLine hline
  unfold bottomViewTopLine
  split
  · next hle =>
    have hle := UInt64.le_iff_toNat_le.mp (hle.resolve_left hg.rows_ne)
    rw [hnext] at hle
    change 0 = _
    omega
  · next hlt =>
    rw [not_or, UInt64.not_le] at hlt
    rw [UInt64.toNat_sub_of_le _ _ (UInt64.le_of_lt hlt.2), hnext]

/-- A character of the history, with the lines as numbers. -/
theorem historyCharAt_eq (l c : UInt64) : s.historyCharAt l c =
    if 160 ≤ c.toNat ∨ l.toNat < s.currentLine.toNat + 1 - 256 ∨ s.currentLine.toNat < l.toNat then
      blank
    else s.history (l % consoleHistoryRows) c := by
  have hmax : consoleMaxColumns.toNat = 160 := rfl
  unfold historyCharAt
  simp only [UInt64.le_iff_toNat_le, UInt64.lt_iff_toNat_lt, toNat_oldest hline, hmax]

theorem toNat_clamp (hg : TextGeometry fb) : (s.clampConsoleView fb).viewTopLine.toNat =
    min (max s.viewTopLine.toNat (s.currentLine.toNat + 1 - 256))
      (s.currentLine.toNat + 1 - fb.consoleRows.toNat) := by
  have holdest := toNat_oldest hline
  have hbottom := toNat_bottom hline hg
  unfold clampConsoleView
  dsimp only
  simp only [UInt64.lt_iff_toNat_lt]
  split <;> split <;> omega

end

/-- The view is within the lines that the history has. -/
structure InView (fb : Framebuffer) (s : TextConsole) : Prop where
  line : s.currentLine.toNat + 1 < 2 ^ 64
  oldest : s.currentLine.toNat + 1 - 256 ≤ s.viewTopLine.toNat
  bottom : s.viewTopLine.toNat ≤ s.currentLine.toNat + 1 - fb.consoleRows.toNat

/-- Clamping sets the view and nothing else. -/
theorem clamp_sets (fb : Framebuffer) (s : TextConsole) :
    ∃ top, s.clampConsoleView fb = { s with viewTopLine := top } := ⟨_, rfl⟩

theorem clamp_inView (hg : TextGeometry fb) (hline : s.currentLine.toNat + 1 < 2 ^ 64) :
    InView fb (s.clampConsoleView fb) := by
  have htop := toNat_clamp hline hg
  have hshort := hg.short
  obtain ⟨top, hsets⟩ := clamp_sets fb s
  rw [hsets] at htop ⊢
  constructor
  · exact hline
  · rw [htop]
    dsimp only
    omega
  · rw [htop]
    exact Nat.min_le_right _ _

/-- Clamping a view that is in range changes nothing. -/
theorem InView.clamp (h : InView fb s) (hg : TextGeometry fb) : s.clampConsoleView fb = s := by
  have htop := toNat_clamp h.line hg
  have holdest := h.oldest
  have hbottom := h.bottom
  obtain ⟨top, hsets⟩ := clamp_sets fb s
  rw [hsets] at htop ⊢
  have hsame : top = s.viewTopLine := by
    apply UInt64.toNat_inj.mp
    dsimp only at htop
    omega
  rw [hsame]

/-- The view is at the bottom exactly if its last row is the current line, or all
    lines are in it. -/
theorem InView.atBottom (h : InView fb s) (hg : TextGeometry fb) : s.viewIsAtBottom fb = true ↔
    s.viewTopLine.toNat = s.currentLine.toNat + 1 - fb.consoleRows.toNat := by
  have hbottom := h.bottom
  unfold viewIsAtBottom
  rw [decide_eq_true_iff, UInt64.le_iff_toNat_le, toNat_bottom h.line hg]
  omega

theorem InView.follow (h : InView fb s) (hg : TextGeometry fb) (hfollow : s.viewIsAtBottom fb = true) :
    s.bottomViewTopLine fb = s.viewTopLine := by
  apply UInt64.toNat_inj.mp
  rw [toNat_bottom h.line hg]
  exact ((h.atBottom hg).mp hfollow).symm

/-- A line of the view, as a number. -/
theorem InView.toNat_row (h : InView fb s) (hg : TextGeometry fb) {r : UInt64}
    (hr : r.toNat < fb.consoleRows.toNat) :
    (s.viewTopLine + r).toNat = s.viewTopLine.toNat + r.toNat := by
  have hline := h.line
  have hbottom := h.bottom
  have hshort := hg.short
  rw [UInt64.toNat_add]
  exact Nat.mod_eq_of_lt (by omega)

/-! ## The invariant -/

/-- Each cell shows the character of the history that belongs to it. -/
def CellsShow (fb : Framebuffer) (s : TextConsole) : Prop :=
  ∀ r c : UInt64, r < fb.consoleRows → c < fb.consoleVisibleColumns →
    s.cells r c = s.historyCharAt (s.viewTopLine + r) c

/-- The console shows the history, with the cursor at `p`. -/
structure Shows (fb : Framebuffer) (s : TextConsole) (p : TextCursor) : Prop extends
    InView fb s where
  ready : s.cursorReady = true
  cursorLine : s.currentLine.toNat = p.line
  cursorColumn : s.cursorColumn.toNat = p.column
  inside : p.column ≤ fb.consoleVisibleColumns.toNat
  cells : CellsShow fb s

/-- Drawing the whole view. -/
theorem drawHistory_cell {r c : UInt64} (hr : r < fb.consoleRows) (hc : c < fb.consoleVisibleColumns) :
    (s.drawHistory fb).cells r c = s.historyCharAt (s.viewTopLine + r) c := by
  unfold drawHistory
  exact if_pos ⟨hr, hc⟩

theorem drawHistory_cells (fb : Framebuffer) (s : TextConsole) : CellsShow fb (s.drawHistory fb) := by
  intro r c hr hc
  exact drawHistory_cell hr hc

/-- The column of the cursor is not changed where it is on the screen. -/
theorem updateConsoleCursorPixels_eq (h : s.cursorColumn.toNat ≤ fb.consoleVisibleColumns.toNat) :
    s.updateConsoleCursorPixels fb = s := by
  have hnot : ¬ (fb.consoleVisibleColumns ≠ 0 ∧ fb.consoleVisibleColumns < s.cursorColumn) := by
    rintro ⟨_, hlt⟩
    rw [UInt64.lt_iff_toNat_lt] at hlt
    omega
  unfold updateConsoleCursorPixels
  rw [if_neg hnot]

/-- `render_console` on a view that is in range. -/
theorem renderConsole_eq (hg : TextGeometry fb) (h : InView fb s)
    (hcolumn : s.cursorColumn.toNat ≤ fb.consoleVisibleColumns.toNat) :
    s.renderConsole fb = s.drawHistory fb := by
  unfold renderConsole
  rw [if_neg (not_not.mpr hg.depth), if_neg (not_or.mpr ⟨hg.originY_lt, hg.originX_lt⟩), h.clamp hg]
  exact updateConsoleCursorPixels_eq hcolumn

/-! ## A new line -/

/-- The console after `console_newline` has cleared the row of the next line. -/
def freshLine (s : TextConsole) : TextConsole :=
  { s with currentLine := s.currentLine + 1, cursorColumn := 0 }.clearHistoryRow (s.currentLine + 1)

/-- It has then chosen the view. -/
def nextView (fb : Framebuffer) (s : TextConsole) : TextConsole :=
  { s.freshLine with
    viewTopLine := if s.viewIsAtBottom fb = true then s.freshLine.bottomViewTopLine fb
      else s.viewTopLine }.clampConsoleView fb

/-- What it draws. -/
def drawNextView (fb : Framebuffer) (s t : TextConsole) : TextConsole :=
  if s.viewIsAtBottom fb = true ∧ t.viewTopLine = s.viewTopLine + 1 then
    (t.scrollConsolePixelsUp fb).updateConsoleCursorPixels fb
  else if t.viewTopLine ≠ s.viewTopLine then t.renderConsole fb
  else t.updateConsoleCursorPixels fb

theorem consoleNewline_eq (fb : Framebuffer) (s : TextConsole) :
    s.consoleNewline fb = s.drawNextView fb (s.nextView fb) := by
  unfold consoleNewline nextView drawNextView
  cases s.viewIsAtBottom fb <;> rfl

/-- Two lines of the history with the same row are the same line. -/
theorem line_eq_of_row {a b : UInt64} {n : Nat} (h : a % consoleHistoryRows = b % consoleHistoryRows)
    (ha : a.toNat ≤ n ∧ n < a.toNat + 256) (hb : b.toNat ≤ n ∧ n < b.toNat + 256) :
    a.toNat = b.toNat := by
  have hmod := congrArg UInt64.toNat h
  have hrows : consoleHistoryRows.toNat = 256 := rfl
  rw [UInt64.toNat_mod, UInt64.toNat_mod, hrows] at hmod
  omega

/-- What the next line changes of the characters of the history is out of range: the
    row that is cleared belonged to a line that is no longer in the history. -/
theorem freshLine_char (hline : s.currentLine.toNat + 2 < 2 ^ 64) (l c : UInt64)
    (hl : s.currentLine.toNat + 2 - 256 ≤ l.toNat) :
    s.freshLine.historyCharAt l c = s.historyCharAt l c := by
  have hnext : s.freshLine.currentLine.toNat = s.currentLine.toNat + 1 :=
    toNat_nextLine (by omega)
  rw [historyCharAt_eq (by omega), historyCharAt_eq (by omega), hnext]
  by_cases hc : 160 ≤ c.toNat
  · rw [if_pos (.inl hc), if_pos (.inl hc)]
  by_cases hnew : s.currentLine.toNat < l.toNat
  · -- the next line is blank, and so are the lines behind it
    rw [if_pos (.inr (.inr hnew) : _ ∨ _ ∨ s.currentLine.toNat < l.toNat)]
    by_cases hlast : l.toNat = s.currentLine.toNat + 1
    · have hl' : l = s.currentLine + 1 := by
        apply UInt64.toNat_inj.mp
        rw [hlast, toNat_nextLine (by omega)]
      rw [if_neg (by omega), hl']
      exact if_pos ⟨rfl, by rw [UInt64.lt_iff_toNat_lt]; exact Nat.not_le.mp hc⟩
    · rw [if_pos (by omega)]
  · rw [if_neg (by omega), if_neg (by omega)]
    apply if_neg
    rintro ⟨hrow, _⟩
    have hnl := toNat_nextLine (s := s) (by omega)
    have heq := line_eq_of_row (n := s.currentLine.toNat + 1) hrow (by omega) (by omega)
    omega

/-- The console with the view for the next line, before anything is drawn. -/
structure Begun (fb : Framebuffer) (s t : TextConsole) : Prop extends InView fb t where
  next : t.currentLine.toNat = s.currentLine.toNat + 1
  column : t.cursorColumn = 0
  ready : t.cursorReady = s.cursorReady
  same : t.cells = s.cells
  chars : ∀ l c, t.currentLine.toNat + 1 - 256 ≤ l.toNat → t.historyCharAt l c = s.historyCharAt l c

theorem begun_clamp (hg : TextGeometry fb) (hline : s.currentLine.toNat + 2 < 2 ^ 64) (top : UInt64) :
    Begun fb s ({ s.freshLine with viewTopLine := top }.clampConsoleView fb) := by
  have hnext : s.freshLine.currentLine.toNat = s.currentLine.toNat + 1 :=
    toNat_nextLine (by omega)
  have hview : InView fb ({ s.freshLine with viewTopLine := top }.clampConsoleView fb) :=
    clamp_inView hg (by
      change s.freshLine.currentLine.toNat + 1 < 2 ^ 64
      omega)
  obtain ⟨top', hsets⟩ := clamp_sets fb { s.freshLine with viewTopLine := top }
  rw [hsets] at hview ⊢
  refine ⟨hview, hnext, rfl, rfl, rfl, ?_⟩
  intro l c hl
  have hl : s.freshLine.currentLine.toNat + 1 - 256 ≤ l.toNat := hl
  rw [hnext] at hl
  exact freshLine_char hline l c hl

section

variable {t : TextConsole} {p : TextCursor} (hg : TextGeometry fb) (h : Shows fb s p)
  (ht : Begun fb s t)

include hg h ht

/-- The view is the same: no visible character has changed. -/
theorem Begun.cells_same (htop : t.viewTopLine = s.viewTopLine) : CellsShow fb t := by
  intro r c hr hc
  have hrow := ht.toInView.toNat_row hg (UInt64.lt_iff_toNat_lt.mp hr)
  rw [ht.same, h.cells r c hr hc, ← htop]
  refine (ht.chars _ _ ?_).symm
  rw [hrow]
  exact ht.oldest.trans (Nat.le_add_right _ _)

/-- The view has moved by one line from the bottom: the pixels are moved by one row. -/
theorem Begun.cells_scroll (htop : t.viewTopLine = s.viewTopLine + 1)
    (hbottom : s.viewIsAtBottom fb = true) : CellsShow fb (t.scrollConsolePixelsUp fb) := by
  have hshort := hg.short
  have hview := h.toInView
  have hlast := (hview.atBottom hg).mp hbottom
  intro r c hr hc
  have hr' := UInt64.lt_iff_toNat_lt.mp hr
  have hsucc : (r + 1).toNat = r.toNat + 1 := by
    rw [UInt64.toNat_add]
    exact Nat.mod_eq_of_lt (show r.toNat + 1 < 2 ^ 64 by omega)
  have hrow := ht.toInView.toNat_row hg hr'
  -- the line that is shown in the row below before
  have hsame : t.viewTopLine + r = s.viewTopLine + (r + 1) := by
    rw [htop, UInt64.add_assoc, UInt64.add_comm 1 r]
  have hchar : t.historyCharAt (t.viewTopLine + r) c = s.historyCharAt (s.viewTopLine + (r + 1)) c := by
    rw [← hsame]
    refine ht.chars _ _ ?_
    rw [hrow]
    exact ht.oldest.trans (Nat.le_add_right _ _)
  have hcell : (t.scrollConsolePixelsUp fb).cells r c =
      if r + 1 < fb.consoleRows then s.cells (r + 1) c else blank := by
    unfold scrollConsolePixelsUp
    dsimp only
    rw [if_neg hg.scrolls]
    by_cases hmove : r + 1 < fb.consoleRows
    · rw [if_pos hmove, ← ht.same]
      exact if_pos hmove
    · have hend : r + 1 = fb.consoleRows := by
        apply UInt64.toNat_inj.mp
        rw [UInt64.lt_iff_toNat_lt] at hmove
        omega
      rw [if_neg hmove]
      exact (if_neg hmove).trans (if_pos hend)
  have hgoal : (t.scrollConsolePixelsUp fb).historyCharAt
      ((t.scrollConsolePixelsUp fb).viewTopLine + r) c = t.historyCharAt (t.viewTopLine + r) c := by
    unfold scrollConsolePixelsUp
    dsimp only
    rw [if_neg hg.scrolls]
    rfl
  rw [hgoal, hchar, hcell]
  by_cases hmove : r + 1 < fb.consoleRows
  · rw [if_pos hmove]
    exact h.cells (r + 1) c hmove hc
  · -- the last row shows the new line
    rw [if_neg hmove, historyCharAt_eq hview.line, if_pos]
    have htop' : t.viewTopLine.toNat = s.viewTopLine.toNat + 1 := by
      have hone := hview.toNat_row hg (r := 1) (show 1 < fb.consoleRows.toNat from hg.high)
      rw [htop]
      exact hone
    rw [UInt64.lt_iff_toNat_lt] at hmove
    rw [← hsame, hrow, htop']
    omega

omit hg in
/-- What is left to show once the cells are drawn. -/
theorem Begun.shows {u : TextConsole} (hu : u = { t with cells := u.cells }) (hcells : CellsShow fb u) :
    Shows fb u ⟨p.line + 1, 0⟩ := by
  rw [hu] at hcells ⊢
  refine ⟨⟨ht.line, ht.oldest, ht.bottom⟩, ht.ready.trans h.ready, ?_, ?_, Nat.zero_le _, hcells⟩
  · exact ht.next.trans (congrArg (· + 1) h.cursorLine)
  · exact congrArg UInt64.toNat ht.column

end

theorem scrollConsolePixelsUp_eq (fb : Framebuffer) (t : TextConsole) :
    t.scrollConsolePixelsUp fb = { t with cells := (t.scrollConsolePixelsUp fb).cells } := by
  unfold scrollConsolePixelsUp
  dsimp only
  split <;> rfl

/-- **A new line** keeps the screen right. -/
theorem Shows.newline {p : TextCursor} (hg : TextGeometry fb) (h : Shows fb s p)
    (hline : p.line + 2 < 2 ^ 64) : Shows fb (s.consoleNewline fb) ⟨p.line + 1, 0⟩ := by
  have hcursor := h.cursorLine
  have hroom : s.currentLine.toNat + 2 < 2 ^ 64 := by omega
  have hzero : ∀ {u : TextConsole}, u.cursorColumn = 0 →
      u.cursorColumn.toNat ≤ fb.consoleVisibleColumns.toNat := by
    intro u hu
    rw [hu]
    exact Nat.zero_le _
  have ht : Begun fb s (s.nextView fb) := begun_clamp hg hroom _
  rw [consoleNewline_eq]
  generalize s.nextView fb = t at ht ⊢
  unfold drawNextView
  split
  · next hscroll =>
    have heq := scrollConsolePixelsUp_eq fb t
    have hcolumn : (t.scrollConsolePixelsUp fb).cursorColumn = 0 := by
      rw [heq]
      exact ht.column
    rw [updateConsoleCursorPixels_eq (hzero hcolumn)]
    exact ht.shows h heq (ht.cells_scroll hg h hscroll.2 hscroll.1)
  split
  · rw [renderConsole_eq hg ht.toInView (hzero ht.column)]
    exact ht.shows h rfl (drawHistory_cells fb _)
  · next htop =>
    rw [updateConsoleCursorPixels_eq (hzero ht.column)]
    exact ht.shows h rfl (ht.cells_same hg h (not_not.mp htop))

/-! ## Other characters -/

theorem Shows.carriageReturn {p : TextCursor} (h : Shows fb s p) :
    Shows fb (s.consoleCarriageReturn fb) ⟨p.line, 0⟩ := by
  unfold consoleCarriageReturn
  rw [updateConsoleCursorPixels_eq (Nat.zero_le _)]
  exact ⟨⟨h.line, h.oldest, h.bottom⟩, h.ready, h.cursorLine, rfl, Nat.zero_le _, h.cells⟩

/-- A character at the cursor: only the cell of the cursor changes. -/
theorem historyCharAt_setHistory (h : InView fb s) (hg : TextGeometry fb) {r column : UInt64}
    (ch : UInt8) (hr : r.toNat < fb.consoleRows.toNat) (c : UInt64)
    (hcolumn : column.toNat < 160) :
    (s.setHistory s.currentLine column ch).historyCharAt (s.viewTopLine + r) c =
      if s.viewTopLine + r = s.currentLine ∧ c = column then ch
      else s.historyCharAt (s.viewTopLine + r) c := by
  have hrow := h.toNat_row hg hr
  have holdest := h.oldest
  rw [historyCharAt_eq h.line, historyCharAt_eq (s := s.setHistory s.currentLine column ch) h.line]
  have hsame : (s.setHistory s.currentLine column ch).currentLine = s.currentLine := rfl
  rw [hsame]
  by_cases hout : 160 ≤ c.toNat ∨ (s.viewTopLine + r).toNat < s.currentLine.toNat + 1 - 256 ∨
      s.currentLine.toNat < (s.viewTopLine + r).toNat
  · rw [if_pos hout, if_pos hout, if_neg]
    rintro ⟨hl, rfl⟩
    rw [hl] at hout
    omega
  · rw [if_neg hout, if_neg hout]
    have hiff : (s.viewTopLine + r) % consoleHistoryRows = s.currentLine % consoleHistoryRows ↔
        s.viewTopLine + r = s.currentLine := by
      constructor
      · intro hmod
        apply UInt64.toNat_inj.mp
        rw [not_or, not_or] at hout
        exact line_eq_of_row (n := s.currentLine.toNat) hmod (by omega) (by omega)
      · intro heq
        rw [heq]
    unfold setHistory
    simp only [hiff]

theorem drawHistoryCell_eq (fb : Framebuffer) (t : TextConsole) (line column : UInt64) :
    t.drawHistoryCell fb line column = { t with cells := (t.drawHistoryCell fb line column).cells } := by
  unfold drawHistoryCell
  split
  · rfl
  split <;> rfl

/-- **A cell.**  The cell of the cursor is drawn where its line is in the view. -/
theorem cells_drawHistoryCell (hg : TextGeometry fb) (h : InView fb s) (hcells : CellsShow fb s)
    (column : UInt64) (ch : UInt8) (hcolumn : column.toNat < fb.consoleVisibleColumns.toNat) :
    CellsShow fb ((s.setHistory s.currentLine column ch).drawHistoryCell fb s.currentLine column) := by
  have hmax := TextGeometry.columns_le fb
  have hbottom := h.bottom
  have hhigh := h.line
  have hshort := hg.short
  have htwo := hg.high
  have hend : (s.viewTopLine + fb.consoleRows).toNat = s.viewTopLine.toNat + fb.consoleRows.toNat := by
    rw [UInt64.toNat_add]
    exact Nat.mod_eq_of_lt (by omega)
  intro r c hr hc
  have hr' := UInt64.lt_iff_toNat_lt.mp hr
  have hrow := h.toNat_row hg hr'
  have hchar := historyCharAt_setHistory h hg ch hr' c (by omega : column.toNat < 160)
  have hold := hcells r c hr hc
  set t := s.setHistory s.currentLine column ch with ht
  -- Drawing moves neither the view nor the history.
  have htop : (t.drawHistoryCell fb s.currentLine column).viewTopLine = s.viewTopLine := by
    rw [drawHistoryCell_eq]
    rfl
  have hat : (t.drawHistoryCell fb s.currentLine column).historyCharAt (s.viewTopLine + r) c =
      t.historyCharAt (s.viewTopLine + r) c := by
    rw [drawHistoryCell_eq]
    rfl
  rw [htop, hat]
  unfold drawHistoryCell historyLineVisible
  have htview : t.viewTopLine = s.viewTopLine := rfl
  rw [htview]
  by_cases hout : s.currentLine < s.viewTopLine ∨ s.viewTopLine + fb.consoleRows ≤ s.currentLine
  · -- the line of the cursor is below the view
    rw [if_pos hout]
    have hne : s.viewTopLine + r ≠ s.currentLine := by
      intro heq
      rw [UInt64.lt_iff_toNat_lt, UInt64.le_iff_toNat_le, hend, ← heq, hrow] at hout
      omega
    rw [hchar, if_neg (fun hboth => hne hboth.1)]
    exact hold
  · -- The cell is redrawn from the history; the others are not touched.
    rw [if_neg hout]
    dsimp only
    rw [if_neg (by rw [UInt64.le_iff_toNat_le]; omega)]
    by_cases hhere : r = s.currentLine - s.viewTopLine ∧ c = column
    · have hline : s.viewTopLine + r = s.currentLine := by
        rw [hhere.1, UInt64.add_comm, UInt64.sub_add_cancel]
      rw [hline, hhere.2]
      exact if_pos ⟨hhere.1, rfl⟩
    · have hne : ¬ (s.viewTopLine + r = s.currentLine ∧ c = column) := by
        rintro ⟨heq, rfl⟩
        refine hhere ⟨?_, rfl⟩
        rw [← heq, UInt64.add_comm, UInt64.add_sub_cancel]
      rw [hchar, if_neg hne, ← hold]
      exact if_neg hhere

/-- **Backspace** keeps the screen right. -/
theorem Shows.backspace {p : TextCursor} (hg : TextGeometry fb) (h : Shows fb s p) :
    Shows fb (s.consoleBackspace fb) ⟨p.line, p.column - 1⟩ := by
  have hcolumn := h.cursorColumn
  have hinside := h.inside
  unfold consoleBackspace
  split
  · next hzero =>
    rw [hzero] at hcolumn
    have hp : p.column = 0 := hcolumn.symm
    rw [hp]
    exact ⟨h.toInView, h.ready, h.cursorLine, by rw [hzero]; rfl, Nat.zero_le _, h.cells⟩
  · next hpos =>
    have hpos' : s.cursorColumn.toNat ≠ 0 := fun hzero => hpos (UInt64.toNat_inj.mp hzero)
    have hone : (1 : UInt64) ≤ s.cursorColumn := by
      rw [UInt64.le_iff_toNat_le]
      exact Nat.one_le_iff_ne_zero.mpr hpos'
    have hprev : (s.cursorColumn - 1).toNat = s.cursorColumn.toNat - 1 :=
      UInt64.toNat_sub_of_le _ _ hone
    have hview : InView fb { s with cursorColumn := s.cursorColumn - 1 } :=
      ⟨h.line, h.oldest, h.bottom⟩
    have hdrawn := cells_drawHistoryCell hg hview h.cells (s.cursorColumn - 1) blank (by omega)
    dsimp only
    rw [updateConsoleCursorPixels_eq (by
      rw [drawHistoryCell_eq]
      change (s.cursorColumn - 1).toNat ≤ _
      omega)]
    rw [drawHistoryCell_eq] at hdrawn ⊢
    refine ⟨⟨h.line, h.oldest, h.bottom⟩, h.ready, h.cursorLine, ?_, ?_, hdrawn⟩
    · change (s.cursorColumn - 1).toNat = p.column - 1
      omega
    · change p.column - 1 ≤ _
      omega

/-- What `scdk_fb_text_putchar` does with a character that has room on the line. -/
def putHere (fb : Framebuffer) (s : TextConsole) (ch : UInt8) : TextConsole :=
  let t := s.setHistory s.currentLine s.cursorColumn ch
  let t := if s.viewIsAtBottom fb = true then { t with viewTopLine := t.bottomViewTopLine fb } else t
  let t := t.clampConsoleView fb
  let t := if t.viewTopLine ≠ s.viewTopLine then t.renderConsole fb
    else t.drawHistoryCell fb t.currentLine t.cursorColumn
  { t with cursorColumn := t.cursorColumn + 1 }.updateConsoleCursorPixels fb

/-- The view is at the bottom already if it is to follow, so it stays. -/
theorem Shows.putHere_eq {p : TextCursor} (hg : TextGeometry fb) (h : Shows fb s p) (ch : UInt8)
    (hroom : p.column < fb.consoleVisibleColumns.toNat) :
    s.putHere fb ch = { s.setHistory s.currentLine s.cursorColumn ch with
      cells := ((s.setHistory s.currentLine s.cursorColumn ch).drawHistoryCell fb s.currentLine
        s.cursorColumn).cells
      cursorColumn := s.cursorColumn + 1 } := by
  have hcolumn := h.cursorColumn
  have hmax := TextGeometry.columns_le fb
  have hfollow : (if s.viewIsAtBottom fb = true then
      { s.setHistory s.currentLine s.cursorColumn ch with
        viewTopLine := (s.setHistory s.currentLine s.cursorColumn ch).bottomViewTopLine fb }
      else s.setHistory s.currentLine s.cursorColumn ch) =
      s.setHistory s.currentLine s.cursorColumn ch := by
    split
    · next hbottom =>
      have heq : (s.setHistory s.currentLine s.cursorColumn ch).bottomViewTopLine fb = s.viewTopLine :=
        h.follow hg hbottom
      rw [heq]
      rfl
    · rfl
  have hview : InView fb (s.setHistory s.currentLine s.cursorColumn ch) :=
    ⟨h.line, h.oldest, h.bottom⟩
  have hsucc : (s.cursorColumn + 1).toNat = s.cursorColumn.toNat + 1 := by
    rw [UInt64.toNat_add]
    exact Nat.mod_eq_of_lt (show s.cursorColumn.toNat + 1 < 2 ^ 64 by omega)
  unfold putHere
  dsimp only
  rw [hfollow, hview.clamp hg, if_neg (fun hne => hne rfl), drawHistoryCell_eq]
  apply updateConsoleCursorPixels_eq
  change (s.cursorColumn + 1).toNat ≤ _
  omega

/-- A character in the column of the cursor, which is on the screen. -/
theorem Shows.putHere {p : TextCursor} (hg : TextGeometry fb) (h : Shows fb s p) (ch : UInt8)
    (hroom : p.column < fb.consoleVisibleColumns.toNat) :
    Shows fb (s.putHere fb ch) ⟨p.line, p.column + 1⟩ := by
  have hcolumn := h.cursorColumn
  have hmax := TextGeometry.columns_le fb
  have hdrawn := cells_drawHistoryCell hg h.toInView h.cells s.cursorColumn ch (by omega)
  have hsucc : (s.cursorColumn + 1).toNat = p.column + 1 := by
    rw [UInt64.toNat_add, hcolumn]
    exact Nat.mod_eq_of_lt (show p.column + 1 < 2 ^ 64 by omega)
  rw [h.putHere_eq hg ch hroom]
  rw [drawHistoryCell_eq] at hdrawn
  exact ⟨⟨h.line, h.oldest, h.bottom⟩, h.ready, h.cursorLine, hsucc, hroom, hdrawn⟩

/-- **A character** keeps the screen right. -/
theorem Shows.putGlyph {p : TextCursor} (hg : TextGeometry fb) (h : Shows fb s p) (ch : UInt8)
    (hline : (p.put fb.consoleVisibleColumns.toNat).line + 1 < 2 ^ 64) :
    (s.putGlyph fb ch).1 = .ok () ∧
      Shows fb (s.putGlyph fb ch).2 (p.put fb.consoleVisibleColumns.toNat) := by
  have hcolumn := h.cursorColumn
  have hwide := hg.wide
  unfold TextConsole.putGlyph
  rw [if_neg hg.columns_ne]
  refine ⟨rfl, ?_⟩
  unfold TextCursor.put at hline ⊢
  by_cases hfull : fb.consoleVisibleColumns.toNat ≤ p.column
  · have hle : fb.consoleVisibleColumns ≤ s.cursorColumn := by
      rw [UInt64.le_iff_toNat_le]
      omega
    rw [if_pos hfull] at hline ⊢
    rw [if_pos hle]
    exact (h.newline hg hline).putHere hg ch (by omega : 0 < fb.consoleVisibleColumns.toNat)
  · have hle : ¬ fb.consoleVisibleColumns ≤ s.cursorColumn := by
      rw [UInt64.le_iff_toNat_le]
      omega
    rw [if_neg hfull, if_neg hle]
    exact h.putHere hg ch (by omega)

theorem Shows.ensure {p : TextCursor} (h : Shows fb s p) : s.ensureConsoleCursor fb = s :=
  if_pos h.ready

theorem Shows.blank {p : TextCursor} (hg : TextGeometry fb) (h : Shows fb s p)
    (hline : (p.put fb.consoleVisibleColumns.toNat).line + 1 < 2 ^ 64) :
    ∃ t, s.putcharNoTab fb Scdk.blank = (.ok (), t) ∧
      Shows fb t (p.put fb.consoleVisibleColumns.toNat) := by
  obtain ⟨hok, hshows⟩ := h.putGlyph hg Scdk.blank hline
  refine ⟨_, ?_, hshows⟩
  unfold putcharNoTab
  rw [if_neg (not_not.mpr hg.depth), h.ensure]
  exact Prod.ext hok rfl

/-- The rounds of the loop for a tab. -/
theorem Shows.tabLoop {p : TextCursor} {rounds : Nat} (hg : TextGeometry fb) (h : Shows fb s p)
    (hline : (p.tab fb.consoleVisibleColumns.toNat rounds).line + 1 < 2 ^ 64) :
    (TextConsole.tabLoop fb rounds s).1 = .ok () ∧
      Shows fb (TextConsole.tabLoop fb rounds s).2 (p.tab fb.consoleVisibleColumns.toNat rounds) := by
  induction rounds generalizing s p with
  | zero => exact ⟨rfl, h⟩
  | succ rounds ih =>
    -- Lines are only passed, so the bound on the last one bounds this one.
    have hput : (p.put fb.consoleVisibleColumns.toNat).line ≤
        (p.tab fb.consoleVisibleColumns.toNat (rounds + 1)).line := by
      unfold TextCursor.tab
      split
      · exact TextCursor.line_le_tab _ _ _
      · exact Nat.le_refl _
    obtain ⟨t, heq, ht⟩ := h.blank hg (by omega)
    have hcolumn : t.cursorColumn % 4 ≠ 0 ↔
        (p.put fb.consoleVisibleColumns.toNat).column % 4 ≠ 0 := by
      rw [← ht.cursorColumn, Ne, ← UInt64.toNat_inj, UInt64.toNat_mod]
      rfl
    rw [TextCursor.tab] at hline ⊢
    rw [TextConsole.tabLoop, heq]
    dsimp only
    by_cases hmore : (p.put fb.consoleVisibleColumns.toNat).column % 4 ≠ 0
    · rw [if_pos hmore] at hline ⊢
      rw [if_pos (hcolumn.mpr hmore)]
      exact ih ht hline
    · rw [if_neg hmore, if_neg (mt hcolumn.mp hmore)]
      exact ⟨rfl, ht⟩

/-- With four columns or more the loop for a tab has ended after eight rounds. -/
theorem Shows.tabLoop_ends {p : TextCursor} (hg : TextGeometry fb) (h : Shows fb s p)
    (hline : (p.tab fb.consoleVisibleColumns.toNat 8).line + 1 < 2 ^ 64) :
    (TextConsole.tabLoop fb 8 s).2.cursorColumn % 4 = 0 := by
  have hends := TextCursor.tab_ends hg.wide h.inside (p.tabWidth_le fb.consoleVisibleColumns.toNat)
  have hcolumn := (h.tabLoop hg hline).2.cursorColumn
  apply UInt64.toNat_inj.mp
  rw [UInt64.toNat_mod, hcolumn]
  exact hends

/-- **Any character** keeps the screen right. -/
theorem Shows.putchar {p : TextCursor} (hg : TextGeometry fb) (h : Shows fb s p) (ch : UInt8)
    (hline : (p.step fb.consoleVisibleColumns.toNat ch).line + 1 < 2 ^ 64) :
    (s.fbTextPutchar fb ch).1 = .ok () ∧
      Shows fb (s.fbTextPutchar fb ch).2 (p.step fb.consoleVisibleColumns.toNat ch) := by
  unfold fbTextPutchar putcharNoTab
  rw [if_neg (not_not.mpr hg.depth), if_neg (not_not.mpr hg.depth), h.ensure]
  dsimp only
  unfold TextCursor.step at hline ⊢
  split
  · next htab =>
    rw [if_pos htab] at hline
    exact h.tabLoop hg hline
  next htab =>
  rw [if_neg htab] at hline
  split
  · next hnl =>
    rw [if_pos hnl] at hline
    exact ⟨rfl, h.newline hg hline⟩
  next hnl =>
  rw [if_neg hnl] at hline
  split
  · exact ⟨rfl, h.carriageReturn⟩
  next hcr =>
  rw [if_neg hcr] at hline
  split
  · exact ⟨rfl, h.backspace hg⟩
  next hbs =>
  rw [if_neg hbs] at hline
  exact h.putGlyph hg ch hline

/-- **A text** keeps the screen right: by induction on its characters. -/
theorem Shows.write {p : TextCursor} (hg : TextGeometry fb) (h : Shows fb s p) (text : List UInt8)
    (hline : (p.after fb.consoleVisibleColumns.toNat text).line + 1 < 2 ^ 64) :
    (writeLoop fb text s).1 = .ok () ∧
      Shows fb (writeLoop fb text s).2 (p.after fb.consoleVisibleColumns.toNat text) := by
  induction text generalizing s p with
  | nil => exact ⟨rfl, h⟩
  | cons ch text ih =>
    have hmono := TextCursor.line_le_after fb.consoleVisibleColumns.toNat
      (p.step fb.consoleVisibleColumns.toNat ch) text
    have hrest : p.after fb.consoleVisibleColumns.toNat (ch :: text) =
        (p.step fb.consoleVisibleColumns.toNat ch).after fb.consoleVisibleColumns.toNat text := rfl
    rw [hrest] at hline ⊢
    obtain ⟨hok, hshows⟩ := h.putchar hg ch (by omega)
    unfold writeLoop
    rcases hput : s.fbTextPutchar fb ch with ⟨r, t⟩
    rw [hput] at hok hshows
    obtain rfl : r = .ok () := hok
    exact ih hshows hline

/-! ## Calls -/

/-- **Scrolling** keeps the screen right. -/
theorem Shows.scroll {p : TextCursor} (hg : TextGeometry fb) (h : Shows fb s p) (lines : Int32) :
    (s.fbTextScroll fb lines).1 = .ok () ∧ Shows fb (s.fbTextScroll fb lines).2 p := by
  have hcolumn := h.cursorColumn
  unfold fbTextScroll
  rw [if_neg (not_not.mpr hg.depth), h.ensure]
  dsimp only
  split
  · exact ⟨rfl, h⟩
  refine ⟨rfl, ?_⟩
  have hview : InView fb ({ s with viewTopLine := s.scrolledTop fb lines }.clampConsoleView fb) :=
    clamp_inView hg h.line
  obtain ⟨top, hsets⟩ := clamp_sets fb { s with viewTopLine := s.scrolledTop fb lines }
  rw [hsets] at hview ⊢
  split
  · rw [renderConsole_eq hg hview (show s.cursorColumn.toNat ≤ _ by rw [hcolumn]; exact h.inside)]
    exact ⟨⟨h.line, hview.oldest, hview.bottom⟩, h.ready, h.cursorLine, hcolumn, h.inside,
      drawHistory_cells fb _⟩
  · next htop =>
    have hsame : top = s.viewTopLine := not_not.mp htop
    rw [hsame]
    exact h

/-- Clearing the screen, in any state. -/
theorem shows_clear (hg : TextGeometry fb) (s : TextConsole) :
    (s.fbTextClear fb).1 = .ok () ∧ Shows fb (s.fbTextClear fb).2 ⟨0, 0⟩ := by
  have hfirst : (0 : UInt64).toNat + 1 - 256 ≤ (0 : UInt64).toNat := by decide
  unfold fbTextClear
  rw [if_neg (not_not.mpr hg.depth)]
  refine ⟨rfl, ?_⟩
  rw [updateConsoleCursorPixels_eq (Nat.zero_le _)]
  refine ⟨⟨show (0 : UInt64).toNat + 1 < 2 ^ 64 by decide, hfirst, Nat.zero_le _⟩, rfl, rfl, rfl,
    Nat.zero_le _, ?_⟩
  intro r c hr hc
  unfold historyCharAt
  split
  · rfl
  · next hin =>
    rw [not_or, UInt64.not_le] at hin
    refine (if_pos ⟨?_, hin.1⟩).symm
    rw [UInt64.lt_iff_toNat_lt, UInt64.toNat_mod]
    exact Nat.mod_lt _ (by decide)

/-- The text that some calls write. -/
def textOf : List Call → List UInt8
  | [] => []
  | .write buf len :: calls => writtenText buf len ++ textOf calls
  | .scroll _ :: calls => textOf calls

/-- **Calls** keep the screen right: by induction on them. -/
theorem Shows.performAll {p : TextCursor} {calls : List Call} (hg : TextGeometry fb)
    (h : Shows fb s p)
    (hline : (p.after fb.consoleVisibleColumns.toNat (textOf calls)).line + 1 < 2 ^ 64) :
    Shows fb (s.performAll fb calls) (p.after fb.consoleVisibleColumns.toNat (textOf calls)) := by
  induction calls generalizing s p with
  | nil => exact h
  | cons call calls ih =>
    cases call with
    | write buf len =>
      -- What is written is shown; scrolling does not move the cursor of the text.
      have hsplit : p.after fb.consoleVisibleColumns.toNat (textOf (.write buf len :: calls)) =
          (p.after fb.consoleVisibleColumns.toNat (writtenText buf len)).after
            fb.consoleVisibleColumns.toNat (textOf calls) := by
        unfold TextCursor.after
        rw [← List.foldl_append]
        rfl
      have hmono := TextCursor.line_le_after fb.consoleVisibleColumns.toNat
        (p.after fb.consoleVisibleColumns.toNat (writtenText buf len)) (textOf calls)
      rw [hsplit] at hline ⊢
      exact ih (h.write hg (writtenText buf len) (by omega)).2 hline
    | scroll lines => exact ih (h.scroll hg lines).2 hline

/-- **The screen shows the history.**  After clearing the screen and any calls that
    write text and scroll, as long as the line counter does not reach its last value,
    every cell shows the character of the history that belongs to it, which is what
    drawing the whole console again would show. -/
theorem screen_shows_history (hg : TextGeometry fb) (s : TextConsole) (calls : List Call)
    (hlines : (TextCursor.after fb.consoleVisibleColumns.toNat ⟨0, 0⟩ (textOf calls)).line <
      2 ^ 64 - 1) {r c : UInt64} (hr : r < fb.consoleRows) (hc : c < fb.consoleVisibleColumns) :
    let t := (s.fbTextClear fb).2.performAll fb calls
    t.cells r c = t.historyCharAt (t.viewTopLine + r) c ∧
      t.cells r c = (t.renderConsole fb).cells r c := by
  have hstart := (shows_clear hg s).2
  have hroom : (TextCursor.after fb.consoleVisibleColumns.toNat ⟨0, 0⟩ (textOf calls)).line + 1 <
      2 ^ 64 := by omega
  have hshows := hstart.performAll hg hroom
  refine ⟨hshows.cells r c hr hc, ?_⟩
  rw [renderConsole_eq hg hshows.toInView (by rw [hshows.cursorColumn]; exact hshows.inside)]
  rw [hshows.cells r c hr hc]
  exact (drawHistory_cells fb _ r c hr hc).symm

/-- A screen of 640 by 480 pixels: 44 columns and 21 rows. -/
def vga : Framebuffer := ⟨640, 480, 32⟩

theorem textGeometry_vga : TextGeometry vga := by
  constructor <;> decide

/-- The statics before the first call. -/
def unusedConsole : TextConsole := ⟨fun _ _ => 0, 0, 0, 0, false, fun _ _ => 0⟩

theorem screen_shows_text :
    let t := (unusedConsole.fbTextClear vga).2.performAll vga [.write [97, 10, 9, 98] 4, .scroll (-1)]
    t.cells 0 0 = t.historyCharAt (t.viewTopLine + 0) 0 ∧
      t.cells 0 0 = (t.renderConsole vga).cells 0 0 :=
  screen_shows_history textGeometry_vga unusedConsole _ (by decide) (by decide) (by decide)

/-! ## When the line counter wraps -/

/-- Two consoles that differ in what is drawn and in the view. -/
structure SameText (s t : TextConsole) : Prop where
  history : t.history = s.history
  line : t.currentLine = s.currentLine
  ready : t.cursorReady = s.cursorReady

theorem renderConsole_text (fb : Framebuffer) (s : TextConsole) : SameText s (s.renderConsole fb) := by
  unfold renderConsole
  split
  · exact ⟨rfl, rfl, rfl⟩
  split
  · exact ⟨rfl, rfl, rfl⟩
  · obtain ⟨top, hsets⟩ := clamp_sets fb s
    rw [hsets]
    unfold updateConsoleCursorPixels drawHistory
    exact ⟨rfl, rfl, rfl⟩

/-- A new line clears its row of the history, whatever is drawn. -/
theorem consoleNewline_text (fb : Framebuffer) (s : TextConsole) :
    SameText s.freshLine (s.consoleNewline fb) := by
  have hview : SameText s.freshLine (s.nextView fb) := ⟨rfl, rfl, rfl⟩
  rw [consoleNewline_eq]
  unfold drawNextView
  split
  · rw [scrollConsolePixelsUp_eq]
    exact ⟨hview.history, hview.line, hview.ready⟩
  split
  · have hrender := renderConsole_text fb (s.nextView fb)
    exact ⟨hrender.history.trans hview.history, hrender.line.trans hview.line,
      hrender.ready.trans hview.ready⟩
  · exact ⟨hview.history, hview.line, hview.ready⟩

/-- Where no line can be above the first one, the view is clamped to it. -/
theorem clamp_first (holdest : s.oldestHistoryLine = 0) (hbottom : s.bottomViewTopLine fb = 0) :
    (s.clampConsoleView fb).viewTopLine = 0 := by
  unfold clampConsoleView
  dsimp only
  rw [hbottom, holdest]
  generalize (if s.viewTopLine < 0 then 0 else s.viewTopLine) = top
  by_cases hpos : 0 < top
  · exact if_pos hpos
  · rw [if_neg hpos]
    exact UInt64.le_zero_iff.mp (UInt64.not_lt.mp hpos)

/-- With the counter at its last value, all rows of the history count as its first
    lines. -/
theorem clamp_last (h : s.currentLine = 0xffffffffffffffff) :
    (s.clampConsoleView vga).viewTopLine = 0 ∧ s.oldestHistoryLine = 0 := by
  have hnext : s.currentLine + 1 = 0 := by
    rw [h]
    decide
  have holdest : s.oldestHistoryLine = 0 := by
    unfold oldestHistoryLine
    rw [hnext]
    decide
  have hbottom : s.bottomViewTopLine vga = 0 := by
    unfold bottomViewTopLine
    rw [hnext]
    decide
  exact ⟨clamp_first holdest hbottom, holdest⟩

/-- The new line that takes the counter to its last value draws row 0 of the history
    at the top. -/
theorem newline_last (h : s.currentLine = 0xfffffffffffffffe) (hfirst : s.viewTopLine ≠ 0)
    (hlast : s.viewTopLine + 1 ≠ 0) :
    (s.consoleNewline vga).viewTopLine = 0 ∧
      (s.consoleNewline vga).currentLine = 0xffffffffffffffff ∧
      (s.consoleNewline vga).cells 0 0 = (s.consoleNewline vga).history 0 0 := by
  have hfresh : s.freshLine.currentLine = 0xffffffffffffffff := by
    change s.currentLine + 1 = _
    rw [h]
    decide
  have hline : (s.nextView vga).currentLine = 0xffffffffffffffff := hfresh
  have hbefore : ∀ top, ({ s.freshLine with viewTopLine := top } : TextConsole).currentLine =
      0xffffffffffffffff := fun _ => hfresh
  have htop : (s.nextView vga).viewTopLine = 0 := (clamp_last (hbefore _)).1
  rw [consoleNewline_eq]
  generalize s.nextView vga = u at hline htop ⊢
  unfold drawNextView renderConsole
  rw [htop, if_neg (fun hboth => hlast hboth.2.symm), if_pos (Ne.symm hfirst), if_neg (by decide),
    if_neg (by decide)]
  have httop : (u.clampConsoleView vga).viewTopLine = 0 := (clamp_last hline).1
  have htline : (u.clampConsoleView vga).currentLine = 0xffffffffffffffff := hline
  generalize u.clampConsoleView vga = t at httop htline ⊢
  have hchar : t.historyCharAt (t.viewTopLine + 0) 0 = t.history 0 0 := by
    unfold historyCharAt
    rw [(clamp_last htline).2, htline, httop]
    exact if_neg (by decide)
  have hdrawn := drawHistory_cell (s := t) (by decide : 0 < vga.consoleRows)
    (by decide : 0 < vga.consoleVisibleColumns)
  exact ⟨httop, htline, hdrawn.trans hchar⟩

/-- The next one clears that row, and draws nothing. -/
theorem newline_wraps (h : s.currentLine = 0xffffffffffffffff) (htop : s.viewTopLine = 0) :
    (s.consoleNewline vga).viewTopLine = 0 ∧
      (s.consoleNewline vga).cells 0 0 = s.cells 0 0 ∧
      (s.consoleNewline vga).historyCharAt 0 0 = blank := by
  -- The line count wraps to zero, so that no line is older than the view.
  have hline : s.freshLine.currentLine = 0 := by
    change s.currentLine + 1 = _
    rw [h]
    decide
  have hbottom : s.freshLine.bottomViewTopLine vga = 0 := by
    unfold bottomViewTopLine
    rw [hline]
    decide
  have holdest : s.freshLine.oldestHistoryLine = 0 := by
    unfold oldestHistoryLine
    rw [hline]
    decide
  have hview : (s.nextView vga).viewTopLine = 0 := by
    unfold nextView
    exact clamp_first holdest hbottom
  -- The view does not move, and nothing is redrawn.
  have heq : s.consoleNewline vga = (s.nextView vga).updateConsoleCursorPixels vga := by
    rw [consoleNewline_eq]
    unfold drawNextView
    rw [hview, htop, if_neg (fun hboth => absurd hboth.2 (by decide)), if_neg (fun hne => hne rfl)]
  refine ⟨?_, ?_, ?_⟩
  · rw [heq]
    generalize s.nextView vga = t at hview ⊢
    exact hview
  · rw [heq]
    rfl
  · unfold historyCharAt
    split
    · rfl
    · rw [(consoleNewline_text vga s).history]
      refine if_pos ⟨?_, by decide⟩
      rw [h]
      decide

/-- The cursor after some line feeds. -/
theorem after_newlines (columns : Nat) (p : TextCursor) {n : Nat} (hn : 0 < n) :
    p.after columns (List.replicate n 10) = ⟨p.line + n, 0⟩ := by
  induction n generalizing p with
  | zero => omega
  | succ n ih =>
    have hone : p.after columns (10 :: List.replicate n 10) =
        TextCursor.after columns ⟨p.line + 1, 0⟩ (List.replicate n 10) := rfl
    rw [List.replicate_succ, hone]
    by_cases hzero : n = 0
    · rw [hzero]
      rfl
    · rw [ih _ (Nat.pos_of_ne_zero hzero), Nat.add_assoc, Nat.add_comm 1 n]

theorem putchar_newline (hready : s.cursorReady = true) :
    s.fbTextPutchar vga 10 = (.ok (), s.consoleNewline vga) := by
  unfold fbTextPutchar putcharNoTab ensureConsoleCursor
  rw [if_neg (by decide), if_neg (by decide), if_pos hready]
  rfl

theorem history_newline {p : TextCursor} (h : Shows vga s p) (hrow : (p.line + 1) % 256 ≠ 0) :
    (s.consoleNewline vga).history 0 0 = s.history 0 0 := by
  rw [(consoleNewline_text vga s).history]
  apply if_neg
  rintro ⟨heq, _⟩
  have hmod := congrArg UInt64.toNat heq
  rw [UInt64.toNat_mod, toNat_nextLine h.line, h.cursorLine] at hmod
  exact hrow hmod.symm

/-- Row 0 stays as it is until the line counter is a multiple of 256 again. -/
theorem history_newlines {p : TextCursor} {n : Nat} (h : Shows vga s p)
    (hn : p.line % 256 + n < 256) (hline : p.line + n + 1 < 2 ^ 64) :
    (writeLoop vga (List.replicate n 10) s).2.history 0 0 = s.history 0 0 := by
  induction n generalizing s p with
  | zero => rfl
  | succ n ih =>
    have hnext := h.newline textGeometry_vga (by omega)
    have hkeep := history_newline h (by omega : (p.line + 1) % 256 ≠ 0)
    rw [List.replicate_succ, writeLoop, putchar_newline h.ready]
    dsimp only
    rw [ih hnext (show (p.line + 1) % 256 + n < 256 by omega)
      (show p.line + 1 + n + 1 < 2 ^ 64 by omega)]
    exact hkeep

/-- A run that starts by writing a text. -/
theorem performAll_write {buf text : List UInt8} {len : UInt64} (calls : List Call)
    (htext : writtenText buf len = text) :
    s.performAll fb (.write buf len :: calls) = (writeLoop fb text s).2.performAll fb calls := by
  rw [← htext]
  rfl

theorem performAll_nil (fb : Framebuffer) (s : TextConsole) : s.performAll fb [] = s := rfl

theorem writeLoop_one {ch : UInt8} {t : TextConsole} (h : s.fbTextPutchar fb ch = (.ok (), t)) :
    writeLoop fb [ch] s = (.ok (), t) := by
  rw [writeLoop, h]
  rfl

theorem putchar_x {p : TextCursor} (h : Shows vga s p) (hcolumn : s.cursorColumn = 0) :
    s.fbTextPutchar vga 120 = (.ok (), s.putHere vga 120) := by
  have hroom : ¬ vga.consoleVisibleColumns ≤ s.cursorColumn := by
    rw [hcolumn]
    decide
  unfold fbTextPutchar putcharNoTab
  rw [if_neg (by decide : ¬ (120 : UInt8) = 9), if_neg (by decide : ¬ vga.bpp ≠ 32), h.ensure]
  dsimp only
  rw [if_neg (by decide : ¬ (120 : UInt8) = 10), if_neg (by decide : ¬ (120 : UInt8) = 13),
    if_neg (by decide : ¬ (120 : UInt8) = 8)]
  unfold putGlyph
  rw [if_neg (by decide : ¬ vga.consoleVisibleColumns = 0), if_neg hroom]
  rfl

/-- Line feeds, each in a write of its own. -/
theorem performAll_newlines {p : TextCursor} {n : Nat} (h : Shows vga s p) (hline : p.line + n + 1 < 2 ^ 64)
    (calls : List Call) :
    s.performAll vga (List.replicate n (.write [10] 1) ++ calls) =
      (writeLoop vga (List.replicate n 10) s).2.performAll vga calls := by
  induction n generalizing s p with
  | zero => rfl
  | succ n ih =>
    have hfeed : writtenText [10] 1 = [10] := by decide
    have hnext := h.newline textGeometry_vga (by omega)
    rw [List.replicate_succ, List.cons_append, performAll_write _ hfeed,
      writeLoop_one (putchar_newline h.ready)]
    rw [List.replicate_succ, writeLoop, putchar_newline h.ready]
    dsimp only
    exact ih hnext (show p.line + 1 + n + 1 < 2 ^ 64 by omega)

/-- The two lines at which the counter wraps: the first draws row 0 of the history, and
    the second clears it without drawing. -/
theorem cells_wrapped {p : TextCursor} (h : Shows vga s p) (hp : p.line = 2 ^ 64 - 2) :
    let t := (s.consoleNewline vga).consoleNewline vga
    t.cells 0 0 = s.history 0 0 ∧ t.historyCharAt (t.viewTopLine + 0) 0 = blank := by
  have hline := h.cursorLine
  have holdest := h.oldest
  have hbottom := h.bottom
  have hrows : vga.consoleRows.toNat = 21 := by decide
  have hcurrent : s.currentLine = 0xfffffffffffffffe := by
    apply UInt64.toNat_inj.mp
    rw [hline, hp]
    rfl
  have hfirst : s.viewTopLine ≠ 0 := by
    intro hzero
    rw [hzero] at holdest
    change _ ≤ 0 at holdest
    omega
  have hlast : s.viewTopLine + 1 ≠ 0 := by
    intro hzero
    have hnat := congrArg UInt64.toNat hzero
    rw [UInt64.toNat_add] at hnat
    change (s.viewTopLine.toNat + 1) % 2 ^ 64 = 0 at hnat
    omega
  obtain ⟨htop, hmax, hcell⟩ := newline_last hcurrent hfirst hlast
  obtain ⟨htop', hcell', hchar⟩ := newline_wraps hmax htop
  constructor
  · rw [hcell', hcell]
    exact history_newline h (by omega)
  · rw [htop']
    exact hchar

/-- After 2^64 line feeds the counter is 0 again, and the screen shows an `x` that the
    history has no more. -/
theorem screen_differs :
    ¬ ∀ (fb : Framebuffer) (s : TextConsole) (calls : List Call) (r c : UInt64), TextGeometry fb →
      r < fb.consoleRows → c < fb.consoleVisibleColumns →
      let t := (s.fbTextClear fb).2.performAll fb calls
      t.cells r c = t.historyCharAt (t.viewTopLine + r) c := by
  intro hclaim
  obtain ⟨n, hn⟩ : ∃ n : Nat, n = 2 ^ 64 - 256 := ⟨_, rfl⟩
  obtain ⟨m, hm⟩ : ∃ m : Nat, m = 254 := ⟨_, rfl⟩
  have hdiffers := hclaim vga unusedConsole (List.replicate n (.write [10] 1) ++ .write [120] 1 ::
    (List.replicate m (.write [10] 1) ++ [.write [10] 1, .write [10] 1])) 0 0 textGeometry_vga
    (by decide) (by decide)
  dsimp only at hdiffers
  -- up to the last multiple of 256
  have h₁ := (shows_clear textGeometry_vga unusedConsole).2
  generalize (unusedConsole.fbTextClear vga).2 = s₁ at h₁ hdiffers
  have hafter₁ := after_newlines vga.consoleVisibleColumns.toNat ⟨0, 0⟩ (by omega : 0 < n)
  rw [Nat.zero_add] at hafter₁
  have h₂ := (h₁.write textGeometry_vga (List.replicate n 10) (by
    rw [hafter₁]
    show n + 1 < 2 ^ 64
    omega)).2
  rw [hafter₁] at h₂
  rw [performAll_newlines h₁ (show 0 + n + 1 < 2 ^ 64 by omega)] at hdiffers
  generalize (writeLoop vga (List.replicate n 10) s₁).2 = s₂ at h₂ hdiffers
  -- one character there
  have hzero : s₂.cursorColumn = 0 := UInt64.toNat_inj.mp h₂.cursorColumn
  have hroom : 0 < vga.consoleVisibleColumns.toNat := by decide
  have h₃ := h₂.putHere textGeometry_vga 120 hroom
  have hx : (s₂.putHere vga 120).history 0 0 = 120 := by
    have hrow : 0 = s₂.currentLine % consoleHistoryRows := by
      apply UInt64.toNat_inj.mp
      rw [UInt64.toNat_mod, h₂.cursorLine]
      change 0 = n % 256
      omega
    rw [h₂.putHere_eq textGeometry_vga 120 hroom]
    exact if_pos ⟨hrow, hzero.symm⟩
  have htext : writtenText [120] 1 = [120] := by decide
  rw [performAll_write _ htext, writeLoop_one (putchar_x h₂ hzero)] at hdiffers
  dsimp only at hdiffers
  generalize s₂.putHere vga 120 = s₃ at h₃ hx hdiffers
  -- on to the last line but one
  have hafter₃ := after_newlines vga.consoleVisibleColumns.toNat ⟨n, 0 + 1⟩ (by omega : 0 < m)
  have h₄ := (h₃.write textGeometry_vga (List.replicate m 10) (by
    rw [hafter₃]
    show n + m + 1 < 2 ^ 64
    omega)).2
  rw [hafter₃] at h₄
  have hx₄ := history_newlines h₃ (show n % 256 + m < 256 by omega)
    (show n + m + 1 < 2 ^ 64 by omega)
  rw [hx] at hx₄
  rw [performAll_newlines h₃ (show n + m + 1 < 2 ^ 64 by omega)] at hdiffers
  generalize (writeLoop vga (List.replicate m 10) s₃).2 = s₄ at h₄ hx₄ hdiffers
  -- the last two lines
  have hready : (s₄.consoleNewline vga).cursorReady = true :=
    (consoleNewline_text vga s₄).ready.trans h₄.ready
  have hfeed : writtenText [10] 1 = [10] := by decide
  have hend : s₄.performAll vga [.write [10] 1, .write [10] 1] =
      (s₄.consoleNewline vga).consoleNewline vga := by
    rw [performAll_write _ hfeed, writeLoop_one (putchar_newline h₄.ready),
      performAll_write _ hfeed, writeLoop_one (putchar_newline hready), performAll_nil]
  rw [hend] at hdiffers
  obtain ⟨hcell, hchar⟩ := cells_wrapped h₄ (show n + m = 2 ^ 64 - 2 by omega)
  rw [hcell, hchar, hx₄] at hdiffers
  exact absurd hdiffers (by decide)

end TextConsole

end Scdk
