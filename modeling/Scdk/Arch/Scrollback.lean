import Scdk.Arch.ConsoleTabs

/-! # Bounds of the scrollback

    The view of the console lies between the oldest line of the history and the last
    view, both of which move with every new line.  This file proves that it stays
    there, whatever the line counter is, that the history is only accessed inside its
    array, and what scrolling does to the view.

    * `ScrollGeometry`: the screens that are considered,
    * `Bounded`: the invariant; `Bounded.newline`, `Bounded.putchar`, …: it is kept,
    * `AgreeInside`: consoles that differ outside of the array only;
      `AgreeInside.performAll`: whatever is outside, the calls do not see it,
    * `SameOutside`: nothing has changed there; `Bounded.performAll_outside`: the calls
      do not write there,
    * `scrolledTop_eq`: scrolling in integers,
    * `scrollback_bounded`: all this after any calls. -/

namespace Scdk

/-- A screen of 32 bits a pixel with at least four columns and 1 to 256 rows. -/
structure ScrollGeometry (fb : Framebuffer) : Prop where
  depth : fb.bpp = 32
  wide : 4 ≤ fb.consoleVisibleColumns.toNat
  high : 1 ≤ fb.consoleRows.toNat
  short : fb.consoleRows.toNat ≤ 256

namespace TextConsole

variable {fb : Framebuffer} {s t : TextConsole}

/-! ## The view -/

/-- With no more rows than the history has, its oldest line is not below the last
    view, whatever the line counter is. -/
theorem oldest_le_bottom (hg : ScrollGeometry fb) (s : TextConsole) :
    s.oldestHistoryLine.toNat ≤ (s.bottomViewTopLine fb).toNat := by
  have hhistory : consoleHistoryRows.toNat = 256 := rfl
  have hshort := hg.short
  unfold oldestHistoryLine bottomViewTopLine
  split
  · next hmany =>
    have hlt := UInt64.lt_iff_toNat_lt.mp hmany
    have hnot : ¬ (fb.consoleRows = 0 ∨ s.currentLine + 1 ≤ fb.consoleRows) := by
      rintro (hzero | hle)
      · have hhigh := hg.high
        simp [hzero] at hhigh
      · have hle := UInt64.le_iff_toNat_le.mp hle
        omega
    have hrows : fb.consoleRows ≤ s.currentLine + 1 := UInt64.le_of_lt (UInt64.not_le.mp (not_or.mp hnot).2)
    rw [if_neg hnot, UInt64.toNat_sub_of_le _ _ (UInt64.le_of_lt hmany),
      UInt64.toNat_sub_of_le _ _ hrows]
    omega
  · exact Nat.zero_le _

/-- The view is between the two. -/
structure ViewBounded (fb : Framebuffer) (s : TextConsole) : Prop where
  oldest : s.oldestHistoryLine.toNat ≤ s.viewTopLine.toNat
  bottom : s.viewTopLine.toNat ≤ (s.bottomViewTopLine fb).toNat

theorem clamp_bounded (hg : ScrollGeometry fb) (s : TextConsole) :
    ViewBounded fb (s.clampConsoleView fb) := by
  have hle := oldest_le_bottom hg s
  obtain ⟨top, hsets⟩ := clamp_sets fb s
  have htop : top = (s.clampConsoleView fb).viewTopLine := by rw [hsets]
  unfold clampConsoleView at htop
  simp only [UInt64.lt_iff_toNat_lt] at htop
  rw [hsets]
  constructor
  · change s.oldestHistoryLine.toNat ≤ top.toNat
    rw [htop]
    split <;> split <;> omega
  · change top.toNat ≤ (s.bottomViewTopLine fb).toNat
    rw [htop]
    split <;> split <;> omega

/-- Clamping a view that is in its bounds changes nothing. -/
theorem ViewBounded.clamp (h : ViewBounded fb s) : s.clampConsoleView fb = s := by
  have hold := h.oldest
  have hbottom := h.bottom
  have htop : (s.clampConsoleView fb).viewTopLine = s.viewTopLine := by
    apply UInt64.toNat_inj.mp
    unfold clampConsoleView
    simp only [UInt64.lt_iff_toNat_lt]
    split <;> split <;> omega
  calc s.clampConsoleView fb
      = { s with viewTopLine := (s.clampConsoleView fb).viewTopLine } := rfl
    _ = s := by rw [htop]

/-! ## The invariant -/

/-- The view is in its bounds and the cursor on the screen. -/
structure Bounded (fb : Framebuffer) (s : TextConsole) : Prop extends ViewBounded fb s where
  ready : s.cursorReady = true
  column : s.cursorColumn.toNat ≤ fb.consoleVisibleColumns.toNat

theorem Bounded.withCells (h : Bounded fb s) (cells : UInt64 → UInt64 → UInt8) :
    Bounded fb { s with cells := cells } := ⟨⟨h.oldest, h.bottom⟩, h.ready, h.column⟩

theorem Bounded.withColumn (h : Bounded fb s) {column : UInt64}
    (hcolumn : column.toNat ≤ fb.consoleVisibleColumns.toNat) :
    Bounded fb { s with cursorColumn := column } := ⟨⟨h.oldest, h.bottom⟩, h.ready, hcolumn⟩

/-- Drawing the console again changes its cells only. -/
theorem Bounded.render (h : Bounded fb s) : Bounded fb (s.renderConsole fb) := by
  unfold renderConsole
  split
  · exact h
  split
  · exact h
  · rw [h.clamp]
    have heq : (s.drawHistory fb).updateConsoleCursorPixels fb = s.drawHistory fb :=
      updateConsoleCursorPixels_eq h.column
    rw [heq]
    exact h.withCells _

theorem Bounded.drawCell (h : Bounded fb s) (line column : UInt64) :
    Bounded fb (s.drawHistoryCell fb line column) := by
  rw [drawHistoryCell_eq]
  exact h.withCells _

theorem Bounded.ensure (h : Bounded fb s) : s.ensureConsoleCursor fb = s := if_pos h.ready

/-- The view that a new line chooses. -/
theorem Bounded.nextView (hg : ScrollGeometry fb) (h : Bounded fb s) : Bounded fb (s.nextView fb) :=
  ⟨clamp_bounded hg _, h.ready, Nat.zero_le _⟩

theorem Bounded.newline (hg : ScrollGeometry fb) (h : Bounded fb s) :
    Bounded fb (s.consoleNewline fb) := by
  have hview := h.nextView hg
  rw [consoleNewline_eq]
  unfold drawNextView
  split
  · rw [scrollConsolePixelsUp_eq, updateConsoleCursorPixels_eq (Nat.zero_le _)]
    exact hview.withCells _
  split
  · exact hview.render
  · rw [updateConsoleCursorPixels_eq (Nat.zero_le _)]
    exact hview

theorem Bounded.carriageReturn (h : Bounded fb s) : Bounded fb (s.consoleCarriageReturn fb) := by
  unfold consoleCarriageReturn
  rw [updateConsoleCursorPixels_eq (Nat.zero_le _)]
  exact h.withColumn (Nat.zero_le _)

theorem toNat_pred_column (hne : s.cursorColumn ≠ 0) :
    (s.cursorColumn - 1).toNat + 1 = s.cursorColumn.toNat := by
  have hpos : 0 < s.cursorColumn.toNat := Nat.pos_iff_ne_zero.mpr fun hzero =>
    hne (UInt64.toNat_inj.mp hzero)
  have hle : (1 : UInt64) ≤ s.cursorColumn := UInt64.le_iff_toNat_le.mpr hpos
  rw [UInt64.toNat_sub_of_le _ _ hle]
  exact Nat.sub_add_cancel hpos

/-- The console in which `console_backspace` draws. -/
def erased (s : TextConsole) : TextConsole :=
  ({ s with cursorColumn := s.cursorColumn - 1 } : TextConsole).setHistory s.currentLine
    (s.cursorColumn - 1) blank

theorem consoleBackspace_eq (hne : s.cursorColumn ≠ 0) : s.consoleBackspace fb =
    (s.erased.drawHistoryCell fb s.currentLine (s.cursorColumn - 1)).updateConsoleCursorPixels fb :=
  if_neg hne

theorem Bounded.erased (h : Bounded fb s) (hne : s.cursorColumn ≠ 0) : Bounded fb s.erased := by
  have hpred := toNat_pred_column hne
  have hcolumn := h.column
  exact ⟨⟨h.oldest, h.bottom⟩, h.ready, show (s.cursorColumn - 1).toNat ≤ _ by omega⟩

theorem Bounded.backspace (h : Bounded fb s) : Bounded fb (s.consoleBackspace fb) := by
  by_cases hne : s.cursorColumn = 0
  · have hsame : s.consoleBackspace fb = s := if_pos hne
    rw [hsame]
    exact h
  · have hdrawn := (h.erased hne).drawCell s.currentLine (s.cursorColumn - 1)
    rw [consoleBackspace_eq hne, updateConsoleCursorPixels_eq hdrawn.column]
    exact hdrawn

theorem Bounded.putView (hg : ScrollGeometry fb) (h : Bounded fb s) (ch : UInt8) :
    Bounded fb (s.putView fb ch) := by
  have hcolumn : (s.putView fb ch).cursorColumn = s.cursorColumn := putView_column ch
  refine ⟨clamp_bounded hg _, ?_, by rw [hcolumn]; exact h.column⟩
  unfold TextConsole.putView
  dsimp only
  split
  · exact h.ready
  · exact h.ready

theorem Bounded.drawPut (h : Bounded fb t) : Bounded fb (s.drawPut fb t) := by
  unfold TextConsole.drawPut
  split
  · exact h.render
  · exact h.drawCell _ _

theorem Bounded.putHere (hg : ScrollGeometry fb) (h : Bounded fb s) (ch : UInt8)
    (hroom : s.cursorColumn.toNat < fb.consoleVisibleColumns.toNat) :
    Bounded fb (s.putHere fb ch) := by
  have hview := h.putView hg ch
  have hdrawn : Bounded fb (s.drawPut fb (s.putView fb ch)) := hview.drawPut
  have hcolumn : (s.drawPut fb (s.putView fb ch)).cursorColumn = s.cursorColumn :=
    (drawPut_column hview.column).trans (putView_column ch)
  rw [putHere_draw]
  generalize s.drawPut fb (s.putView fb ch) = t at hdrawn hcolumn ⊢
  have hsucc : (t.cursorColumn + 1).toNat ≤ fb.consoleVisibleColumns.toNat := by
    rw [hcolumn, toNat_succ_column hroom]
    exact hroom
  have hnext := hdrawn.withColumn hsucc
  rw [updateConsoleCursorPixels_eq hnext.column]
  exact hnext

theorem ScrollGeometry.columns_ne (hg : ScrollGeometry fb) : fb.consoleVisibleColumns ≠ 0 := by
  intro hzero
  have hwide := hg.wide
  simp [hzero] at hwide

/-- Behind a new line there is room. -/
theorem newline_room (hg : ScrollGeometry fb) (s : TextConsole) :
    (s.consoleNewline fb).cursorColumn.toNat < fb.consoleVisibleColumns.toNat := by
  have hwide := hg.wide
  rw [consoleNewline_column]
  exact Nat.lt_of_lt_of_le (by decide) hwide

theorem Bounded.putGlyph (hg : ScrollGeometry fb) (h : Bounded fb s) (ch : UInt8) :
    Bounded fb (s.putGlyph fb ch).2 := by
  rw [putGlyph_eq (ScrollGeometry.columns_ne hg)]
  dsimp only
  split
  · exact (h.newline hg).putHere hg ch (newline_room hg s)
  · next hroom =>
    rw [UInt64.le_iff_toNat_le] at hroom
    exact h.putHere hg ch (by omega)

theorem Bounded.putcharNoTab (hg : ScrollGeometry fb) (h : Bounded fb s) (ch : UInt8) :
    Bounded fb (s.putcharNoTab fb ch).2 := by
  unfold TextConsole.putcharNoTab
  rw [if_neg (not_not.mpr hg.depth), h.ensure]
  dsimp only
  split
  · exact h.newline hg
  split
  · exact h.carriageReturn
  split
  · exact h.backspace
  · exact h.putGlyph hg ch

theorem Bounded.tabLoop (hg : ScrollGeometry fb) (h : Bounded fb s) (rounds : Nat) :
    Bounded fb (tabLoop fb rounds s).2 := by
  induction rounds generalizing s with
  | zero => exact h
  | succ rounds ih =>
    have hput := h.putcharNoTab hg blank
    rw [TextConsole.tabLoop]
    rcases hrun : s.putcharNoTab fb blank with ⟨_ | _, t⟩
    · rw [hrun] at hput
      exact hput
    · rw [hrun] at hput
      dsimp only
      split
      · exact ih hput
      · exact hput

/-- **A character** keeps the bounds. -/
theorem Bounded.putchar (hg : ScrollGeometry fb) (h : Bounded fb s) (ch : UInt8) :
    Bounded fb (s.fbTextPutchar fb ch).2 := by
  unfold fbTextPutchar
  split
  · rw [if_neg (not_not.mpr hg.depth), h.ensure]
    exact h.tabLoop hg 8
  · exact h.putcharNoTab hg ch

/-- **A text** keeps them: by induction on its characters. -/
theorem Bounded.write (hg : ScrollGeometry fb) (h : Bounded fb s) (text : List UInt8) :
    Bounded fb (writeLoop fb text s).2 := by
  induction text generalizing s with
  | nil => exact h
  | cons ch text ih =>
    have hput := h.putchar hg ch
    rw [writeLoop]
    rcases hrun : s.fbTextPutchar fb ch with ⟨_ | _, t⟩
    · rw [hrun] at hput
      exact hput
    · rw [hrun] at hput
      exact ih hput

/-- The console after `scdk_fb_text_scroll` has moved the view. -/
theorem Bounded.moved (hg : ScrollGeometry fb) (h : Bounded fb s) (top : UInt64) :
    Bounded fb ({ s with viewTopLine := top }.clampConsoleView fb) := by
  have hview := clamp_bounded hg { s with viewTopLine := top }
  obtain ⟨top', hsets⟩ := clamp_sets fb { s with viewTopLine := top }
  rw [hsets] at hview ⊢
  exact ⟨hview, h.ready, h.column⟩

/-- **Scrolling** keeps them. -/
theorem Bounded.scroll (hg : ScrollGeometry fb) (h : Bounded fb s) (lines : Int32) :
    Bounded fb (s.fbTextScroll fb lines).2 := by
  unfold fbTextScroll
  rw [if_neg (not_not.mpr hg.depth), h.ensure]
  dsimp only
  split
  · exact h
  have hmoved := h.moved hg (s.scrolledTop fb lines)
  dsimp only
  split
  · exact hmoved.render
  · exact hmoved

theorem Bounded.perform (hg : ScrollGeometry fb) (h : Bounded fb s) (call : Call) :
    Bounded fb (s.perform fb call).2 := by
  cases call with
  | write buf len => exact h.write hg _
  | scroll lines => exact h.scroll hg lines

/-- **Calls** keep them: by induction on the calls. -/
theorem Bounded.performAll (hg : ScrollGeometry fb) (h : Bounded fb s) (calls : List Call) :
    Bounded fb (s.performAll fb calls) := by
  induction calls generalizing s with
  | nil => exact h
  | cons call calls ih => exact ih (h.perform hg call)

/-- Clearing the screen, in any state. -/
theorem bounded_clear (hg : ScrollGeometry fb) (s : TextConsole) : Bounded fb (s.fbTextClear fb).2 := by
  unfold fbTextClear
  rw [if_neg (not_not.mpr hg.depth), updateConsoleCursorPixels_eq (Nat.zero_le _)]
  have holdest : (if consoleHistoryRows < (0 : UInt64) + 1 then (0 : UInt64) + 1 - consoleHistoryRows
      else 0).toNat ≤ (0 : UInt64).toNat := by decide
  exact ⟨⟨holdest, Nat.zero_le _⟩, rfl, Nat.zero_le _⟩

/-! ## Rounds of a tab -/

/-- The loop for a tab has ended after eight rounds. -/
theorem Bounded.tabRun_eq (hg : ScrollGeometry fb) (h : Bounded fb s) :
    tabRun fb 8 s = some (TextConsole.tabLoop fb 8 s) := by
  obtain ⟨t, ht⟩ := tabRun_ready hg.depth hg.wide h.ready h.column (TextCursor.tabWidth_le _ _)
  rw [ht, tabLoop_of_run ht]

/-- **Rounds.**  The bound on the rounds of a tab is never reached, so `writeLoop` is
    the loop of the source. -/
theorem Bounded.writeRun_eq (hg : ScrollGeometry fb) (h : Bounded fb s) (text : List UInt8) :
    writeRun fb 8 text s = some (writeLoop fb text s) := by
  induction text generalizing s with
  | nil => rfl
  | cons ch text ih =>
    have hput : putcharRun fb 8 s ch = some (s.fbTextPutchar fb ch) := by
      unfold putcharRun fbTextPutchar
      split
      · rw [if_neg (not_not.mpr hg.depth), if_neg (not_not.mpr hg.depth), h.ensure]
        exact h.tabRun_eq hg
      · rfl
    have hkept := h.putchar hg ch
    rw [writeRun, writeLoop, hput]
    rcases hrun : s.fbTextPutchar fb ch with ⟨_ | _, t⟩
    · rfl
    · rw [hrun] at hkept
      exact ih hkept

/-! ## The array of the history -/

/-- The element is one of `console_history`. -/
def InHistory (row column : UInt64) : Prop := row.toNat < 256 ∧ column.toNat < 160

/-- A line is kept in a row of the array. -/
theorem inHistory_of_column (line : UInt64) {column : UInt64} (h : column.toNat < 160) :
    InHistory (line % consoleHistoryRows) column := by
  refine ⟨?_, h⟩
  rw [UInt64.toNat_mod]
  exact Nat.mod_lt _ (by decide)

/-- The consoles are the same but for what is outside of the array. -/
structure AgreeInside (s t : TextConsole) : Prop where
  history : ∀ row column, InHistory row column → t.history row column = s.history row column
  rest : t = { s with history := t.history }

/-- Nothing outside of the array has changed. -/
def SameOutside (s t : TextConsole) : Prop :=
  ∀ row column, ¬ InHistory row column → t.history row column = s.history row column

/-! ### Reads -/

section reads

variable {s' : TextConsole} (h : AgreeInside s s')

include h

theorem AgreeInside.line : s'.currentLine = s.currentLine := by rw [h.rest]

theorem AgreeInside.cursor : s'.cursorColumn = s.cursorColumn := by rw [h.rest]

theorem AgreeInside.top : s'.viewTopLine = s.viewTopLine := by rw [h.rest]

theorem AgreeInside.ready : s'.cursorReady = s.cursorReady := by rw [h.rest]

theorem AgreeInside.withColumn (column : UInt64) :
    AgreeInside { s with cursorColumn := column } { s' with cursorColumn := column } :=
  ⟨h.history, by rw [h.rest]⟩

theorem AgreeInside.withTop (top : UInt64) :
    AgreeInside { s with viewTopLine := top } { s' with viewTopLine := top } :=
  ⟨h.history, by rw [h.rest]⟩

theorem AgreeInside.withLine (line : UInt64) :
    AgreeInside { s with currentLine := line, cursorColumn := 0 }
      { s' with currentLine := line, cursorColumn := 0 } :=
  ⟨h.history, by rw [h.rest]⟩

/-- A function that changes the history only, and in the array the same way. -/
theorem AgreeInside.write {hist hist' : UInt64 → UInt64 → UInt8}
    (hin : ∀ row column, InHistory row column → hist' row column = hist row column) :
    AgreeInside { s with history := hist } { s' with history := hist' } :=
  ⟨hin, by rw [h.rest]⟩

theorem AgreeInside.setHistory (line column : UInt64) (ch : UInt8) :
    AgreeInside (s.setHistory line column ch) (s'.setHistory line column ch) := by
  apply h.write
  intro row col hin
  rw [h.history row col hin]

theorem AgreeInside.clearHistoryRow (line : UInt64) :
    AgreeInside (s.clearHistoryRow line) (s'.clearHistoryRow line) := by
  apply h.write
  intro row col hin
  rw [h.history row col hin]

theorem AgreeInside.clearHistory : AgreeInside s.clearHistory s'.clearHistory := by
  apply h.write
  intro row col hin
  rw [h.history row col hin]

theorem AgreeInside.clamp : AgreeInside (s.clampConsoleView fb) (s'.clampConsoleView fb) :=
  ⟨h.history, by rw [h.rest]; rfl⟩

theorem AgreeInside.cursorPixels :
    AgreeInside (s.updateConsoleCursorPixels fb) (s'.updateConsoleCursorPixels fb) :=
  ⟨h.history, by rw [h.rest]; rfl⟩

/-- **Reading**: `history_char_at` looks at elements of the array only. -/
theorem AgreeInside.charAt (line column : UInt64) :
    s'.historyCharAt line column = s.historyCharAt line column := by
  have hold : s'.oldestHistoryLine = s.oldestHistoryLine := by
    unfold oldestHistoryLine
    rw [h.line]
  unfold historyCharAt
  rw [hold, h.line]
  split
  · rfl
  · next hin =>
    rw [not_or, UInt64.not_le, UInt64.lt_iff_toNat_lt] at hin
    exact h.history _ _ (inHistory_of_column line hin.1)

theorem AgreeInside.drawHistory : AgreeInside (s.drawHistory fb) (s'.drawHistory fb) := by
  have hcells : (s'.drawHistory fb).cells = (s.drawHistory fb).cells := by
    funext r c
    unfold TextConsole.drawHistory
    dsimp only
    rw [h.top, h.charAt]
  have hsets : s'.drawHistory fb = { s' with cells := (s'.drawHistory fb).cells } := rfl
  rw [hsets, hcells]
  exact ⟨h.history, by rw [h.rest]; rfl⟩

theorem AgreeInside.drawCell (line column : UInt64) :
    AgreeInside (s.drawHistoryCell fb line column) (s'.drawHistoryCell fb line column) := by
  have hrow : s'.historyLineVisible fb line = s.historyLineVisible fb line := by
    unfold historyLineVisible
    rw [h.top]
  unfold drawHistoryCell
  rw [hrow]
  split
  · exact h
  split
  · exact h
  · rw [h.charAt]
    exact ⟨h.history, by rw [h.rest]; rfl⟩

theorem AgreeInside.render : AgreeInside (s.renderConsole fb) (s'.renderConsole fb) := by
  unfold renderConsole
  split
  · exact h
  split
  · exact h
  · exact h.clamp.drawHistory.cursorPixels

theorem AgreeInside.atBottom : s'.viewIsAtBottom fb = s.viewIsAtBottom fb := by
  unfold viewIsAtBottom bottomViewTopLine
  rw [h.top, h.line]

theorem AgreeInside.nextView : AgreeInside (s.nextView fb) (s'.nextView fb) := by
  have hfresh : AgreeInside s.freshLine s'.freshLine := by
    unfold freshLine
    rw [h.line]
    exact (h.withLine _).clearHistoryRow _
  unfold TextConsole.nextView
  rw [h.atBottom, h.top, show s'.freshLine.bottomViewTopLine fb = s.freshLine.bottomViewTopLine fb by
    unfold bottomViewTopLine
    rw [hfresh.line]]
  exact (hfresh.withTop _).clamp

theorem AgreeInside.drawNextView {t' : TextConsole} (ht : AgreeInside t t') :
    AgreeInside (s.drawNextView fb t) (s'.drawNextView fb t') := by
  unfold TextConsole.drawNextView
  rw [h.atBottom, h.top, ht.top]
  split
  · have hscroll : AgreeInside (t.scrollConsolePixelsUp fb) (t'.scrollConsolePixelsUp fb) := by
      unfold scrollConsolePixelsUp
      dsimp only
      split
      · exact ht
      · exact ⟨ht.history, by rw [ht.rest]⟩
    exact hscroll.cursorPixels
  split
  · exact ht.render
  · exact ht.cursorPixels

theorem AgreeInside.newline : AgreeInside (s.consoleNewline fb) (s'.consoleNewline fb) := by
  rw [consoleNewline_eq, consoleNewline_eq]
  exact h.drawNextView h.nextView

theorem AgreeInside.backspace : AgreeInside (s.consoleBackspace fb) (s'.consoleBackspace fb) := by
  by_cases hzero : s.cursorColumn = 0
  · have hzero' : s'.cursorColumn = 0 := h.cursor.trans hzero
    have hsame : ∀ u : TextConsole, u.cursorColumn = 0 → u.consoleBackspace fb = u := fun _ hu => if_pos hu
    rw [hsame s hzero, hsame s' hzero']
    exact h
  · have hne : s'.cursorColumn ≠ 0 := fun h' => hzero (h.cursor.symm.trans h')
    have herased : AgreeInside s.erased s'.erased := by
      have hback : s'.erased = { s' with cursorColumn := s.cursorColumn - 1 }.setHistory s.currentLine
          (s.cursorColumn - 1) blank := by
        unfold erased
        rw [h.cursor, h.line]
      rw [hback]
      exact (h.withColumn _).setHistory _ _ _
    rw [consoleBackspace_eq hzero, consoleBackspace_eq hne, h.cursor, h.line]
    exact (herased.drawCell _ _).cursorPixels

theorem AgreeInside.putHere (ch : UInt8) : AgreeInside (s.putHere fb ch) (s'.putHere fb ch) := by
  have hview : AgreeInside (s.putView fb ch) (s'.putView fb ch) := by
    have hset := h.setHistory s.currentLine s.cursorColumn ch
    unfold putView
    rw [h.atBottom, h.line, h.cursor]
    dsimp only
    split
    · have hbottom : (s'.setHistory s.currentLine s.cursorColumn ch).bottomViewTopLine fb =
          (s.setHistory s.currentLine s.cursorColumn ch).bottomViewTopLine fb := by
        unfold bottomViewTopLine
        rw [hset.line]
      rw [hbottom]
      exact (hset.withTop _).clamp
    · exact hset.clamp
  have hdrawn : AgreeInside (s.drawPut fb (s.putView fb ch)) (s'.drawPut fb (s'.putView fb ch)) := by
    unfold drawPut
    rw [hview.top, h.top, hview.line, hview.cursor]
    split
    · exact hview.render
    · exact hview.drawCell _ _
  rw [putHere_draw, putHere_draw, hdrawn.cursor]
  exact (hdrawn.withColumn _).cursorPixels

theorem AgreeInside.ensure : AgreeInside (s.ensureConsoleCursor fb) (s'.ensureConsoleCursor fb) := by
  unfold ensureConsoleCursor
  rw [h.ready]
  split
  · exact h
  · exact AgreeInside.cursorPixels ⟨h.clearHistory.history, by rw [h.rest]; rfl⟩

end reads

/-- The same answer, and consoles that agree. -/
def AgreeOut (out out' : Except Err Unit × TextConsole) : Prop := out'.1 = out.1 ∧ AgreeInside out.2 out'.2

section calls

variable {s' : TextConsole} (h : AgreeInside s s')

include h

theorem AgreeInside.putcharNoTab (ch : UInt8) : AgreeOut (s.putcharNoTab fb ch) (s'.putcharNoTab fb ch) := by
  have hensure : AgreeInside (s.ensureConsoleCursor fb) (s'.ensureConsoleCursor fb) := h.ensure
  unfold TextConsole.putcharNoTab
  split
  · exact ⟨rfl, h⟩
  dsimp only
  split
  · exact ⟨rfl, hensure.newline⟩
  split
  · exact ⟨rfl, (hensure.withColumn 0).cursorPixels⟩
  split
  · exact ⟨rfl, hensure.backspace⟩
  · generalize s.ensureConsoleCursor fb = u at hensure
    generalize s'.ensureConsoleCursor fb = u' at hensure
    by_cases hcolumns : fb.consoleVisibleColumns = 0
    · have hnone : ∀ v : TextConsole, v.putGlyph fb ch = (.error .notsup, v) := fun v => if_pos hcolumns
      rw [hnone, hnone]
      exact ⟨rfl, hensure⟩
    · rw [putGlyph_eq hcolumns, putGlyph_eq hcolumns, hensure.cursor]
      refine ⟨rfl, ?_⟩
      dsimp only
      split
      · exact hensure.newline.putHere ch
      · exact hensure.putHere ch

omit h in
/-- The rounds of a tab: by induction on them. -/
theorem AgreeInside.tabLoop (h : AgreeInside s s') (rounds : Nat) :
    AgreeOut (tabLoop fb rounds s) (tabLoop fb rounds s') := by
  induction rounds generalizing s s' with
  | zero => exact ⟨rfl, h⟩
  | succ rounds ih =>
    obtain ⟨hanswer, hagree⟩ : AgreeOut (s.putcharNoTab fb blank) (s'.putcharNoTab fb blank) :=
      h.putcharNoTab blank
    rw [TextConsole.tabLoop, TextConsole.tabLoop]
    generalize s.putcharNoTab fb blank = out at hanswer hagree ⊢
    generalize s'.putcharNoTab fb blank = out' at hanswer hagree ⊢
    obtain ⟨r, t⟩ := out
    obtain ⟨r', t'⟩ := out'
    obtain rfl : r' = r := hanswer
    cases r' with
    | error e => exact ⟨rfl, hagree⟩
    | ok _ =>
      dsimp only
      rw [show t'.cursorColumn = t.cursorColumn from hagree.cursor]
      split
      · exact ih hagree
      · exact ⟨rfl, hagree⟩

theorem AgreeInside.putchar (ch : UInt8) : AgreeOut (s.fbTextPutchar fb ch) (s'.fbTextPutchar fb ch) := by
  unfold fbTextPutchar
  split
  · split
    · exact ⟨rfl, h⟩
    · exact h.ensure.tabLoop 8
  · exact h.putcharNoTab ch

omit h in
/-- The characters of a text: by induction on them. -/
theorem AgreeInside.writeLoop (h : AgreeInside s s') (text : List UInt8) :
    AgreeOut (writeLoop fb text s) (writeLoop fb text s') := by
  induction text generalizing s s' with
  | nil => exact ⟨rfl, h⟩
  | cons ch text ih =>
    obtain ⟨hanswer, hagree⟩ : AgreeOut (s.fbTextPutchar fb ch) (s'.fbTextPutchar fb ch) := h.putchar ch
    rw [TextConsole.writeLoop, TextConsole.writeLoop]
    generalize s.fbTextPutchar fb ch = out at hanswer hagree ⊢
    generalize s'.fbTextPutchar fb ch = out' at hanswer hagree ⊢
    obtain ⟨r, t⟩ := out
    obtain ⟨r', t'⟩ := out'
    obtain rfl : r' = r := hanswer
    cases r' with
    | error e => exact ⟨rfl, hagree⟩
    | ok _ => exact ih hagree

theorem AgreeInside.scroll (lines : Int32) :
    AgreeOut (s.fbTextScroll fb lines) (s'.fbTextScroll fb lines) := by
  have hensure : AgreeInside (s.ensureConsoleCursor fb) (s'.ensureConsoleCursor fb) := h.ensure
  unfold fbTextScroll
  split
  · exact ⟨rfl, h⟩
  dsimp only
  generalize s.ensureConsoleCursor fb = u at hensure
  generalize s'.ensureConsoleCursor fb = u' at hensure
  split
  · exact ⟨rfl, hensure⟩
  · have hscrolled : u'.scrolledTop fb lines = u.scrolledTop fb lines := by
      unfold scrolledTop oldestHistoryLine bottomViewTopLine
      rw [hensure.top, hensure.line]
    rw [hscrolled]
    have hmoved : AgreeInside ({ u with viewTopLine := u.scrolledTop fb lines }.clampConsoleView fb)
        ({ u' with viewTopLine := u.scrolledTop fb lines }.clampConsoleView fb) :=
      (hensure.withTop _).clamp
    refine ⟨rfl, ?_⟩
    dsimp only
    rw [hmoved.top, hensure.top]
    split
    · exact hmoved.render
    · exact hmoved

/-- **A call** does not see what is outside of the array. -/
theorem AgreeInside.perform (call : Call) : AgreeOut (s.perform fb call) (s'.perform fb call) := by
  cases call with
  | write buf len => exact h.writeLoop _
  | scroll lines => exact h.scroll lines

/-- **Calls** do not see it: by induction on the calls. -/
theorem AgreeInside.performAll (calls : List Call) :
    AgreeInside (s.performAll fb calls) (s'.performAll fb calls) := by
  induction calls generalizing s s' with
  | nil => exact h
  | cons call calls ih => exact ih (h.perform call).2

theorem AgreeInside.clear : AgreeOut (s.fbTextClear fb) (s'.fbTextClear fb) := by
  unfold fbTextClear
  split
  · exact ⟨rfl, h⟩
  · exact ⟨rfl, AgreeInside.cursorPixels ⟨h.clearHistory.history, rfl⟩⟩

end calls


/-! ### Writes -/

theorem SameOutside.trans {u : TextConsole} (h : SameOutside s t) (h' : SameOutside t u) : SameOutside s u :=
  fun row column hout => (h' row column hout).trans (h row column hout)

theorem sameOutside_of_eq (h : t.history = s.history) : SameOutside s t := fun _ _ _ => by rw [h]

/-- **Writing** a character in a column of the array. -/
theorem sameOutside_setHistory (line : UInt64) {column : UInt64} (hcolumn : column.toNat < 160) (ch : UInt8) :
    SameOutside s (s.setHistory line column ch) := by
  intro row col hout
  refine if_neg ?_
  rintro ⟨rfl, rfl⟩
  exact hout (inHistory_of_column line hcolumn)

theorem sameOutside_clearHistoryRow (s : TextConsole) (line : UInt64) :
    SameOutside s (s.clearHistoryRow line) := by
  intro row col hout
  refine if_neg ?_
  rintro ⟨rfl, hcol⟩
  exact hout (inHistory_of_column line (UInt64.lt_iff_toNat_lt.mp hcol))

theorem sameOutside_clearHistory (s : TextConsole) : SameOutside s s.clearHistory := by
  intro row col hout
  refine if_neg ?_
  rintro ⟨hrow, hcol⟩
  exact hout ⟨UInt64.lt_iff_toNat_lt.mp hrow, UInt64.lt_iff_toNat_lt.mp hcol⟩

theorem newline_outside (fb : Framebuffer) (s : TextConsole) : SameOutside s (s.consoleNewline fb) := by
  have hfresh : SameOutside s s.freshLine :=
    sameOutside_clearHistoryRow { s with currentLine := s.currentLine + 1, cursorColumn := 0 } _
  exact hfresh.trans (sameOutside_of_eq (consoleNewline_text fb s).history)

theorem Bounded.backspace_outside (h : Bounded fb s) : SameOutside s (s.consoleBackspace fb) := by
  have hmax := TextGeometry.columns_le fb
  have hcolumn := h.column
  by_cases hne : s.cursorColumn = 0
  · have hsame : s.consoleBackspace fb = s := if_pos hne
    rw [hsame]
    exact sameOutside_of_eq rfl
  · have hpred := toNat_pred_column hne
    have herased : SameOutside s s.erased :=
      sameOutside_setHistory (s := { s with cursorColumn := s.cursorColumn - 1 }) s.currentLine
        (by omega : (s.cursorColumn - 1).toNat < 160) blank
    rw [consoleBackspace_eq hne, drawHistoryCell_eq]
    exact herased.trans (sameOutside_of_eq rfl)

/-- A character is put in a column of the screen. -/
theorem putHere_outside (ch : UInt8) (hroom : s.cursorColumn.toNat < fb.consoleVisibleColumns.toNat) :
    SameOutside s (s.putHere fb ch) := by
  have hmax := TextGeometry.columns_le fb
  have hset : SameOutside s (s.setHistory s.currentLine s.cursorColumn ch) :=
    sameOutside_setHistory s.currentLine (by omega) ch
  have hview : (s.putView fb ch).history = (s.setHistory s.currentLine s.cursorColumn ch).history := by
    unfold putView
    dsimp only
    split <;> rfl
  have hdrawn : (s.drawPut fb (s.putView fb ch)).history = (s.putView fb ch).history := by
    unfold drawPut
    split
    · exact (renderConsole_text fb _).history
    · rw [drawHistoryCell_eq]
  have hput : (s.putHere fb ch).history = (s.setHistory s.currentLine s.cursorColumn ch).history := by
    rw [← hview, ← hdrawn, putHere_draw]
    generalize s.drawPut fb (s.putView fb ch) = t
    rfl
  exact hset.trans (sameOutside_of_eq hput)

theorem putGlyph_outside (hg : ScrollGeometry fb) (s : TextConsole) (ch : UInt8) :
    SameOutside s (s.putGlyph fb ch).2 := by
  rw [putGlyph_eq (ScrollGeometry.columns_ne hg)]
  dsimp only
  split
  · exact (newline_outside fb s).trans (putHere_outside ch (newline_room hg s))
  · next hroom =>
    rw [UInt64.le_iff_toNat_le] at hroom
    exact putHere_outside ch (by omega)

theorem Bounded.putcharNoTab_outside (hg : ScrollGeometry fb) (h : Bounded fb s) (ch : UInt8) :
    SameOutside s (s.putcharNoTab fb ch).2 := by
  unfold TextConsole.putcharNoTab
  rw [if_neg (not_not.mpr hg.depth), h.ensure]
  dsimp only
  split
  · exact newline_outside fb s
  split
  · exact sameOutside_of_eq rfl
  split
  · exact h.backspace_outside
  · exact putGlyph_outside hg s ch

theorem Bounded.tabLoop_outside (hg : ScrollGeometry fb) (h : Bounded fb s) (rounds : Nat) :
    SameOutside s (TextConsole.tabLoop fb rounds s).2 := by
  induction rounds generalizing s with
  | zero => exact sameOutside_of_eq rfl
  | succ rounds ih =>
    have hput := h.putcharNoTab hg blank
    have hout := h.putcharNoTab_outside hg blank
    rw [TextConsole.tabLoop]
    rcases hrun : s.putcharNoTab fb blank with ⟨_ | _, t⟩
    · rw [hrun] at hout
      exact hout
    · rw [hrun] at hput hout
      dsimp only
      split
      · exact hout.trans (ih hput)
      · exact hout

theorem Bounded.putchar_outside (hg : ScrollGeometry fb) (h : Bounded fb s) (ch : UInt8) :
    SameOutside s (s.fbTextPutchar fb ch).2 := by
  unfold fbTextPutchar
  split
  · rw [if_neg (not_not.mpr hg.depth), h.ensure]
    exact h.tabLoop_outside hg 8
  · exact h.putcharNoTab_outside hg ch

theorem Bounded.write_outside (hg : ScrollGeometry fb) (h : Bounded fb s) (text : List UInt8) :
    SameOutside s (writeLoop fb text s).2 := by
  induction text generalizing s with
  | nil => exact sameOutside_of_eq rfl
  | cons ch text ih =>
    have hput := h.putchar hg ch
    have hout := h.putchar_outside hg ch
    rw [writeLoop]
    rcases hrun : s.fbTextPutchar fb ch with ⟨_ | _, t⟩
    · rw [hrun] at hout
      exact hout
    · rw [hrun] at hput hout
      exact hout.trans (ih hput)

theorem Bounded.scroll_outside (h : Bounded fb s) (lines : Int32) :
    SameOutside s (s.fbTextScroll fb lines).2 := by
  apply sameOutside_of_eq
  unfold fbTextScroll
  split
  · rfl
  rw [h.ensure]
  dsimp only
  split
  · rfl
  dsimp only
  split
  · exact (renderConsole_text fb _).history
  · rfl

/-- **Calls** write in the array only: by induction on the calls. -/
theorem Bounded.performAll_outside (hg : ScrollGeometry fb) (h : Bounded fb s) (calls : List Call) :
    SameOutside s (s.performAll fb calls) := by
  induction calls generalizing s with
  | nil => exact sameOutside_of_eq rfl
  | cons call calls ih =>
    have hcall : SameOutside s (s.perform fb call).2 := by
      cases call with
      | write buf len => exact h.write_outside hg _
      | scroll lines => exact h.scroll_outside lines
    exact hcall.trans (ih (h.perform hg call))

theorem clear_outside (fb : Framebuffer) (s : TextConsole) : SameOutside s (s.fbTextClear fb).2 := by
  unfold fbTextClear
  split
  · exact sameOutside_of_eq rfl
  · exact (sameOutside_clearHistory s).trans (sameOutside_of_eq rfl)

/-! ## Scrolling -/

/-- In its bounds, the view that scrolling asks for is the one in integers. -/
theorem ViewBounded.scrolledTop_eq (h : ViewBounded fb s) (lines : Int32) :
    ((s.scrolledTop fb lines).toNat : Int) =
      max (s.oldestHistoryLine.toNat : Int)
        (min ((s.bottomViewTopLine fb).toNat : Int) (s.viewTopLine.toNat + lines.toInt)) := by
  have hold := h.oldest
  have hbottom := h.bottom
  have htop := s.viewTopLine.toNat_lt
  have hend := (s.bottomViewTopLine fb).toNat_lt
  have hlow := lines.le_toInt
  have hhigh := lines.toInt_lt
  have hamount : (UInt64.ofNat lines.toInt.natAbs).toNat = lines.toInt.natAbs :=
    UInt64.toNat_ofNat_of_lt' (show lines.toInt.natAbs < 2 ^ 64 by omega)
  have hback : (s.viewTopLine - s.oldestHistoryLine).toNat =
      s.viewTopLine.toNat - s.oldestHistoryLine.toNat :=
    UInt64.toNat_sub_of_le _ _ (UInt64.le_iff_toNat_le.mpr hold)
  have hahead : (s.bottomViewTopLine fb - s.viewTopLine).toNat =
      (s.bottomViewTopLine fb).toNat - s.viewTopLine.toNat :=
    UInt64.toNat_sub_of_le _ _ (UInt64.le_iff_toNat_le.mpr hbottom)
  unfold scrolledTop
  dsimp only
  have hsign : lines < 0 ↔ lines.toInt < 0 := Int32.lt_iff_toInt_lt
  by_cases hneg : lines < 0
  · -- Back: the view stops at the oldest line.
    rw [if_pos hneg]
    rw [hsign] at hneg
    by_cases hfar : s.viewTopLine - s.oldestHistoryLine < UInt64.ofNat lines.toInt.natAbs
    · rw [if_pos hfar]
      rw [UInt64.lt_iff_toNat_lt, hback, hamount] at hfar
      omega
    · rw [if_neg hfar]
      rw [UInt64.lt_iff_toNat_lt, hback, hamount] at hfar
      rw [UInt64.toNat_sub_of_le _ _ (UInt64.le_iff_toNat_le.mpr (by rw [hamount]; omega)), hamount]
      omega
  · -- Ahead: the view stops at the bottom.
    rw [if_neg hneg]
    rw [hsign] at hneg
    by_cases hfar : s.bottomViewTopLine fb - s.viewTopLine < UInt64.ofNat lines.toInt.natAbs
    · rw [if_pos hfar]
      rw [UInt64.lt_iff_toNat_lt, hahead, hamount] at hfar
      omega
    · rw [if_neg hfar]
      rw [UInt64.lt_iff_toNat_lt, hahead, hamount] at hfar
      rw [UInt64.toNat_add, hamount, Nat.mod_eq_of_lt (by omega)]
      omega

/-- Drawing does not move a view that is in its bounds. -/
theorem Bounded.render_top (h : Bounded fb s) : (s.renderConsole fb).viewTopLine = s.viewTopLine := by
  unfold renderConsole
  split
  · rfl
  split
  · rfl
  · rw [h.clamp]
    rfl

/-- **Scrolling** moves the view by that number of lines, as far as there are lines. -/
theorem Bounded.scroll_top (hg : ScrollGeometry fb) (h : Bounded fb s) (lines : Int32) :
    ((s.fbTextScroll fb lines).2.viewTopLine.toNat : Int) =
      max (s.oldestHistoryLine.toNat : Int)
        (min ((s.bottomViewTopLine fb).toNat : Int) (s.viewTopLine.toNat + lines.toInt)) := by
  have hold := h.oldest
  have hbottom := h.bottom
  unfold fbTextScroll
  rw [if_neg (not_not.mpr hg.depth), h.ensure]
  dsimp only
  split
  · next hzero =>
    have hnone : lines.toInt = 0 := by
      rw [hzero]
      rfl
    dsimp only
    omega
  · have htop := h.scrolledTop_eq lines
    -- clamping it once more changes nothing
    have hview : ViewBounded fb { s with viewTopLine := s.scrolledTop fb lines } := by
      constructor
      · show s.oldestHistoryLine.toNat ≤ (s.scrolledTop fb lines).toNat
        omega
      · show (s.scrolledTop fb lines).toNat ≤ (s.bottomViewTopLine fb).toNat
        omega
    have hmoved : Bounded fb { s with viewTopLine := s.scrolledTop fb lines } :=
      ⟨hview, h.ready, h.column⟩
    rw [hview.clamp]
    dsimp only
    split
    · rw [hmoved.render_top]
      exact htop
    · exact htop

/-- **Scrollback.**  After clearing the screen and any calls that write text and
    scroll, the view is between the oldest line and the last view, the cursor is on
    the screen, and scrolling by any number of lines sets the view as in integers,
    without its subtractions wrapping.  The history is only accessed inside its array:
    nothing else has been written, and whatever else there is, the consoles and the
    answers of the calls are the same. -/
theorem scrollback_bounded (hg : ScrollGeometry fb) (s : TextConsole) (calls : List Call) :
    let t := (s.fbTextClear fb).2.performAll fb calls
    (t.oldestHistoryLine.toNat ≤ t.viewTopLine.toNat ∧
      t.viewTopLine.toNat ≤ (t.bottomViewTopLine fb).toNat) ∧
    (t.cursorColumn.toNat ≤ fb.consoleVisibleColumns.toNat ∧
      fb.consoleVisibleColumns.toNat ≤ 160) ∧
    (∀ row column, ¬ (row.toNat < 256 ∧ column.toNat < 160) →
      t.history row column = s.history row column) ∧
    (∀ s', AgreeInside s s' →
      let t' := (s'.fbTextClear fb).2.performAll fb calls
      AgreeInside t t' ∧ ∀ call, (t'.perform fb call).1 = (t.perform fb call).1) ∧
    ∀ n : Int32,
      ((t.fbTextScroll fb n).2.viewTopLine.toNat : Int) =
        max (t.oldestHistoryLine.toNat : Int)
          (min ((t.bottomViewTopLine fb).toNat : Int) (t.viewTopLine.toNat + n.toInt)) ∧
      ((t.viewTopLine - t.oldestHistoryLine).toNat : Int) =
        t.viewTopLine.toNat - t.oldestHistoryLine.toNat ∧
      ((t.bottomViewTopLine fb - t.viewTopLine).toNat : Int) =
        (t.bottomViewTopLine fb).toNat - t.viewTopLine.toNat := by
  have hstart := bounded_clear hg s
  intro t
  have ht : Bounded fb t := hstart.performAll hg calls
  refine ⟨⟨ht.oldest, ht.bottom⟩, ⟨ht.column, TextGeometry.columns_le fb⟩, ?_, ?_, ?_⟩
  · exact (clear_outside fb s).trans (hstart.performAll_outside hg calls)
  · intro s' hagree t'
    have hend : AgreeInside t t' := hagree.clear.2.performAll calls
    exact ⟨hend, fun call => (hend.perform call).1⟩
  · intro n
    refine ⟨ht.scroll_top hg n, ?_, ?_⟩
    · rw [UInt64.toNat_sub_of_le _ _ (UInt64.le_iff_toNat_le.mpr ht.oldest)]
      exact Int.ofNat_sub ht.oldest
    · rw [UInt64.toNat_sub_of_le _ _ (UInt64.le_iff_toNat_le.mpr ht.bottom)]
      exact Int.ofNat_sub ht.bottom

/-- The console as it is unused, with another value outside of the array. -/
def strayConsole : TextConsole := { unusedConsole with history := fun row _ => if row = 256 then 120 else 0 }

/-- Text in two lines, and two lines back. -/
def twoLines : List Call := [.write [97, 10, 9, 98] 4, .scroll (-2)]

/-- On a screen of 21 rows the cursor is behind the tab and the letter; the value outside of the
    array is as before and is not seen; and scrolling stays at the only view there is. -/
theorem scrollback_bounded_vga :
    let t := (unusedConsole.fbTextClear vga).2.performAll vga twoLines
    let t' := (strayConsole.fbTextClear vga).2.performAll vga twoLines
    (t.oldestHistoryLine.toNat ≤ t.viewTopLine.toNat ∧ t.viewTopLine.toNat ≤ (t.bottomViewTopLine vga).toNat) ∧
    (t.cursorColumn.toNat ≤ 44 ∧ t.cursorColumn = 5) ∧
    (t.history 256 5 = 0 ∧ t'.history 256 5 = 120) ∧
    t'.cells = t.cells ∧
    ((t.fbTextScroll vga 7).2.viewTopLine.toNat : Int) = max 0 (min 0 7) := by
  have hg : ScrollGeometry vga := ⟨rfl, by decide, by decide, by decide⟩
  have hout : ¬ ((256 : UInt64).toNat < 256 ∧ (5 : UInt64).toNat < 160) := by decide
  have hagree : AgreeInside unusedConsole strayConsole := by
    refine ⟨?_, rfl⟩
    intro row column hin
    exact if_neg fun hrow => absurd hin.1 (by rw [hrow]; decide)
  have hstray : strayConsole.history 256 5 = 120 := by decide
  obtain ⟨hview, hcursor, hsame, hblind, hscroll⟩ := scrollback_bounded hg unusedConsole twoLines
  have hsame' := (scrollback_bounded hg strayConsole twoLines).2.2.1 256 5 hout
  have hcolumn : ((unusedConsole.fbTextClear vga).2.performAll vga twoLines).cursorColumn = 5 := by
    decide +kernel
  have hend := hscroll 7
  have hzero : max (((unusedConsole.fbTextClear vga).2.performAll vga twoLines).oldestHistoryLine.toNat : Int)
      (min ((((unusedConsole.fbTextClear vga).2.performAll vga twoLines).bottomViewTopLine vga).toNat : Int)
        (((unusedConsole.fbTextClear vga).2.performAll vga twoLines).viewTopLine.toNat + (7 : Int32).toInt)) =
      max 0 (min 0 7) := by
    decide +kernel
  rw [hzero] at hend
  rw [hstray] at hsame'
  have hcells : ((strayConsole.fbTextClear vga).2.performAll vga twoLines).cells =
      ((unusedConsole.fbTextClear vga).2.performAll vga twoLines).cells := by
    rw [(hblind strayConsole hagree).1.rest]
  exact ⟨hview, ⟨hcursor.1, hcolumn⟩, ⟨hsame 256 5 hout, hsame'⟩, hcells, hend.1⟩

end TextConsole

end Scdk
