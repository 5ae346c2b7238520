import Scdk.Arch.ConsoleScreen

/-! # Tabs on narrow screens

    A tab is written as blanks until the column of the cursor is a multiple of four.
    The column starts again at the beginning of each line, so on a screen of one to
    three columns it never is.

    * `fbTextInit`: the screens that `scdk_fb_text_init` accepts,
    * `tabRun`, `writeRun`: the loops of the source for a number of rounds, `none` if
      they have not ended by then,
    * `putBlank`: where the cursor is after a blank, in any state,
    * `tabRun_narrow`, `tabRun_wide`: when the loop for a tab ends,
    * `write_returns_iff`: exactly when writing a text returns. -/

namespace Scdk

/-! ## Screens -/

/-- `active_framebuffer`, with its address, and the console. -/
structure Display where
  active : Option (UInt64 × Framebuffer)
  console : TextConsole

/-- The framebuffer that is active after the checks of `scdk_fb_text_init`: the one of
    the boot loader at that address, or else one of the given size. -/
def Display.chosen (d : Display) (framebuffer : UInt64) (width height : UInt32) : Framebuffer :=
  match d.active with
  | some (address, fb) =>
    if address = framebuffer then fb else ⟨width.toUInt64, height.toUInt64, 32⟩
  | none => ⟨width.toUInt64, height.toUInt64, 32⟩

/-- `scdk_fb_text_init` -/
def fbTextInit (d : Display) (framebuffer : UInt64) (width height pitch bpp : UInt32) :
    Except Err Unit × Display :=
  if framebuffer = 0 ∨ width = 0 ∨ height = 0 ∨ pitch = 0 ∨ bpp ≠ 32 then (.error .inval, d)
  else
    let fb := d.chosen framebuffer width height
    let cleared := { d.console with cursorReady := false }.fbTextClear fb
    (cleared.1, ⟨some (framebuffer, fb), cleared.2⟩)

/-- A screen that was accepted has 32 bits a pixel. -/
theorem fbTextInit_depth {d d' : Display} {framebuffer address : UInt64} {fb : Framebuffer}
    {width height pitch bpp : UInt32}
    (h : fbTextInit d framebuffer width height pitch bpp = (.ok (), d'))
    (hactive : d'.active = some (address, fb)) : fb.bpp = 32 := by
  unfold fbTextInit at h
  split at h
  · cases (Prod.mk.inj h).1
  obtain ⟨hclear, rfl⟩ := Prod.mk.inj h
  obtain ⟨_, rfl⟩ := Prod.mk.inj (Option.some.inj hactive)
  by_contra hdepth
  have hrefused : ({ d.console with cursorReady := false }.fbTextClear
      (d.chosen framebuffer width height)).1 = .error .notsup :=
    congrArg Prod.fst (if_pos hdepth)
  rw [hrefused] at hclear
  cases hclear

namespace TextConsole

variable {fb : Framebuffer} {s : TextConsole}

/-! ## Rounds -/

/-- The loop of `scdk_fb_text_putchar` for a tab; `none` if it has not ended after so
    many rounds. -/
def tabRun (fb : Framebuffer) : Nat → TextConsole → Option (Except Err Unit × TextConsole)
  | 0, _ => none
  | rounds + 1, s =>
    match s.putcharNoTab fb blank with
    | (.error e, s) => some (.error e, s)
    | (.ok _, s) => if s.cursorColumn % 4 ≠ 0 then tabRun fb rounds s else some (.ok (), s)

/-- `scdk_fb_text_putchar`, with so many rounds for a tab. -/
def putcharRun (fb : Framebuffer) (rounds : Nat) (s : TextConsole) (ch : UInt8) :
    Option (Except Err Unit × TextConsole) :=
  if ch = 9 then
    if fb.bpp ≠ 32 then some (.error .notsup, s) else tabRun fb rounds (s.ensureConsoleCursor fb)
  else some (s.putcharNoTab fb ch)

/-- The loop of `scdk_fb_text_write`, with so many rounds for each tab. -/
def writeRun (fb : Framebuffer) (rounds : Nat) :
    List UInt8 → TextConsole → Option (Except Err Unit × TextConsole)
  | [], s => some (.ok (), s)
  | ch :: text, s =>
    match putcharRun fb rounds s ch with
    | none => none
    | some (.error e, s) => some (.error e, s)
    | some (.ok _, s) => writeRun fb rounds text s

/-- `scdk_fb_text_write` returns. -/
def WriteReturns (fb : Framebuffer) (s : TextConsole) (buf : List UInt8) (len : UInt64) : Prop :=
  ∃ rounds result, writeRun fb rounds (writtenText buf len) s = some result

/-! ## Columns -/

theorem renderConsole_column (hcolumn : s.cursorColumn.toNat ≤ fb.consoleVisibleColumns.toNat) :
    (s.renderConsole fb).cursorColumn = s.cursorColumn := by
  unfold renderConsole
  split
  · rfl
  split
  · rfl
  · obtain ⟨top, hsets⟩ := clamp_sets fb s
    have heq : ({ s with viewTopLine := top }.drawHistory fb).updateConsoleCursorPixels fb =
        { s with viewTopLine := top }.drawHistory fb := updateConsoleCursorPixels_eq hcolumn
    rw [hsets, heq]
    rfl

/-- A new line starts in its first column, on any screen. -/
theorem consoleNewline_column (fb : Framebuffer) (s : TextConsole) :
    (s.consoleNewline fb).cursorColumn = 0 := by
  have hview : (s.nextView fb).cursorColumn = 0 := rfl
  have hzero : (s.nextView fb).cursorColumn.toNat ≤ fb.consoleVisibleColumns.toNat := Nat.zero_le _
  rw [consoleNewline_eq]
  unfold drawNextView
  split
  · rw [scrollConsolePixelsUp_eq, updateConsoleCursorPixels_eq (Nat.zero_le _)]
    rfl
  split
  · rw [renderConsole_column hzero]
    exact hview
  · rw [updateConsoleCursorPixels_eq hzero]
    exact hview

theorem toNat_succ_column (hroom : s.cursorColumn.toNat < fb.consoleVisibleColumns.toNat) :
    (s.cursorColumn + 1).toNat = s.cursorColumn.toNat + 1 := by
  have hmax := TextGeometry.columns_le fb
  rw [UInt64.toNat_add]
  exact Nat.mod_eq_of_lt (show s.cursorColumn.toNat + 1 < 2 ^ 64 by omega)

/-- The console after a character is in the history and the view is chosen. -/
def putView (fb : Framebuffer) (s : TextConsole) (ch : UInt8) : TextConsole :=
  let t := s.setHistory s.currentLine s.cursorColumn ch
  (if s.viewIsAtBottom fb = true then { t with viewTopLine := t.bottomViewTopLine fb } else t)
    |>.clampConsoleView fb

/-- It is then drawn. -/
def drawPut (fb : Framebuffer) (s t : TextConsole) : TextConsole :=
  if t.viewTopLine ≠ s.viewTopLine then t.renderConsole fb
  else t.drawHistoryCell fb t.currentLine t.cursorColumn

theorem putHere_draw (ch : UInt8) : s.putHere fb ch =
    { s.drawPut fb (s.putView fb ch) with
      cursorColumn := (s.drawPut fb (s.putView fb ch)).cursorColumn + 1 }.updateConsoleCursorPixels fb :=
  rfl

theorem putView_column (ch : UInt8) : (s.putView fb ch).cursorColumn = s.cursorColumn := by
  unfold putView
  dsimp only
  split <;> rfl

theorem drawPut_column {t : TextConsole} (hcolumn : t.cursorColumn.toNat ≤ fb.consoleVisibleColumns.toNat) :
    (s.drawPut fb t).cursorColumn = t.cursorColumn := by
  unfold drawPut
  split
  · exact renderConsole_column hcolumn
  · rw [drawHistoryCell_eq]

/-- A character with room on the line moves the cursor by one column. -/
theorem putHere_column (ch : UInt8) (hroom : s.cursorColumn.toNat < fb.consoleVisibleColumns.toNat) :
    (s.putHere fb ch).cursorColumn.toNat = s.cursorColumn.toNat + 1 := by
  have hsucc := toNat_succ_column hroom
  have hview : (s.putView fb ch).cursorColumn = s.cursorColumn := putView_column ch
  have hdrawn : (s.drawPut fb (s.putView fb ch)).cursorColumn = s.cursorColumn := by
    rw [drawPut_column (by rw [hview]; omega), hview]
  rw [putHere_draw, updateConsoleCursorPixels_eq]
  · show ((s.drawPut fb (s.putView fb ch)).cursorColumn + 1).toNat = _
    rw [hdrawn, hsucc]
  · show ((s.drawPut fb (s.putView fb ch)).cursorColumn + 1).toNat ≤ _
    rw [hdrawn, hsucc]
    exact hroom

theorem putGlyph_eq (hcolumns : fb.consoleVisibleColumns ≠ 0) (ch : UInt8) :
    s.putGlyph fb ch = (.ok (),
      (if fb.consoleVisibleColumns ≤ s.cursorColumn then s.consoleNewline fb else s).putHere fb ch) :=
  if_neg hcolumns

/-- The column behind a character. -/
theorem putGlyph_column (hcolumns : fb.consoleVisibleColumns ≠ 0) (ch : UInt8) :
    (s.putGlyph fb ch).2.cursorColumn.toNat =
      if fb.consoleVisibleColumns.toNat ≤ s.cursorColumn.toNat then 1
      else s.cursorColumn.toNat + 1 := by
  have hpos : 0 < fb.consoleVisibleColumns.toNat := by
    rw [Nat.pos_iff_ne_zero]
    exact fun hzero => hcolumns (UInt64.toNat_inj.mp hzero)
  rw [putGlyph_eq hcolumns]
  simp only [UInt64.le_iff_toNat_le]
  split
  · have hzero : (s.consoleNewline fb).cursorColumn.toNat = 0 := by
      rw [consoleNewline_column]
      rfl
    rw [putHere_column ch (by omega), hzero]
  · next hroom => exact putHere_column ch (by omega)

theorem updateConsoleCursorPixels_ready (fb : Framebuffer) (s : TextConsole) :
    (s.updateConsoleCursorPixels fb).cursorReady = s.cursorReady := rfl

theorem putHere_ready (ch : UInt8) : (s.putHere fb ch).cursorReady = s.cursorReady := by
  have hview : (s.putView fb ch).cursorReady = s.cursorReady := by
    unfold putView
    dsimp only
    split <;> rfl
  have hdrawn : (s.drawPut fb (s.putView fb ch)).cursorReady = (s.putView fb ch).cursorReady := by
    unfold drawPut
    split
    · exact (renderConsole_text fb _).ready
    · rw [drawHistoryCell_eq]
  rw [putHere_draw, updateConsoleCursorPixels_ready]
  dsimp only
  rw [hdrawn, hview]

theorem putGlyph_ready (hcolumns : fb.consoleVisibleColumns ≠ 0) (ch : UInt8) :
    (s.putGlyph fb ch).2.cursorReady = s.cursorReady := by
  rw [putGlyph_eq hcolumns]
  dsimp only
  rw [putHere_ready]
  split
  · exact (consoleNewline_text fb s).ready
  · rfl

theorem ensure_ready (fb : Framebuffer) (s : TextConsole) :
    (s.ensureConsoleCursor fb).cursorReady = true := by
  unfold ensureConsoleCursor
  split
  · assumption
  · rfl

/-- **Blanks.**  On a screen with columns, a blank is put in any state, and the cursor
    is behind it: in the next column, or in the second one of a new line. -/
theorem putBlank (hdepth : fb.bpp = 32) (hcolumns : fb.consoleVisibleColumns ≠ 0) :
    ∃ t, s.putcharNoTab fb blank = (.ok (), t) ∧ t.cursorReady = true ∧ t.cursorColumn.toNat =
      if fb.consoleVisibleColumns.toNat ≤ (s.ensureConsoleCursor fb).cursorColumn.toNat then 1
      else (s.ensureConsoleCursor fb).cursorColumn.toNat + 1 := by
  have hsame : s.putcharNoTab fb blank = (s.ensureConsoleCursor fb).putGlyph fb blank := by
    unfold putcharNoTab
    rw [if_neg (not_not.mpr hdepth)]
    rfl
  refine ⟨_, ?_, (putGlyph_ready hcolumns blank).trans (ensure_ready fb s),
    putGlyph_column hcolumns blank⟩
  rw [hsame]
  exact Prod.ext (by rw [putGlyph_eq hcolumns]) rfl

/-! ## The loop for a tab -/

theorem column_mod_four (t : TextConsole) : t.cursorColumn % 4 ≠ 0 ↔ t.cursorColumn.toNat % 4 ≠ 0 := by
  rw [Ne, ← UInt64.toNat_inj, UInt64.toNat_mod]
  rfl

/-- **Narrow screens.**  With one to three columns the loop ends in no number of
    rounds: the cursor is never in a column that is a multiple of four. -/
theorem tabRun_narrow (hdepth : fb.bpp = 32) (hpos : 0 < fb.consoleVisibleColumns.toNat)
    (hnarrow : fb.consoleVisibleColumns.toNat < 4) (rounds : Nat) (s : TextConsole) :
    tabRun fb rounds s = none := by
  have hcolumns : fb.consoleVisibleColumns ≠ 0 := fun hzero => by simp [hzero] at hpos
  induction rounds generalizing s with
  | zero => rfl
  | succ rounds ih =>
    obtain ⟨t, hput, _, hcolumn⟩ := putBlank (s := s) hdepth hcolumns
    have hmore : t.cursorColumn % 4 ≠ 0 := by
      rw [column_mod_four]
      split at hcolumn <;> omega
    rw [tabRun, hput]
    dsimp only
    rw [if_pos hmore]
    exact ih t

/-- Where the loop has ended, so has the one with a bound on its rounds. -/
theorem tabLoop_of_run {rounds : Nat} {result : Except Err Unit × TextConsole}
    (h : tabRun fb rounds s = some result) : tabLoop fb rounds s = result := by
  -- A run that ended did so within the rounds, where both loops agree.
  induction rounds generalizing s with
  | zero => cases h
  | succ rounds ih =>
    rw [tabRun] at h
    rw [tabLoop]
    rcases hput : s.putcharNoTab fb blank with ⟨_ | _, t⟩
    · rw [hput] at h
      exact Option.some.inj h
    · rw [hput] at h
      dsimp only at h ⊢
      split at h
      · next hmore =>
        rw [if_pos hmore]
        exact ih h
      · next hend =>
        rw [if_neg hend]
        exact Option.some.inj h

/-- With four columns or more it ends at a multiple of four on this line or, if there
    is none, on the next. -/
theorem tabRun_ready {rounds : Nat} (hdepth : fb.bpp = 32)
    (hwide : 4 ≤ fb.consoleVisibleColumns.toNat) (hready : s.cursorReady = true)
    (hcolumn : s.cursorColumn.toNat ≤ fb.consoleVisibleColumns.toNat)
    (hrounds : TextCursor.tabWidth fb.consoleVisibleColumns.toNat ⟨0, s.cursorColumn.toNat⟩ ≤ rounds) :
    ∃ t, tabRun fb rounds s = some (.ok (), t) := by
  have hcolumns : fb.consoleVisibleColumns ≠ 0 := fun hzero => by simp [hzero] at hwide
  -- the measure is the number of blanks up to the end of the tab
  unfold TextCursor.tabWidth at hrounds
  dsimp only at hrounds
  induction rounds generalizing s with
  | zero => split at hrounds <;> omega
  | succ rounds ih =>
    obtain ⟨t, hput, hready', hnext⟩ := putBlank (s := s) hdepth hcolumns
    have hensure : s.ensureConsoleCursor fb = s := if_pos hready
    rw [hensure] at hnext
    rw [tabRun, hput]
    dsimp only
    by_cases hmore : t.cursorColumn % 4 ≠ 0
    · rw [if_pos hmore]
      rw [column_mod_four] at hmore
      apply ih hready'
      · split at hnext <;> omega
      · split at hnext <;> split at hrounds <;> split <;> omega
    · rw [if_neg hmore]
      exact ⟨t, rfl⟩

/-- **Wide screens.**  With four columns or more the loop ends, whatever the column of
    the cursor. -/
theorem tabRun_wide (hdepth : fb.bpp = 32) (hwide : 4 ≤ fb.consoleVisibleColumns.toNat)
    (s : TextConsole) : ∃ t, tabRun fb 9 s = some (.ok (), t) := by
  have hcolumns : fb.consoleVisibleColumns ≠ 0 := fun hzero => by simp [hzero] at hwide
  obtain ⟨t, hput, hready, hnext⟩ := putBlank (s := s) hdepth hcolumns
  rw [tabRun, hput]
  dsimp only
  split
  · apply tabRun_ready hdepth hwide hready
    · split at hnext <;> omega
    · exact TextCursor.tabWidth_le _ _
  · exact ⟨t, rfl⟩

/-- Without a column a blank is refused, and the loop ends with that. -/
theorem tabRun_none (hcolumns : fb.consoleVisibleColumns = 0) (s : TextConsole) :
    ∃ result, tabRun fb 9 s = some result := by
  have hput : ∃ e, (s.putcharNoTab fb blank).1 = .error e := by
    unfold putcharNoTab
    split
    · exact ⟨_, rfl⟩
    · refine ⟨.notsup, ?_⟩
      have hglyph : (s.ensureConsoleCursor fb).putGlyph fb blank =
          (.error .notsup, s.ensureConsoleCursor fb) := if_pos hcolumns
      exact congrArg Prod.fst hglyph
  obtain ⟨e, he⟩ := hput
  rw [tabRun]
  rcases hrun : s.putcharNoTab fb blank with ⟨r, t⟩
  rw [hrun] at he
  obtain rfl : r = .error e := he
  exact ⟨_, rfl⟩

/-! ## Writing a text -/

/-- The loop for a tab ends on every screen but those of one to three columns. -/
theorem putcharRun_ends (h : fb.consoleVisibleColumns.toNat = 0 ∨ 4 ≤ fb.consoleVisibleColumns.toNat ∨
    ch ≠ 9) (s : TextConsole) : ∃ result, putcharRun fb 9 s ch = some result := by
  unfold putcharRun
  split
  · split
    · exact ⟨_, rfl⟩
    · next htab hdepth =>
      rcases h with hzero | hwide | hne
      · exact tabRun_none (UInt64.toNat_inj.mp hzero) _
      · obtain ⟨t, ht⟩ := tabRun_wide (not_not.mp hdepth) hwide (s.ensureConsoleCursor fb)
        exact ⟨_, ht⟩
      · exact absurd htab hne
  · exact ⟨_, rfl⟩

theorem writeRun_ends {text : List UInt8} (h : fb.consoleVisibleColumns.toNat = 0 ∨
    4 ≤ fb.consoleVisibleColumns.toNat ∨ 9 ∉ text) (s : TextConsole) :
    ∃ result, writeRun fb 9 text s = some result := by
  induction text generalizing s with
  | nil => exact ⟨_, rfl⟩
  | cons ch text ih =>
    have hch : fb.consoleVisibleColumns.toNat = 0 ∨ 4 ≤ fb.consoleVisibleColumns.toNat ∨ ch ≠ 9 :=
      h.imp_right fun h => h.imp_right fun hmem heq => hmem (by rw [heq]; exact List.mem_cons_self)
    obtain ⟨⟨r, t⟩, hput⟩ := putcharRun_ends hch s
    rw [writeRun, hput]
    cases r with
    | error e => exact ⟨_, rfl⟩
    | ok u =>
      exact ih (h.imp_right fun h => h.imp_right fun hnot hmem => hnot (List.mem_cons_of_mem _ hmem)) t

/-- On a screen with columns a character that is no tab is put. -/
theorem putcharNoTab_ok (hdepth : fb.bpp = 32) (hcolumns : fb.consoleVisibleColumns ≠ 0)
    (s : TextConsole) (ch : UInt8) : (s.putcharNoTab fb ch).1 = .ok () := by
  unfold putcharNoTab
  rw [if_neg (not_not.mpr hdepth)]
  dsimp only
  split
  · rfl
  split
  · rfl
  split
  · rfl
  · rw [putGlyph_eq hcolumns]

/-- On a screen of one to three columns a text with a tab is not written in any number
    of rounds: what stands before the tab is put, and then the loop goes on for ever. -/
theorem writeRun_narrow {text : List UInt8} (hdepth : fb.bpp = 32)
    (hpos : 0 < fb.consoleVisibleColumns.toNat) (hnarrow : fb.consoleVisibleColumns.toNat < 4)
    (htab : 9 ∈ text) (rounds : Nat) (s : TextConsole) : writeRun fb rounds text s = none := by
  have hcolumns : fb.consoleVisibleColumns ≠ 0 := fun hzero => by simp [hzero] at hpos
  induction text generalizing s with
  | nil => cases htab
  | cons ch text ih =>
    rw [writeRun]
    -- The first tab does not end; what is written before it changes no width.
    by_cases hch : ch = 9
    · have hloop : putcharRun fb rounds s ch = none := by
        unfold putcharRun
        rw [if_pos hch, if_neg (not_not.mpr hdepth)]
        exact tabRun_narrow hdepth hpos hnarrow rounds _
      rw [hloop]
    · have hput : putcharRun fb rounds s ch = some (s.putcharNoTab fb ch) := if_neg hch
      have hok := putcharNoTab_ok hdepth hcolumns s ch
      rcases hrun : s.putcharNoTab fb ch with ⟨r, t⟩
      rw [hrun] at hok
      obtain rfl : r = .ok () := hok
      rw [hput, hrun]
      exact ih ((List.mem_cons.mp htab).resolve_left fun heq => hch heq.symm) t

end TextConsole

/-- The screens of one to three columns, by their width in pixels. -/
theorem columns_narrow_iff (fb : Framebuffer) :
    (0 < fb.consoleVisibleColumns.toNat ∧ fb.consoleVisibleColumns.toNat < 4) ↔
      18 ≤ fb.width.toNat ∧ fb.width.toNat < 60 := by
  have hcell : consoleCellWidth.toNat = 14 := rfl
  -- The columns by the width, in natural numbers.
  have horigin : fb.consoleOriginX.toNat = if fb.width.toNat < 64 then 4 else fb.width.toNat / 32 := by
    unfold Framebuffer.consoleOriginX
    simp only [UInt64.lt_iff_toNat_lt]
    change (if fb.width.toNat < 64 then (4 : UInt64) else fb.width / 32).toNat = _
    split
    · rfl
    · exact UInt64.toNat_div _ _
  have hcolumns : fb.consoleColumns.toNat =
      if fb.width.toNat ≤ fb.consoleOriginX.toNat then 0
      else (fb.width.toNat - fb.consoleOriginX.toNat) / 14 := by
    unfold Framebuffer.consoleColumns
    simp only [UInt64.le_iff_toNat_le]
    split
    · rfl
    · next hlt =>
      rw [UInt64.toNat_div, hcell,
        UInt64.toNat_sub_of_le _ _ (UInt64.le_iff_toNat_le.mpr (Nat.le_of_not_le hlt))]
  have hvisible : fb.consoleVisibleColumns.toNat = min 160 fb.consoleColumns.toNat := by
    unfold Framebuffer.consoleVisibleColumns
    have hmax : consoleMaxColumns.toNat = 160 := rfl
    simp only [UInt64.lt_iff_toNat_lt, hmax]
    split
    · rw [hmax]
      omega
    · omega
  rw [horigin] at hcolumns
  rw [hvisible, hcolumns]
  split <;> split <;> omega

open TextConsole in
/-- **Writing returns.**  On every screen that was accepted and in every state of the
    console, writing a text returns if and only if the screen is less than 18 or at
    least 60 pixels wide, or the text has no tab. -/
theorem write_returns_iff {d d' : Display} {framebuffer address : UInt64} {fb : Framebuffer}
    {width height pitch bpp : UInt32}
    (hinit : fbTextInit d framebuffer width height pitch bpp = (.ok (), d'))
    (hactive : d'.active = some (address, fb)) (s : TextConsole) (buf : List UInt8) {len : UInt64}
    (hlen : len ≠ 0) :
    WriteReturns fb s buf len ↔
      fb.width.toNat < 18 ∨ 60 ≤ fb.width.toNat ∨ 9 ∉ buf.take len.toNat := by
  have hdepth := fbTextInit_depth hinit hactive
  have hnarrow := columns_narrow_iff fb
  have htext : writtenText buf len = buf.take len.toNat := if_neg hlen
  unfold WriteReturns
  rw [htext]
  constructor
  · rintro ⟨rounds, result, hrun⟩
    by_contra hcond
    have hnone := writeRun_narrow hdepth (hnarrow.mpr (by omega)).1 (hnarrow.mpr (by omega)).2
      (show 9 ∈ buf.take len.toNat by
        by_contra htab
        exact hcond (.inr (.inr htab))) rounds s
    rw [hnone] at hrun
    cases hrun
  · intro hcond
    have hcolumns : fb.consoleVisibleColumns.toNat = 0 ∨ 4 ≤ fb.consoleVisibleColumns.toNat ∨
        9 ∉ buf.take len.toNat := by
      by_cases htab : 9 ∈ buf.take len.toNat
      · have hwidth := hcond.imp_right fun h => h.resolve_right (not_not.mpr htab)
        omega
      · exact .inr (.inr htab)
    exact ⟨9, writeRun_ends hcolumns s⟩

/-- The console before `scdk_fb_text_init`. -/
def noDisplay : Display := ⟨none, TextConsole.unusedConsole⟩

/-- A screen of 32 by 32 pixels: two columns. -/
def tinyScreen : Framebuffer := ⟨32, 32, 32⟩

open TextConsole in
theorem write_returns_on_vga :
    (fbTextInit noDisplay 4096 640 480 2560 32).2.active = some (4096, vga) ∧
      WriteReturns vga (unusedConsole.fbTextClear vga).2 [97, 9, 98] 3 := by
  have hinit : fbTextInit noDisplay 4096 640 480 2560 32 =
      (.ok (), (fbTextInit noDisplay 4096 640 480 2560 32).2) := rfl
  have hactive : (fbTextInit noDisplay 4096 640 480 2560 32).2.active = some (4096, vga) := rfl
  exact ⟨hactive, (write_returns_iff hinit hactive _ _ (by decide)).mpr (.inr (.inl (by decide)))⟩

open TextConsole in
/-- A tab on a screen that was accepted, right after `scdk_fb_text_init`. -/
theorem write_never_returns :
    (fbTextInit noDisplay 4096 32 32 128 32).1 = .ok () ∧
      (fbTextInit noDisplay 4096 32 32 128 32).2.active = some (4096, tinyScreen) ∧
      ¬ WriteReturns tinyScreen (fbTextInit noDisplay 4096 32 32 128 32).2.console [9] 1 := by
  refine ⟨rfl, rfl, ?_⟩
  rintro ⟨rounds, result, hrun⟩
  have hnone : writeRun tinyScreen rounds [9]
      (fbTextInit noDisplay 4096 32 32 128 32).2.console = none :=
    writeRun_narrow rfl (by decide) (by decide) (List.mem_singleton.mpr rfl) rounds _
  have htext : writtenText [9] 1 = [9] := rfl
  rw [htext, hnone] at hrun
  cases hrun

end Scdk
