import Scdk.Lib.Recent

/-! # The trace of the log

    Model of the trace of `kernel/log.c`: the last characters of everything that was
    logged, in a ring of 8192 bytes, and the call that copies them out.

    * `LogTrace`: the statics,
    * `traceAppend`, `logTraceCopy`: the functions of the source,
    * `logTraceCopyLoop_eq`: what the loop of the copy has written when it ends,
    * `trace_keeps_newest`: what is copied out after any strings. -/

namespace Scdk

/-! ## Functions -/

/-- `SCDK_LOG_TRACE_SIZE` -/
abbrev maxLogTrace : Nat := 8192

/-- `log_trace`, `log_trace_head` and `log_trace_len`. -/
abbrev LogTrace := Recent maxLogTrace UInt8

/-- The statics at boot. -/
def LogTrace.boot : LogTrace := ⟨fun _ => 0, 0, 0, Nat.zero_le _⟩

/-- `trace_append_char` -/
def traceAppendChar (t : LogTrace) (c : UInt8) : LogTrace := t.push c

/-- `trace_append`; a null pointer is `none`. -/
def traceAppend (t : LogTrace) : Option (List UInt8) → LogTrace
  | none => t
  | some s => s.foldl traceAppendChar t

/-- The loop of `scdk_log_trace_copy`, with `copied` bytes written. -/
def logTraceCopyLoop (t : LogTrace) (capacity copied : Nat) (dst : Nat → UInt8) :
    Nat × (Nat → UInt8) :=
  if copied + 1 < capacity ∧ copied < t.len then
    logTraceCopyLoop t capacity (copied + 1) (Function.update dst copied (t.item copied))
  else (copied, dst)
termination_by t.len - copied

/-- `scdk_log_trace_copy`: the result and the bytes from `dst` on, or `none` for a null
    pointer. -/
def logTraceCopy (t : LogTrace) (dst : Option (Nat → UInt8)) (capacity : Nat) :
    Nat × Option (Nat → UInt8) :=
  match dst with
  | none => (t.len, none)
  | some dst =>
    if capacity = 0 then (t.len, some dst)
    else
      let (copied, dst) := logTraceCopyLoop t capacity 0 dst
      (copied, some (Function.update dst copied 0))

/-! ## Appending -/

/-- All characters of some strings. -/
def appendedText (strings : List (Option (List UInt8))) : List UInt8 :=
  (strings.map fun s => s.getD []).flatten

theorem traceAppend_eq (t : LogTrace) (s : Option (List UInt8)) :
    traceAppend t s = t.pushAll (s.getD []) := by
  cases s with
  | none => rfl
  | some s => rfl

theorem traceAppend_all (t : LogTrace) (strings : List (Option (List UInt8))) :
    strings.foldl traceAppend t = t.pushAll (appendedText strings) := by
  induction strings generalizing t with
  | nil => rfl
  | cons s strings ih =>
    rw [List.foldl_cons, ih, traceAppend_eq]
    simp only [Recent.pushAll, appendedText, List.map_cons, List.flatten_cons, List.foldl_append]

/-- The trace holds the newest characters of all that was appended. -/
theorem items_traceAppend (strings : List (Option (List UInt8))) :
    (strings.foldl traceAppend LogTrace.boot).items = newest maxLogTrace (appendedText strings) := by
  rw [traceAppend_all, Recent.items_pushAll]
  rfl

/-! ## Copying -/

/-- The loop ends with all items copied or the buffer full, and has written the items
    it has passed. -/
theorem logTraceCopyLoop_eq {t : LogTrace} {capacity copied : Nat} {dst : Nat → UInt8}
    (hlen : copied ≤ t.len) (hcap : copied + 1 ≤ capacity) :
    (logTraceCopyLoop t capacity copied dst).1 = min (capacity - 1) t.len ∧
      ∀ i, (logTraceCopyLoop t capacity copied dst).2 i =
        if copied ≤ i ∧ i < min (capacity - 1) t.len then t.item i else dst i := by
  fun_induction logTraceCopyLoop t capacity copied dst with
  | case1 copied dst hmore ih =>
    obtain ⟨hcount, hbytes⟩ := ih hmore.2 (by omega)
    refine ⟨hcount, fun i => ?_⟩
    rw [hbytes i]
    by_cases hi : i = copied
    · -- the byte of this round
      subst hi
      rw [if_neg (by omega), if_pos (by omega), Function.update_self]
    · rw [Function.update_of_ne hi]
      congr 1
      exact propext ⟨fun h => ⟨by omega, h.2⟩, fun h => ⟨by omega, h.2⟩⟩
  | case2 copied dst hend =>
    refine ⟨by omega, fun i => ?_⟩
    rw [if_neg (by omega)]

/-- **Log trace.**  After any strings, a copy into a buffer of `capacity` bytes writes
    the first of the newest 8192 characters, as many as fit before the zero, then the
    zero and nothing behind it. -/
theorem trace_keeps_newest (strings : List (Option (List UInt8))) (dst : Nat → UInt8)
    {capacity : Nat} (hcap : 1 ≤ capacity) :
    ∃ dst' : Nat → UInt8,
      logTraceCopy (strings.foldl traceAppend LogTrace.boot) (some dst) capacity =
        (min (capacity - 1) (min 8192 (appendedText strings).length), some dst') ∧
      (List.range (min (capacity - 1) (min 8192 (appendedText strings).length))).map dst' =
        (newest 8192 (appendedText strings)).take
          (min (capacity - 1) (min 8192 (appendedText strings).length)) ∧
      dst' (min (capacity - 1) (min 8192 (appendedText strings).length)) = 0 ∧
      ∀ i, min (capacity - 1) (min 8192 (appendedText strings).length) < i → dst' i = dst i := by
  set t := strings.foldl traceAppend LogTrace.boot with ht
  have hitems : t.items = newest 8192 (appendedText strings) := items_traceAppend strings
  have hlen : t.len = min 8192 (appendedText strings).length := by
    rw [← Recent.length_items, hitems, length_newest]
  obtain ⟨hcount, hbytes⟩ : (logTraceCopyLoop t capacity 0 dst).1 = min (capacity - 1) t.len ∧
      ∀ i, (logTraceCopyLoop t capacity 0 dst).2 i =
        if 0 ≤ i ∧ i < min (capacity - 1) t.len then t.item i else dst i :=
    logTraceCopyLoop_eq (Nat.zero_le _) (by omega)
  rw [← hlen, ← hitems]
  refine ⟨Function.update (logTraceCopyLoop t capacity 0 dst).2 (min (capacity - 1) t.len) 0,
    ?_, ?_, Function.update_self _ _ _, ?_⟩
  · unfold logTraceCopy
    simp only [if_neg (show ¬ capacity = 0 by omega), hcount]
  · unfold Recent.items
    rw [← List.map_take, List.take_range, Nat.min_eq_left (Nat.min_le_right _ _)]
    apply List.map_congr_left
    intro i hi
    rw [List.mem_range] at hi
    rw [Function.update_of_ne (by omega), hbytes i, if_pos ⟨Nat.zero_le i, hi⟩]
  · intro i hi
    rw [Function.update_of_ne (by omega), hbytes i, if_neg (by omega)]

/-- Three characters copied into a buffer of three bytes. -/
theorem trace_keeps_newest_three : ∃ dst' : Nat → UInt8,
    logTraceCopy ([some [97, 98], none, some [99]].foldl traceAppend LogTrace.boot)
      (some fun _ => 7) 3 = (2, some dst') ∧
    [dst' 0, dst' 1] = [97, 98] ∧ dst' 2 = 0 ∧ dst' 3 = 7 := by
  obtain ⟨dst', hcopy, htext, hzero, hrest⟩ :=
    trace_keeps_newest [some [97, 98], none, some [99]] (fun _ => 7) (show 1 ≤ 3 by decide)
  exact ⟨dst', hcopy, htext, hzero, hrest 3 (by decide)⟩

end Scdk
