import Scdk.Core.RingRefinement

/-! # The wrap of the submission counter

    `scdk_ring_submit` stores a descriptor in cell `submit_tail % entries`.  When
    `submit_tail` wraps from `2 ^ 32 - 1` to zero, the cell index jumps unless
    `entries` divides `2 ^ 32`, and the next submission can hit the cell of a
    descriptor that is still pending.

    * `KeepsPending`: when it does not, in terms of the ring before the submission,
    * `submit_appends_iff`: in every reachable state, a successful submission appends
      to the pending list exactly then,
    * `submit_appends_fails`: a ring of three entries after `2 ^ 32` submissions. -/

namespace Scdk

/-- A submission of `desc` alters no pending descriptor: the tail is not one of the
    `2 ^ 32 % entries` counter values behind the wrap, or the descriptors from before
    the wrap are consumed so far that the cell of the tail is free, or that cell holds
    the same descriptor already. -/
def KeepsPending (ring : Ring) (desc : RingDesc) : Prop :=
  ring.sq.tail.toNat < 2 ^ 32 % ring.entries.toNat →
  2 ^ 32 % ring.entries.toNat ≤ ring.sq.count.toNat →
  (ring.sq.items ring.entries)[ring.sq.count.toNat - 2 ^ 32 % ring.entries.toNat]? = some desc

section submit

variable {log : RingLog} {s : RingWorld} {r : UInt64} {entries : UInt32}

/-- **Wrap.**  In every reachable state, a successful submission to a ring turns its
    pending list into that list followed by the new descriptor exactly when no
    pending descriptor is in the cell that it is stored to. -/
theorem submit_appends_iff (hrun : ringSystem.Run log s) (hr : RingCreated log r entries)
    {i : Fin maxRings} (hi : ringLookup s.objects s.caps s.rings r Right.write = .ok i)
    {desc : RingDesc} (hok : (ringStep s (.submit r desc)).1 = .status (.ok ())) :
    sqItems (ringStep s (.submit r desc)).2 r = sqItems s r ++ [desc] ↔
      KeepsPending (s.rings i).ring desc := by
  have h := ringInv_run hrun
  obtain ⟨j, k, hid, ho, rfl, ht⟩ := h.created r entries hr
  have hnames := ho.names h.wf hid
  obtain rfl : j = i := Except.ok.inj (hnames.write.symm.trans hi)
  obtain rfl := ht.size
  rw [ringStep, ringSubmit_eq hnames] at hok
  rw [ringStep, ringSubmit_eq hnames, ho.sqItems h.wf hid]
  cases hpush : queuePush (s.rings j).ring.entries (s.rings j).ring.sq desc with
  | error e =>
    rw [hpush] at hok
    cases hok
  | ok sq =>
    obtain ⟨hroom, rfl⟩ := queuePush_eq_ok hpush
    have hitems :=
      (h.setSq ho hid ((s.rings j).ring.sq.push (s.rings j).ring.entries desc)).1
    dsimp only
    rw [hitems]
    exact Circular.items_push_iff ht.le hroom desc

end submit

/-! ## Many rounds -/

section rounds

variable {log : RingLog} {s : RingWorld} {r : UInt64} {entries : UInt32}

theorem RingCreated.concat (hr : RingCreated log r entries) (ev : RingCall × RingAnswer) :
    RingCreated (log ++ [ev]) r entries := by
  obtain ⟨core, target, hmem⟩ := hr
  exact ⟨core, target, List.mem_append_left _ hmem⟩

/-- The ring of a token, with its counter of submissions. -/
theorem created_ring (hrun : ringSystem.Run log s) (hr : RingCreated log r entries) :
    ∃ i, ringLookup s.objects s.caps s.rings r Right.write = .ok i ∧
      sqItems s r = (s.rings i).ring.sq.items (s.rings i).ring.entries ∧
      RingTracks log (s.rings i).ring r entries := by
  have h := ringInv_run hrun
  obtain ⟨i, k, hid, ho, rfl, ht⟩ := h.created r entries hr
  exact ⟨i, (ho.names h.wf hid).write, ho.sqItems h.wf hid, ht⟩

/-- A submission to a ring with nothing pending. -/
theorem submit_empty (hrun : ringSystem.Run log s) (hr : RingCreated log r entries)
    (hempty : sqItems s r = []) (desc : RingDesc) :
    ∃ s', ringStep s (.submit r desc) = (.status (.ok ()), s') ∧ sqItems s' r = [desc] := by
  obtain ⟨i, hi, hitems, ht⟩ := created_ring hrun hr
  have hpos := ht.pos
  obtain ⟨s', hstep, _⟩ := ((ring_refines hrun hr).2.2.1 desc).2 (by
    show (sqItems s r).length ≠ entries.toNat
    rw [hempty, List.length_nil]
    omega)
  refine ⟨s', hstep, ?_⟩
  have happend := submit_appends_iff hrun hr hi (congrArg Prod.fst hstep)
  rw [hstep, hempty, List.nil_append] at happend
  apply happend.mpr
  intro hlow hle
  rw [hitems, Circular.items_eq_nil, ← Circular.count_eq_zero] at hempty
  omega

/-- A round: a descriptor is submitted to a ring with nothing pending, and consumed
    again. -/
theorem submit_consume (hrun : ringSystem.Run log s) (hr : RingCreated log r entries)
    (hempty : sqItems s r = []) (desc : RingDesc) :
    ∃ log' s', ringSystem.Run log' s' ∧ RingCreated log' r entries ∧ sqItems s' r = [] ∧
      submitCount r log' = submitCount r log + 1 := by
  obtain ⟨s₁, hsubmit, hone⟩ := submit_empty hrun hr hempty desc
  have hrun₁ := hrun.step (.submit r desc)
  have hstep₁ : ringSystem.step s (.submit r desc) = (.status (.ok ()), s₁) := hsubmit
  rw [hstep₁] at hrun₁
  have hr₁ := hr.concat (.submit r desc, .status (.ok ()))
  obtain ⟨s₂, hconsume, hnone, _⟩ := (ring_refines hrun₁ hr₁).2.2.2.1.2 desc [] hone
  have hrun₂ := hrun₁.step (.consume r)
  have hstep₂ : ringSystem.step s₁ (.consume r) = (.desc (.ok desc), s₂) := hconsume
  rw [hstep₂] at hrun₂
  refine ⟨_, s₂, hrun₂, hr₁.concat _, hnone, ?_⟩
  rw [submitCount_concat, submitCount_concat]
  simp [isSubmit]

/-- Any number of submissions can have been made before. -/
theorem submitted_before (hrun : ringSystem.Run log s) (hr : RingCreated log r entries)
    (hempty : sqItems s r = []) (n : Nat) :
    ∃ log' s', ringSystem.Run log' s' ∧ RingCreated log' r entries ∧ sqItems s' r = [] ∧
      submitCount r log' = submitCount r log + n := by
  induction n with
  | zero => exact ⟨log, s, hrun, hr, hempty, rfl⟩
  | succ n ih =>
    obtain ⟨log₁, s₁, hrun₁, hr₁, hempty₁, hcount₁⟩ := ih
    obtain ⟨log₂, s₂, hrun₂, hr₂, hempty₂, hcount₂⟩ :=
      submit_consume hrun₁ hr₁ hempty₁ ⟨0, 0, 0, 0, 0, 0⟩
    exact ⟨log₂, s₂, hrun₂, hr₂, hempty₂, by omega⟩

end rounds

/-! ## A ring of three entries -/

/-- A ring of three entries, just created. -/
theorem threeEntries_run :
    ∃ log s, ringSystem.Run log s ∧ RingCreated log 0x100000000 3 ∧ sqItems s 0x100000000 = [] ∧
      submitCount 0x100000000 log = 0 := by
  have hinit : ringSystem.init ⟨.zero, .zero, .zero⟩ := ⟨tablesWf_zero, fun _ => rfl⟩
  have hrun := (System.Run.init hinit).step (.create 0 3 0)
  refine ⟨_, _, hrun, ⟨0, 0, ?_⟩, ?_, ?_⟩
  · rw [List.nil_append, List.mem_singleton]
    decide +kernel
  · decide +kernel
  · decide +kernel

/-- The theorem at the first submission to that ring. -/
theorem submit_appends_first :
    ∃ log s i, ringSystem.Run log s ∧
      (sqItems (ringStep s (.submit 0x100000000 ⟨1, 0, 0, 0, 0, 0⟩)).2 0x100000000 =
          sqItems s 0x100000000 ++ [⟨1, 0, 0, 0, 0, 0⟩] ↔
        KeepsPending (s.rings i).ring ⟨1, 0, 0, 0, 0, 0⟩) := by
  obtain ⟨log, s, hrun, hr, hempty, _⟩ := threeEntries_run
  obtain ⟨i, hi, _, _⟩ := created_ring hrun hr
  obtain ⟨s', hstep, _⟩ := submit_empty hrun hr hempty ⟨1, 0, 0, 0, 0, 0⟩
  exact ⟨log, s, i, hrun, submit_appends_iff hrun hr hi (congrArg Prod.fst hstep)⟩

/-- After `2 ^ 32` submissions the tail is zero again, in the cell of the descriptor
    submitted last: one more submission overwrites it. -/
theorem submit_appends_fails :
    ¬ ∀ (log : RingLog) (s : RingWorld) (r : UInt64) (entries : UInt32) (desc : RingDesc),
      ringSystem.Run log s → RingCreated log r entries →
      (ringStep s (.submit r desc)).1 = .status (.ok ()) →
      sqItems (ringStep s (.submit r desc)).2 r = sqItems s r ++ [desc] := by
  intro hall
  obtain ⟨log₀, s₀, hrun₀, hr₀, hempty₀, hcount₀⟩ := threeEntries_run
  obtain ⟨log, s, hrun, hr, hempty, hcount⟩ := submitted_before hrun₀ hr₀ hempty₀ (2 ^ 32 - 1)
  obtain ⟨s₁, hsubmit, hone⟩ := submit_empty hrun hr hempty ⟨1, 0, 0, 0, 0, 0⟩
  have hrun₁ := hrun.step (.submit 0x100000000 ⟨1, 0, 0, 0, 0, 0⟩)
  have hstep₁ : ringSystem.step s (.submit 0x100000000 ⟨1, 0, 0, 0, 0, 0⟩) =
    (.status (.ok ()), s₁) := hsubmit
  rw [hstep₁] at hrun₁
  have hr₁ := hr.concat (.submit 0x100000000 ⟨1, 0, 0, 0, 0, 0⟩, .status (.ok ()))
  obtain ⟨i, hi, hitems, ht⟩ := created_ring hrun₁ hr₁
  obtain ⟨s₂, hstep₂, _⟩ := ((ring_refines hrun₁ hr₁).2.2.1 ⟨2, 0, 0, 0, 0, 0⟩).2 (by
    show (sqItems s₁ 0x100000000).length ≠ _
    rw [hone]
    decide)
  have hok := congrArg Prod.fst hstep₂
  have hkeeps := (submit_appends_iff hrun₁ hr₁ hi hok).mp (hall _ _ _ _ _ hrun₁ hr₁ hok)
  -- The tail is zero, and the one pending descriptor is in its cell.
  have htail : (s₁.rings i).ring.sq.tail = 0 := by
    rw [ht.sq.tail, submitCount_concat, hcount, hcount₀]
    simp [isSubmit]
  have hlen : (s₁.rings i).ring.sq.count.toNat = 1 := by
    rw [← Circular.length_items (s₁.rings i).ring.entries, ← hitems, hone]
    rfl
  unfold KeepsPending at hkeeps
  rw [ht.size] at hkeeps
  rw [← ht.size, ← hitems, hone, htail, hlen, ht.size] at hkeeps
  exact absurd (hkeeps (by decide) (by decide)) (by decide)

end Scdk
