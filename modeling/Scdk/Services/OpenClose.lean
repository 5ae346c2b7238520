import Scdk.Core.Room
import Scdk.Services.FileHandles

/-! # Opening and closing again and again

    CLOSE gives the file slot back, but neither the object nor the token that OPEN
    has made, so that each pair of an OPEN and a CLOSE takes one slot of both tables.

    * `openClose`: an OPEN with the CLOSE of its token,
    * `openClosePairs_ok`: how often such a pair succeeds,
    * `open_close_sustainable`: the same, from any state where one OPEN succeeds. -/

namespace Scdk

variable {δ : Type}

/-- OPEN with the message `openMsg`, then CLOSE of the token it answered with the rest
    of `closeMsg`. -/
def openClose (openMsg closeMsg : Message) (path : List UInt8) (k : Kernel δ) :
    Except Err Unit × Kernel δ :=
  match tmpfsEndpointHandler { k with msg := openMsg, payload := path } with
  | (.error e, k) => (.error e, k)
  | (.ok _, k) =>
    tmpfsEndpointHandler { k with msg := { closeMsg with arg0 := k.msg.arg0 }, payload := [] }

/-- That many pairs, up to the first failure. -/
def openClosePairs (openMsg closeMsg : Message) (path : List UInt8) :
    Nat → Kernel δ → Except Err Unit × Kernel δ
  | 0, k => (.ok (), k)
  | n + 1, k =>
    match openClose openMsg closeMsg path k with
    | (.error e, k) => (.error e, k)
    | (.ok _, k) => openClosePairs openMsg closeMsg path n k

/-- What an OPEN needs besides room in the two tables: a file with that path, and a
    free file slot. -/
def CanOpen (openMsg : Message) (path : List UInt8) (k : Kernel δ) : Prop :=
  (∃ f, k.initrd.resolves openMsg path = .ok f) ∧ ∃ i, (k.files i).isOpen = false

section pair

variable {openMsg closeMsg : Message} {path : List UInt8} {k : Kernel δ}

/-- OPEN goes on to make the object, for some free file slot. -/
theorem tmpfsHandleOpen_of_canOpen (h : CanOpen openMsg path k) :
    ∃ f i, (k.files i).isOpen = false ∧
      tmpfsHandleOpen { k with msg := openMsg, payload := path } =
        { k with msg := openMsg, payload := path }.openFile f i := by
  obtain ⟨⟨f, hf⟩, i₀, hi₀⟩ := h
  obtain ⟨i, hsome⟩ := Slots.firstSlot_of_count
    (Slots.count_pos (p := fun i => !(k.files i).isOpen) (i := i₀) (by simpa using hi₀))
  refine ⟨f, i, by simpa using (Slots.firstSlot_eq_some hsome).1, ?_⟩
  rw [tmpfsHandleOpen_run]
  simp only [hf, hsome]

/-- An OPEN that succeeds had all it needs. -/
theorem canOpen_of_ok (htype : openMsg.type = Msg.openFile)
    (h : (tmpfsEndpointHandler { k with msg := openMsg, payload := path }).1 = .ok ()) :
    CanOpen openMsg path k := by
  rw [tmpfsEndpointHandler_open htype, tmpfsHandleOpen_run] at h
  dsimp only at h
  cases hf : k.initrd.resolves openMsg path with
  | error e =>
    rw [hf] at h
    cases h
  | ok f =>
    rw [hf] at h
    dsimp only at h
    split at h
    · cases h
    · next i hsome =>
      exact ⟨⟨f, hf⟩, i, by simpa using (Slots.firstSlot_eq_some hsome).1⟩

/-- Without room in one of the tables OPEN fails. -/
theorem openClose_full (htype : openMsg.type = Msg.openFile) (h : CanOpen openMsg path k)
    (hroom : k.objects.room = 0 ∨ k.caps.room = 0) :
    ∃ e, (openClose openMsg closeMsg path k).1 = .error e := by
  obtain ⟨f, i, _, hrun⟩ := tmpfsHandleOpen_of_canOpen h
  unfold openClose
  rw [tmpfsEndpointHandler_open htype, hrun]
  unfold Kernel.openFile
  dsimp only
  by_cases ho : k.objects.room = 0
  · obtain ⟨e, hcreate⟩ := @objectCreate_refused k.objects ObjType.file bootCore 0 (.file i) (.inr ho)
    simp only [hcreate]
    exact ⟨e, rfl⟩
  · obtain ⟨id, o', _, hcreate, hobject, _⟩ := @objectCreate_room k.objects ObjType.file bootCore 0
      (.file i) (by decide) (by decide) (by omega)
    simp only [hcreate, capCreate_full (by decide : Right.read ≠ 0) hobject (hroom.resolve_left ho)]
    exact ⟨.nomem, rfl⟩

/-- With room in both, the pair succeeds and takes one slot of each. -/
theorem openClose_room (hopen : openMsg.type = Msg.openFile) (hclose : closeMsg.type = Msg.close)
    (h : CanOpen openMsg path k) (ho : 0 < k.objects.room) (hc : 0 < k.caps.room) :
    ∃ k', openClose openMsg closeMsg path k = (.ok (), k') ∧ CanOpen openMsg path k' ∧
      k'.objects.room + 1 = k.objects.room ∧ k'.caps.room + 1 = k.caps.room := by
  obtain ⟨f, i, _, hrun⟩ := tmpfsHandleOpen_of_canOpen h
  obtain ⟨id, o', _, hcreate, hobject, hroom⟩ := @objectCreate_room k.objects ObjType.file bootCore 0
    (.file i) (by decide) (by decide) ho
  obtain ⟨t, c', hcap, hroom'⟩ := capCreate_room (by decide : Right.read ≠ 0) hobject hc
  have hcheck : capCheck o' c' t Right.read ObjType.file = .ok _ :=
    capCheck_eq_ok_iff_lookup.mpr
      ⟨by decide, capLookup_created hobject hcap, .inr rfl, UInt64.and_self⟩
  -- The token of the open file is good for the CLOSE.
  have hslot : ∀ k₁ : Kernel δ, k₁.objects = o' → k₁.caps = c' → k₁.files i = ⟨id, t, f, true⟩ →
      tmpfsSlotForCap k₁ t = .ok i := by
    intro k₁ hobjects hcaps hfile
    unfold tmpfsSlotForCap
    rw [hobjects, hcaps, hcheck]
    simp [hobject, hfile]
  obtain ⟨k', hpair, hobjects, hcaps, harchive, hfree⟩ : ∃ k',
      openClose openMsg closeMsg path k = (.ok (), k') ∧ k'.objects = o' ∧ k'.caps = c' ∧
        k'.initrd = k.initrd ∧ (k'.files i).isOpen = false := by
    unfold openClose
    rw [tmpfsEndpointHandler_open hopen, hrun]
    unfold Kernel.openFile
    simp only [hcreate, hcap]
    rw [tmpfsEndpointHandler_close (by exact hclose), tmpfsHandleClose_run]
    dsimp only
    rw [hslot _ rfl rfl (Function.update_self _ _ _)]
    exact ⟨_, rfl, rfl, rfl, rfl, by simp⟩
  refine ⟨k', hpair, ⟨?_, i, hfree⟩, ?_, ?_⟩
  · rw [harchive]
    exact h.1
  · rw [hobjects]
    exact hroom
  · rw [hcaps]
    exact hroom'

/-- So many pairs succeed as there is room. -/
theorem openClosePairs_ok (hopen : openMsg.type = Msg.openFile) (hclose : closeMsg.type = Msg.close)
    (h : CanOpen openMsg path k) (n : Nat) :
    (openClosePairs openMsg closeMsg path n k).1 = .ok () ↔
      n ≤ k.objects.room ∧ n ≤ k.caps.room := by
  induction n generalizing k with
  | zero => simp [openClosePairs]
  | succ n ih =>
    unfold openClosePairs
    -- A pair uses one object and one capability for good.
    by_cases hroom : k.objects.room = 0 ∨ k.caps.room = 0
    · obtain ⟨e, he⟩ := @openClose_full δ openMsg closeMsg path k hopen h hroom
      rcases hpair : openClose openMsg closeMsg path k with ⟨r, k'⟩
      rw [hpair] at he
      obtain rfl : r = .error e := he
      simp only [reduceCtorEq, false_iff, not_and]
      omega
    · rw [not_or] at hroom
      obtain ⟨k', hpair, hcan, ho, hc⟩ := @openClose_room δ openMsg closeMsg path k hopen hclose h
        (by omega) (by omega)
      rw [hpair]
      dsimp only
      rw [ih hcan]
      omega

end pair

/-- **Opening and closing is sustainable** for exactly as many pairs as there are free
    slots in the object table and in the capability table. -/
theorem open_close_sustainable (k : Kernel δ) (openMsg closeMsg : Message) (path : List UInt8)
    (hopen : openMsg.type = Msg.openFile) (hclose : closeMsg.type = Msg.close)
    (hfirst : (tmpfsEndpointHandler { k with msg := openMsg, payload := path }).1 = .ok ())
    (n : Nat) :
    (openClosePairs openMsg closeMsg path n k).1 = .ok () ↔
      n ≤ k.objects.room ∧ n ≤ k.caps.room :=
  openClosePairs_ok hopen hclose (canOpen_of_ok hopen hfirst) n

/-! ### After boot -/

/-- OPEN of `/a`. -/
def openA : Message := { messageInit 0 0 Msg.openFile with arg0 := 0x1000, arg1 := 2 }

theorem room_zero (initrd : Initrd) :
    (Kernel.zero initrd).objects.room = 4096 ∧ (Kernel.zero initrd).caps.room = 4096 :=
  ⟨Slots.count_all fun _ => rfl, Slots.count_all fun _ => rfl⟩

theorem openA_ok : (tmpfsEndpointHandler
    { Kernel.zero noteArchive with msg := openA, payload := [47, 97] }).1 = .ok () := by
  decide +kernel

/-- The tables of a fresh kernel are good for 4096 pairs. -/
theorem open_close_sustainable_fresh :
    (openClosePairs openA (messageInit 0 0 Msg.close) [47, 97] 4096 (Kernel.zero noteArchive)).1 =
      .ok () := by
  apply (open_close_sustainable (Kernel.zero noteArchive) openA (messageInit 0 0 Msg.close) [47, 97]
    rfl rfl openA_ok 4096).mpr
  rw [(room_zero noteArchive).1, (room_zero noteArchive).2]
  exact ⟨le_rfl, le_rfl⟩

/-- And for no more. -/
theorem open_close_sustainable_fails :
    ¬ ∀ (n : Nat) (k : Kernel Unit) (openMsg closeMsg : Message) (path : List UInt8),
      openMsg.type = Msg.openFile → closeMsg.type = Msg.close →
      (tmpfsEndpointHandler { k with msg := openMsg, payload := path }).1 = .ok () →
      (openClosePairs openMsg closeMsg path n k).1 = .ok () := by
  intro hall
  have hok := hall 4097 (Kernel.zero noteArchive) openA (messageInit 0 0 Msg.close) [47, 97] rfl rfl
    openA_ok
  rw [openClosePairs_ok rfl rfl (canOpen_of_ok rfl openA_ok), (room_zero noteArchive).1] at hok
  omega

end Scdk
