import Scdk.Arch.EntryState
import Scdk.Arch.ImageMap
import Scdk.Arch.RunHeld
import Scdk.Core.TaskCreation

/-! # A run gives everything back

    However `scdk_usermode_run_flat_image` ends, and whatever its program does in user
    mode.

    * `SpaceKept`: steps that keep the address space of a run; every program makes one,
      as long as the heap does not hand out the block of its record again,
    * `BodyEnd`: what the body leaves to the cleanup, `triple_runBody`,
    * `Cleared`: pages that the cleanup has unmapped,
    * `run_releases_all`: nothing of the run is left. -/

namespace Scdk

open Effect

variable {δ : Type}

/-! ## The address space of a run -/

/-- The tokens stay, and the record of the address space in block `b`. -/
structure SpaceKept (b : Nat) (k k' : Kernel (Host δ)) : Prop where
  tokens : TablesWf k.objects k.caps → TokensKept k.objects k.caps k'.objects k'.caps
  record : k'.devices.run.aspaces b = k.devices.run.aspaces b
  initialized : k'.vmm.initialized = k.vmm.initialized

instance (b : Nat) : IsPreorder (Kernel (Host δ)) (SpaceKept b) where
  refl := fun _ => ⟨fun h => .refl h, rfl, rfl⟩
  trans := fun _ _ _ h h' => ⟨fun hwf => (h.tokens hwf).trans (h'.tokens (h.tokens hwf).wf),
    h'.record.trans h.record, h'.initialized.trans h.initialized⟩

section kept

variable {b : Nat} {k k' : Kernel (Host δ)}

/-- The address space is found where it was. -/
theorem SpaceKept.unmaps (h : SpaceKept b k k') (hwf : TablesWf k.objects k.caps) {f : FlatImage}
    (hb : f.Unmaps k b) : f.Unmaps k' b := by
  have htokens := h.tokens hwf
  unfold FlatImage.Unmaps lookupAspace at hb ⊢
  -- The token is checked as before, and its object and record are the same.
  cases hcheck : capCheck k.objects k.caps f.aspace (Right.map ||| Right.read) ObjType.addressSpace with
  | error e =>
    rw [hcheck] at hb
    cases hb
  | ok entry =>
    rw [hcheck] at hb
    rw [htokens.capCheck hwf (by decide) (by decide) hcheck]
    dsimp only at hb ⊢
    cases hobject : objectLookup k.objects entry.objectId with
    | error e =>
      rw [hobject] at hb
      cases hb
    | ok object =>
      rw [hobject] at hb
      rw [htokens.objects hobject]
      dsimp only at hb ⊢
      cases hpayload : object.payload with
      | addressSpace b' =>
        rw [hpayload] at hb
        dsimp only at hb ⊢
        have hblock : b' = b := by
          split at hb
          · cases hb
          · exact Except.ok.inj hb
        subst hblock
        rw [h.record]
        exact hb
      | _ =>
        rw [hpayload] at hb
        cases hb

theorem SameSpaces.spaceKept (h : SameSpaces k k') : SpaceKept b k k' := by
  refine ⟨?_, by rw [h.aspaces], h.initialized⟩
  rw [h.objects, h.caps]
  exact fun hwf => .refl hwf

theorem sameSpaces_addressSpaceActivate (aspace : UInt64) :
    Within SameSpaces (K.addressSpaceActivate aspace : K (Host δ) Unit) :=
  fun _ => ⟨rfl, rfl, rfl, addressSpaceActivate_initialized _ _ _ _ _⟩

theorem sameSpaces_usermodeInit (top : UInt64) :
    Within SameSpaces (usermodeInit top : K (Host δ) Unit) := by
  refine .bind (within_require _ _) fun _ => ?_
  refine .bind (fun _ => ⟨rfl, rfl, rfl, rfl⟩) fun _ => ?_
  refine .bind ?_ fun _ => fun _ => ⟨rfl, rfl, rfl, rfl⟩
  refine .bind (within_require _ _) fun _ => ?_
  refine .bind (fun _ => ⟨rfl, rfl, rfl, rfl⟩) fun _ => ?_
  exact fun _ => ⟨rfl, rfl, rfl, rfl⟩

theorem Mapped.spaceKept (h : Mapped k k') : SpaceKept b k k' :=
  ⟨h.lasting.tokens, by rw [h.devices], h.paging⟩

theorem addressSpaceCreate_record (o : ObjectTable) (c : CapTable) (aspaces : AddressSpaces) (v : Vmm)
    {storage : Option Nat} (pages : PageSupply) (hne : storage ≠ some b) :
    (addressSpaceCreate o c aspaces v storage pages).2.2.2.1 b = aspaces b := by
  unfold addressSpaceCreate
  cases storage with
  | none => rfl
  | some b' =>
    have hb : b ≠ b' := fun h => hne (congrArg some h.symm)
    dsimp only
    split
    · exact Function.update_of_ne hb _ _
    split
    · exact Function.update_of_ne hb _ _
    split
    · exact (Function.update_of_ne hb _ _).trans (Function.update_of_ne hb _ _)
    · exact (Function.update_of_ne hb _ _).trans (Function.update_of_ne hb _ _)

theorem spaceKept_addressSpaceCreate {storage : Option Nat} (pages : PageSupply)
    (hne : storage ≠ some b) :
    Within (SpaceKept b) (K.addressSpaceCreate storage pages : K (Host δ) UInt64) := by
  intro k
  refine ⟨(making_addressSpaceCreate storage pages k).lasting.tokens, ?_, ?_⟩
  · exact addressSpaceCreate_record _ _ _ _ _ hne
  · exact addressSpaceCreate_initialized _ _ _ _ _ _

end kept

/-! ## Programs -/

/-- The same for the body of a run. -/
def SpaceKeptBody (b : Nat) (s s' : Kernel (Host δ) × RunLocals) : Prop := SpaceKept b s.1 s'.1

instance (b : Nat) : IsPreorder (Kernel (Host δ) × RunLocals) (SpaceKeptBody b) where
  refl := fun s => refl s.1
  trans := fun _ _ _ h h' => IsTrans.trans (r := SpaceKept b) _ _ _ h h'

section run

variable {b : Nat} (f : FlatImage) (a : RunAnswers) {user : K (Host δ) Unit}

theorem spaceKept_runBody (huser : Within (SpaceKept b) user) :
    Within (SpaceKeptBody b) (runBody f a user) := by
  have hmapped : ∀ {m : RunBody δ Unit}, Within MappedBody m → Within (SpaceKeptBody b) m :=
    fun h s => (h s).kernel.spaceKept
  have hsame : ∀ {s s' : Kernel (Host δ) × RunLocals}, SameSpaces s.1 s'.1 → SpaceKeptBody b s s' :=
    fun h => h.spaceKept
  refine .bind (within_ask _) fun root => ?_
  refine .bind (fun _ => hsame (refl _)) fun _ => ?_
  cases a.stack with
  | none => exact within_fail _
  | some stack =>
    -- Everything before user mode changes mappings only; the program keeps the space.
    have hrest : Within (SpaceKeptBody b) (do
        mapCodePages f a 0 f.codePages.toNat
        mapUserStack f a
        .call (K.addressSpaceActivate f.aspace)
        runInUsermode a user root : RunBody δ Unit) := by
      refine .bind (hmapped (mappedBody_mapCodePages f a _ 0)) fun _ => ?_
      refine .bind (hmapped (mappedBody_mapUserStack f a)) fun _ => ?_
      refine .bind (hmapped (mappedBody_call (mapped_addressSpaceActivate _))) fun _ => ?_
      intro s
      have henter : SpaceKept b s.1 (s.1.enter a) := SameSpaces.spaceKept ⟨rfl, rfl, rfl, rfl⟩
      have hprogram := IsTrans.trans _ _ _ henter (huser (s.1.enter a))
      have hafter : SpaceKept b _ (runInUsermode a user root s).2.1 :=
        (runInUsermode_run a user root s).kernel.spaceKept
      show SpaceKept b s.1 _
      exact IsTrans.trans _ _ _ hprogram hafter
    intro s
    dsimp only
    rw [runOnStack_start]
    have hstart : SameSpaces s.1 (s.1.onStack stack) := by
      constructor
      all_goals simp only [Kernel.onStack]
    show SpaceKept b s.1 _
    exact IsTrans.trans _ _ _ hstart.spaceKept (hrest (s.1.onStack stack, { s.2 with stack := some stack }))

theorem spaceKept_usermodeRunFlatImage (huser : Within (SpaceKept b) user) :
    Within (SpaceKept b) (usermodeRunFlatImage f a user) := by
  refine .bind ?_ fun _ => ?_
  · intro k
    rw [checkFlatImage_state]
    exact refl k
  intro k
  unfold runSaved
  have hbody : SpaceKept b k (runBody f a user (k, ⟨none, none, 0, false⟩)).2.1 :=
    spaceKept_runBody f a huser (k, ⟨none, none, 0, false⟩)
  generalize runBody f a user (k, ⟨none, none, 0, false⟩) = out at hbody ⊢
  obtain ⟨status, k', l⟩ := out
  obtain ⟨k₁, hmapped, hclean⟩ := runCleanup_run f (saveTaskState k) l k'
  dsimp only
  rw [hclean]
  have hend := IsTrans.trans _ _ _ hbody (hmapped.spaceKept (b := b))
  cases l.stack with
  | none => exact IsTrans.trans _ _ _ hend (SameSpaces.spaceKept ⟨rfl, rfl, rfl, rfl⟩)
  | some stack => exact IsTrans.trans _ _ _ hend (SameSpaces.spaceKept ⟨rfl, rfl, rfl, rfl⟩)

end run

theorem spaceKept_steps (b : Nat) :
    ProgramSteps (SpaceKept b : Kernel (Host δ) → Kernel (Host δ) → Prop) fun a => a.storage ≠ some b where
  noted := fun h => ⟨h.lasting.tokens, by rw [h.run], by rw [h.vmm]⟩
  faulted := fun h => ⟨h.lasting.tokens, by rw [h.run], by rw [h.vmm]⟩
  tasks := fun _ _ => SameSpaces.spaceKept ⟨rfl, rfl, rfl, rfl⟩
  cells := fun _ _ _ _ => SameSpaces.spaceKept ⟨rfl, rfl, rfl, rfl⟩
  create := fun a ha => userTaskCreate_within (fun _ _ => SameSpaces.spaceKept ⟨rfl, rfl, rfl, rfl⟩)
    (spaceKept_addressSpaceCreate a.rootPages ha)
    (fun ownerCore aspace k => ⟨(making_taskCreate ownerCore aspace k).lasting.tokens, rfl, rfl⟩)
    (fun task k => ⟨(making_threadCreate task k).lasting.tokens, rfl, rfl⟩)
  run := fun f a _ huser => spaceKept_usermodeRunFlatImage f a huser

/-- **Programs** keep the address space, unless its block of the heap is handed out again. -/
theorem spaceKept_runProgram (d : Peripherals δ) (hhdmOffset : UInt64) {b : Nat} {prog : Program}
    (h : prog.Loads fun a => a.storage ≠ some b) :
    Within (SpaceKept b) (runProgram d hhdmOffset prog) :=
  (spaceKept_steps b).runProgram d hhdmOffset h

/-! ## What the body leaves -/

/-- The body that was started in `k₀`, where the cleanup starts. -/
structure BodyEnd (f : FlatImage) (k₀ : Kernel (Host δ)) (l : Ledger (RunFrame δ) RunResource) :
    Prop where
  owes : l.Owes (l.state.held f)
  released : l.released = []
  mapped : ∀ virt, .mapping virt ∈ l.taken → f.CanUnmap k₀ virt
  kept : ∀ b, f.Unmaps k₀ b → SpaceKept b k₀ l.state.kernel
  initialized : l.state.kernel.vmm.initialized = k₀.vmm.initialized
  root : (k₀.vmm.initialized = true ∧ l.state.locals.bootRoot = some k₀.vmm.activeCr3Phys) ∨
    (l.state.locals.bootRoot = none ∧ l.state.kernel.vmm.activeCr3Phys = k₀.vmm.activeCr3Phys)

section body

variable {f : FlatImage} {k₀ : Kernel (Host δ)} {l : Ledger (RunFrame δ) RunResource}

theorem Tracked.bodyEnd (h : Tracked f k₀ l) (hinit : k₀.vmm.initialized = true) : BodyEnd f k₀ l :=
  ⟨h.owes, h.released, h.mapped, fun _ _ => h.spaces.spaceKept, h.spaces.initialized,
    .inl ⟨hinit, h.root⟩⟩

/-- After the program the former page tables are active. -/
theorem afterUsermode_state (root : UInt64) (k : Kernel (Host δ)) (locals : RunLocals) :
    (afterUsermode root (k, locals)).2 =
      ({ k with vmm := (vmmActivateRoot k.vmm root).2 }, { locals with bootRoot := none }) := by
  unfold afterUsermode
  rw [bind_of_ok get_run]
  dsimp only
  rw [attempt_bind]
  have hassign : RunBody.assign (fun l => { l with bootRoot := none })
      (RunBody.call (K.vmmActivateRoot root) (k, locals)).2 =
        (.ok (), ({ k with vmm := (vmmActivateRoot k.vmm root).2 }, { locals with bootRoot := none })) := rfl
  rw [bind_of_ok hassign]
  -- what is left reads the state
  have hrest : ∀ (r : Except Err Unit) (p : Prop) [Decidable p],
      Within Eq (do .ask fun _ => r; Effect.require p Err.busy : RunBody δ Unit) := by
    intro r p _
    refine .bind (within_ask _) fun _ => ?_
    exact within_require _ _
  exact (hrest _ _ _).symm

variable (f k₀) (a : RunAnswers) {user : K (Host δ) Unit}
  (huser : ∀ b, f.Unmaps k₀ b → Within (SpaceKept b) user)

include huser

/-- **User mode**: the way back does not fail. -/
theorem triple_runInUsermode (hinit : k₀.vmm.initialized = true) (hroot : RootOk k₀.vmm.activeCr3Phys) :
    Triple (fun l => Tracked f k₀ l ∧ ∃ b, f.Unmaps k₀ b)
      (HeldBody.plain (runInUsermode a user k₀.vmm.activeCr3Phys)) (fun _ => BodyEnd f k₀)
      (BodyEnd f k₀) := by
  rintro l ⟨hl, b, hb⟩
  have hstate : (runInUsermode a user k₀.vmm.activeCr3Phys l.state.body).2 =
      ({ (user (l.state.kernel.enter a)).2 with
          vmm := (vmmActivateRoot (user (l.state.kernel.enter a)).2.vmm k₀.vmm.activeCr3Phys).2 },
        { l.state.locals with bootRoot := none }) := by
    rw [runInUsermode_eq]
    exact afterUsermode_state _ _ _
  -- The program gives the kernel back with the space of the image.
  have hkept : ∀ b, f.Unmaps k₀ b → SpaceKept b k₀ (user (l.state.kernel.enter a)).2 := by
    intro b hb
    have henter : SameSpaces l.state.kernel (l.state.kernel.enter a) := ⟨rfl, rfl, rfl, rfl⟩
    have hbefore : SpaceKept b k₀ (l.state.kernel.enter a) :=
      (IsTrans.trans _ _ _ hl.spaces henter).spaceKept
    exact IsTrans.trans _ _ _ hbefore (huser b hb _)
  generalize (user (l.state.kernel.enter a)).2 = kᵤ at hstate hkept
  have hactivate : vmmActivateRoot kᵤ.vmm k₀.vmm.activeCr3Phys =
      (.ok (), { kᵤ.vmm with activeCr3Phys := k₀.vmm.activeCr3Phys }) := by
    unfold vmmActivateRoot
    rw [validateRoot_ok ((hkept b hb).initialized.trans hinit) hroot]
  rw [hactivate] at hstate
  -- The boot root is active again, and no resource has changed hands.
  have hend : BodyEnd f k₀ (HeldBody.plain (runInUsermode a user k₀.vmm.activeCr3Phys) l).2 := by
    have hrun : (HeldBody.plain (runInUsermode a user k₀.vmm.activeCr3Phys) l).2 =
        { l with
          state :=
            { l.state with
              kernel := { kᵤ with vmm := { kᵤ.vmm with activeCr3Phys := k₀.vmm.activeCr3Phys } }
              locals := { l.state.locals with bootRoot := none } } } := by
      show { l with
        state :=
          { l.state with
            kernel := (runInUsermode a user k₀.vmm.activeCr3Phys l.state.body).2.1
            locals := (runInUsermode a user k₀.vmm.activeCr3Phys l.state.body).2.2 } } = _
      rw [hstate]
    rw [hrun]
    refine ⟨hl.owes, hl.released, hl.mapped, ?_, (hkept b hb).initialized, .inr ⟨rfl, rfl⟩⟩
    intro b hb
    exact ⟨(hkept b hb).tokens, (hkept b hb).record, (hkept b hb).initialized⟩
  exact ⟨fun _ _ => hend, fun _ _ => hend⟩

/-- The body with a stack. -/
theorem triple_runOnStack (hinit : k₀.vmm.initialized = true) (hroot : RootOk k₀.vmm.activeCr3Phys)
    (hcode : ∀ i < f.codePages.toNat, (a.code i).1 ≠ .ok 0) (hstackPage : a.userStack.1 ≠ .ok 0)
    (stack : StackPage) :
    Triple (fun l => CodeAt f k₀ 0 0 l ∧ l.state.locals.stack = none)
      (runOnStackHeld f a user k₀.vmm.activeCr3Phys stack) (fun _ => BodyEnd f k₀) (BodyEnd f k₀) := by
  have htracked : ∀ l, Tracked f k₀ l → BodyEnd f k₀ l := fun _ h => h.bodyEnd hinit
  have hcodeEnd : ∀ l, CodeAt f k₀ 0 0 l → BodyEnd f k₀ l := fun _ h => h.toTracked.bodyEnd hinit
  refine .bind (triple_call (fun _ => ⟨rfl, rfl, rfl, rfl⟩) ?_ fun l h => hcodeEnd l h.1) fun _ => ?_
  · exact fun l k hl hk => ⟨hl.1.withKernel hk, hl.2⟩
  refine triple_take (R := CodeAt f k₀ 0 0) ?_ ?_
  · rintro l ⟨hl, hnone⟩
    refine ⟨hl.toTracked.take (RunFrame.held_block hnone) rfl rfl (fun virt h => nomatch h), hl.maps,
      hl.pages, hl.stackPhys, hl.stackMapped⟩
  refine .bind (triple_call (sameSpaces_usermodeInit _) (fun l k hl hk => hl.withKernel hk) hcodeEnd)
    fun _ => ?_
  refine .bind ((triple_mapCodePages f k₀ a hcode _ 0 (by omega)).errors htracked) fun _ => ?_
  refine .bind ((triple_mapUserStack f k₀ a hstackPage _).errors htracked) fun _ => ?_
  refine .bind (triple_call (sameSpaces_addressSpaceActivate _) ?_ fun l h => htracked l h.1) fun _ => ?_
  · exact fun l k hl hk => ⟨hl.1.withKernel hk, hl.2⟩
  exact triple_runInUsermode f k₀ a huser hinit hroot

omit huser in
theorem codePagesHeld_zero (n : Nat) : ∀ i, codePagesHeld (fun _ => 0) i n = [] := by
  induction n with
  | zero =>
    intro i
    rfl
  | succ n ih =>
    intro i
    rw [codePagesHeld, ih (i + 1)]
    rfl

omit huser in
/-- At the start nothing is held. -/
theorem RunFrame.held_start (root : Option UInt64) :
    (⟨k₀, ⟨root, none, 0, false⟩, ⟨fun _ => 0, 0⟩⟩ : RunFrame δ).held f = [] := by
  unfold RunFrame.held
  rw [codePagesHeld_zero]
  rfl

/-- **The body**, wherever it stops. -/
theorem runBodyHeld_end (hroot : k₀.vmm.initialized = true → RootOk k₀.vmm.activeCr3Phys)
    (hcode : ∀ i < f.codePages.toNat, (a.code i).1 ≠ .ok 0) (hstackPage : a.userStack.1 ≠ .ok 0) :
    BodyEnd f k₀ (runBodyHeld f a user (.start (.start k₀))).2 := by
  have howes : ∀ root, (Ledger.start ⟨k₀, ⟨root, none, 0, false⟩, ⟨fun _ => 0, 0⟩⟩ :
      Ledger (RunFrame δ) RunResource).Owes
        ((⟨k₀, ⟨root, none, 0, false⟩, ⟨fun _ => 0, 0⟩⟩ : RunFrame δ).held f) := by
    intro root
    rw [RunFrame.held_start]
    exact Ledger.owes_start _
  unfold runBodyHeld
  by_cases hinit : k₀.vmm.initialized = false
  · -- Without page tables the run ends before anything is taken.
    have hcurrent : HeldBody.plain (.call K.vmmCurrentRoot) (.start (.start k₀)) =
        (.error .notsup, .start (.start k₀)) := by
      show ((if k₀.vmm.initialized = false then _ else _ : Except Err UInt64), _) = _
      rw [if_pos hinit]
      rfl
    rw [bind_of_error hcurrent]
    exact ⟨howes none, rfl, fun _ h => (nomatch h), fun _ _ => refl k₀, rfl, .inr ⟨rfl, rfl⟩⟩
  · have hcurrent : HeldBody.plain (.call K.vmmCurrentRoot) (.start (.start k₀)) =
        (.ok k₀.vmm.activeCr3Phys, .start (.start k₀)) := by
      show ((if k₀.vmm.initialized = false then _ else _ : Except Err UInt64), _) = _
      rw [if_neg hinit]
      rfl
    set l₀ : Ledger (RunFrame δ) RunResource :=
      .start ⟨k₀, ⟨some k₀.vmm.activeCr3Phys, none, 0, false⟩, ⟨fun _ => 0, 0⟩⟩ with hl₀
    have hassign : HeldBody.plain (.assign fun l => { l with bootRoot := some k₀.vmm.activeCr3Phys })
        (.start (.start k₀)) = (.ok (), l₀) := rfl
    rw [bind_of_ok hcurrent, bind_of_ok hassign]
    -- Nothing is held when the stack is taken.
    have htracked : Tracked f k₀ l₀ := ⟨howes _, rfl, fun _ h => (nomatch h), refl k₀, rfl⟩
    rw [Bool.not_eq_false] at hinit
    cases a.stack with
    | none => exact htracked.bodyEnd hinit
    | some stack =>
      have hstart : CodeAt f k₀ 0 0 l₀ ∧ l₀.state.locals.stack = none :=
        ⟨⟨htracked, rfl, fun _ _ => rfl, rfl, rfl⟩, rfl⟩
      obtain ⟨hok, herror⟩ :=
        triple_runOnStack f k₀ a huser hinit (hroot hinit) hcode hstackPage stack l₀ hstart
      dsimp only
      cases hrun : (runOnStackHeld f a user k₀.vmm.activeCr3Phys stack l₀).1 with
      | ok u => exact hok u hrun
      | error e => exact herror e hrun

end body

/-! ## The cleanup -/

/-- Steps of the page tables that map nothing. -/
structure Unmapping (k k' : Kernel (Host δ)) : Prop where
  rest : k' = { k with vmm := k'.vmm }
  active : k'.vmm.activeCr3Phys = k.vmm.activeCr3Phys
  unmapped : ∀ {r virt}, Unmapped k.vmm r virt → Unmapped k'.vmm r virt

instance : IsPreorder (Kernel (Host δ)) Unmapping where
  refl := fun _ => ⟨rfl, rfl, id⟩
  trans := fun _ _ _ h h' =>
    ⟨by rw [h'.rest, h.rest], h'.active.trans h.active, fun hv => h'.unmapped (h.unmapped hv)⟩

section cleanup

variable {f : FlatImage} {b : Nat} {k k' : Kernel (Host δ)}

theorem Unmapping.unmaps (h : Unmapping k k') (hb : f.Unmaps k b) : f.Unmaps k' b := by
  rw [h.rest]
  exact hb

theorem Unmapping.record (h : Unmapping k k') : k'.devices.run.aspaces = k.devices.run.aspaces := by
  rw [h.rest]

theorem unmapping_addressSpaceUnmap (aspace virt : UInt64) :
    Within Unmapping (K.addressSpaceUnmap aspace virt : K (Host δ) Unit) := by
  intro k
  have hvmm : (Scdk.addressSpaceUnmap k.objects k.caps k.devices.run.aspaces k.vmm aspace virt).2 = k.vmm ∨
      ∃ r, (Scdk.addressSpaceUnmap k.objects k.caps k.devices.run.aspaces k.vmm aspace virt).2 =
        (vmmUnmapPageInRoot k.vmm r virt).2 := by
    unfold Scdk.addressSpaceUnmap
    split
    · exact .inl rfl
    split
    · exact .inl rfl
    · exact .inr ⟨_, rfl⟩
  refine ⟨rfl, ?_, ?_⟩
  · show (Scdk.addressSpaceUnmap _ _ _ k.vmm aspace virt).2.activeCr3Phys = _
    rcases hvmm with heq | ⟨r, heq⟩
    · rw [heq]
    · rw [heq, vmmUnmapPageInRoot_active]
  · intro r' virt' hv
    show Unmapped (Scdk.addressSpaceUnmap _ _ _ k.vmm aspace virt).2 r' virt'
    rcases hvmm with heq | ⟨r, heq⟩
    · rwa [heq]
    · rw [heq]
      exact hv.unmap r virt

/-- The page itself is not mapped any more. -/
theorem addressSpaceUnmap_clears (hb : f.Unmaps k b) {virt : UInt64}
    (hvalid : validateUserPage virt = .ok ()) :
    Unmapped (K.addressSpaceUnmap f.aspace virt k).2.vmm (k.devices.run.aspaces b).rootPhys virt := by
  have hrun : (K.addressSpaceUnmap f.aspace virt k).2.vmm =
      (vmmUnmapPageInRoot k.vmm (k.devices.run.aspaces b).rootPhys virt).2 := by
    unfold K.addressSpaceUnmap Scdk.addressSpaceUnmap
    unfold FlatImage.Unmaps at hb
    dsimp only
    rw [hb, hvalid]
  rw [hrun]
  exact unmapped_unmap _ _ (userPage_of_validate hvalid)

variable (f)

theorem unmapping_unmapCodePages (n : Nat) :
    ∀ i, Within Unmapping (unmapCodePages f i n : K (Host δ) Unit) := by
  induction n with
  | zero =>
    intro i
    exact within_pure ()
  | succ n ih =>
    intro i
    refine .bind (unmapping_addressSpaceUnmap _ _).attempt fun _ => ?_
    exact ih (i + 1)

theorem unmapping_unmapUserStack (stackMapped : Bool) :
    Within Unmapping (unmapUserStack f stackMapped : K (Host δ) Unit) := by
  refine .ite ?_ (within_pure ())
  refine .bind (unmapping_addressSpaceUnmap _ _).attempt fun _ => ?_
  exact within_pure ()

/-- A user stack that was mapped is unmapped like any other page. -/
theorem unmapUserStack_mapped (k : Kernel (Host δ)) : (unmapUserStack f true k).2 =
    (K.addressSpaceUnmap f.aspace (userTestStackTop - 4096) k).2 := by
  unfold unmapUserStack
  rw [if_pos rfl, attempt_bind]
  rfl

/-- The loop over the image. -/
theorem unmapCodePages_clears (n : Nat) :
    ∀ i (k : Kernel (Host δ)), f.Unmaps k b → ∀ virt, .mapping virt ∈ codeMappings f i n →
      validateUserPage virt = .ok () →
      Unmapped (unmapCodePages f i n k).2.vmm (k.devices.run.aspaces b).rootPhys virt := by
  induction n with
  | zero =>
    intro i k _ virt hmem
    cases hmem
  | succ n ih =>
    intro i k hb virt hmem hvalid
    have hstep := unmapping_addressSpaceUnmap f.aspace (f.pageAddress i) k
    have hrun : unmapCodePages f i (n + 1) k =
        unmapCodePages f (i + 1) n (K.addressSpaceUnmap f.aspace (f.pageAddress i) k).2 := rfl
    rw [hrun]
    -- The page unmapped first stays unmapped while the others are.
    rcases List.mem_cons.mp hmem with heq | hmem
    · obtain rfl := RunResource.mapping.inj heq
      exact (unmapping_unmapCodePages f n (i + 1) _).unmapped (addressSpaceUnmap_clears hb hvalid)
    · have hrest := ih (i + 1) _ (hstep.unmaps hb) virt hmem hvalid
      rw [hstep.record] at hrest
      exact hrest

theorem mapping_mem_held {s : RunFrame δ} {virt : UInt64} (h : .mapping virt ∈ s.held f) :
    .mapping virt ∈ stackMapping s.locals.stackMapped ∨
      .mapping virt ∈ codeMappings f 0 s.locals.mappedCodePages := by
  -- Pages and stacks are no mappings.
  have hpage : ∀ phys, .mapping virt ∉ heldPage phys := by
    intro phys hmem
    unfold heldPage at hmem
    split at hmem
    · exact nomatch List.mem_singleton.mp hmem
    · cases hmem
  have hpages : ∀ (c : Nat → UInt64) (n i : Nat), .mapping virt ∉ codePagesHeld c i n := by
    intro c n
    induction n with
    | zero => exact fun i hmem => nomatch hmem
    | succ n ih =>
      intro i hmem
      rcases List.mem_append.mp hmem with hmem | hmem
      · exact hpage _ hmem
      · exact ih (i + 1) hmem
  unfold RunFrame.held at h
  rcases List.mem_append.mp h with h | h
  · exact .inl h
  rcases List.mem_append.mp h with h | h
  · exact .inr h
  rcases List.mem_append.mp h with h | h
  · exact absurd h (hpage _)
  rcases List.mem_append.mp h with h | h
  · exact absurd h (hpages _ _ 0)
  cases hs : s.locals.stack with
  | none =>
    rw [hs] at h
    cases h
  | some stack =>
    rw [hs] at h
    exact nomatch List.mem_singleton.mp h

/-- The three parts of the cleanup that work on the page tables. -/
theorem unmapAll_run (l : RunLocals) (k : Kernel (Host δ)) :
    (unmapAll f l k).2 = (unmapCodePages f 0 l.mappedCodePages
      (unmapUserStack f l.stackMapped (restoreRoot l.bootRoot k).2).2).2 := by
  rw [unmapAll_eq, bind_of_ok (Prod.ext (restoreRoot_ok l.bootRoot k) rfl),
    bind_of_ok (Prod.ext (unmapUserStack_ok f l.stackMapped _) rfl)]

/-- The rest of it does not. -/
theorem runCleanup_vmm (saved : SyscallTaskState) (l : RunLocals) (k : Kernel (Host δ)) :
    (runCleanup f saved l k).2.vmm = (unmapAll f l k).2.vmm := by
  unfold runCleanup
  rw [bind_of_ok (Prod.ext (unmapAll_ok f l k) rfl),
    bind_of_ok (show restoreTaskState saved _ = (.ok (), _) from rfl)]
  cases l.stack with
  | none => rfl
  | some stack => rfl

/-- The root is activated, and nothing else changes. -/
theorem restoreRoot_rest (root : Option UInt64) (k : Kernel (Host δ)) :
    (restoreRoot root k).2 = { k with vmm := (restoreRoot root k).2.vmm } := by
  cases root with
  | none => rfl
  | some root => rfl

variable {f} {k₀ : Kernel (Host δ)} {l : Ledger (RunFrame δ) RunResource}

/-- The page tables of the caller are active again. -/
theorem BodyEnd.active (h : BodyEnd f k₀ l)
    (hroot : k₀.vmm.initialized = true → RootOk k₀.vmm.activeCr3Phys) :
    (unmapAll f l.state.locals l.state.kernel).2.vmm.activeCr3Phys = k₀.vmm.activeCr3Phys := by
  have hrestored : (restoreRoot l.state.locals.bootRoot l.state.kernel).2.vmm.activeCr3Phys =
      k₀.vmm.activeCr3Phys := by
    rcases h.root with ⟨hinit, hsome⟩ | ⟨hnone, hactive⟩
    · rw [hsome]
      show (vmmActivateRoot l.state.kernel.vmm k₀.vmm.activeCr3Phys).2.activeCr3Phys = _
      unfold vmmActivateRoot
      rw [validateRoot_ok (h.initialized.trans hinit) (hroot hinit)]
    · rw [hnone]
      exact hactive
  rw [unmapAll_run, (unmapping_unmapCodePages f _ 0 _).active, (unmapping_unmapUserStack f _ _).active]
  exact hrestored

/-- What was mapped is not mapped any more. -/
theorem BodyEnd.unmapped (h : BodyEnd f k₀ l) (hwf : TablesWf k₀.objects k₀.caps) {virt : UInt64}
    (hmem : .mapping virt ∈ l.taken) :
    ∃ b, f.Unmaps k₀ b ∧ Unmapped (unmapAll f l.state.locals l.state.kernel).2.vmm
      (k₀.devices.run.aspaces b).rootPhys virt := by
  obtain ⟨hvalid, b, hb⟩ := h.mapped virt hmem
  refine ⟨b, hb, ?_⟩
  have hkept := h.kept b hb
  rw [unmapAll_run]
  -- the state in which the user stack is unmapped
  set k₁ := (restoreRoot l.state.locals.bootRoot l.state.kernel).2 with hk₁
  have hb₁ : f.Unmaps k₁ b := by
    rw [hk₁, restoreRoot_rest]
    exact hkept.unmaps hwf hb
  have hrecord : k₁.devices.run.aspaces b = k₀.devices.run.aspaces b := by
    rw [hk₁, restoreRoot_rest]
    exact hkept.record
  have hstack := unmapping_unmapUserStack f l.state.locals.stackMapped k₁
  have hheld : .mapping virt ∈ l.state.held f := by
    have hperm := h.owes
    unfold Ledger.Owes at hperm
    rw [h.released, List.append_nil] at hperm
    exact hperm.mem_iff.mp hmem
  rw [← hrecord]
  rcases mapping_mem_held f hheld with hmem | hmem
  · -- the user stack
    apply (unmapping_unmapCodePages f _ 0 _).unmapped
    unfold stackMapping at hmem
    split at hmem
    next hmapped =>
      obtain rfl := RunResource.mapping.inj (List.mem_singleton.mp hmem)
      rw [hmapped, unmapUserStack_mapped]
      exact addressSpaceUnmap_clears hb₁ hvalid
    next => cases hmem
  · have hclear := unmapCodePages_clears f _ 0 _ (hstack.unmaps hb₁) virt hmem hvalid
    rw [hstack.record] at hclear
    exact hclear

end cleanup

/-! ## The run -/

/-- Nothing of the run that was started in `k` is left: what it took has been released
    once, what it mapped is not mapped, and the page tables and the state of the system call
    are those of the caller. -/
structure RunReleased (f : FlatImage) (k : Kernel (Host δ)) (l : Ledger (RunFrame δ) RunResource) :
    Prop where
  owes : l.Owes []
  unmapped : ∀ virt, .mapping virt ∈ l.taken → ∃ b, f.Unmaps k b ∧
    Unmapped l.state.kernel.vmm (k.devices.run.aspaces b).rootPhys virt
  active : l.state.kernel.vmm.activeCr3Phys = k.vmm.activeCr3Phys
  state : saveTaskState l.state.kernel = saveTaskState k

/-- **A run gives everything back**, on every way out of it: whatever the allocators answer,
    and whatever the program does. -/
theorem run_releases_all (d : Peripherals δ) (hhdmOffset : UInt64) (f : FlatImage) (a : RunAnswers)
    (prog : Program) (k : Kernel (Host δ)) (hwf : TablesWf k.objects k.caps)
    (hroot : k.vmm.initialized = true → RootOk k.vmm.activeCr3Phys)
    (hcheck : (checkFlatImage f k).1 = .ok ()) (hcode : ∀ i < f.codePages.toNat, (a.code i).1 ≠ .ok 0)
    (hstack : a.userStack.1 ≠ .ok 0)
    (hblock : ∀ b, f.Unmaps k b → prog.Loads fun answers => answers.storage ≠ some b) :
    ((usermodeRunFlatImageHeld f a (runProgram d hhdmOffset prog) k).1,
        (usermodeRunFlatImageHeld f a (runProgram d hhdmOffset prog) k).2.state.kernel) =
      usermodeRunFlatImage f a (runProgram d hhdmOffset prog) k ∧
    RunReleased f k (usermodeRunFlatImageHeld f a (runProgram d hhdmOffset prog) k).2 := by
  have hsame := usermodeRunFlatImageHeld_run f a (runProgram d hhdmOffset prog) k
  have hrefl : (usermodeRunFlatImageHeld f a (runProgram d hhdmOffset prog) k).2.state.kernel =
      (usermodeRunFlatImage f a (runProgram d hhdmOffset prog) k).2 := congrArg Prod.snd hsame
  refine ⟨hsame, ?_⟩
  have hstate : saveTaskState (usermodeRunFlatImageHeld f a (runProgram d hhdmOffset prog) k).2.state.kernel =
      saveTaskState k := by
    rw [hrefl, usermodeRunFlatImage_of_checked f a _ hcheck]
    exact runSaved_state f a _ k
  -- What is held at the end of the body is what the cleanup gives back.
  have hend := runBodyHeld_end f k a (fun b hb => spaceKept_runProgram d hhdmOffset (hblock b hb)) hroot
    hcode hstack
  have hrun : (usermodeRunFlatImageHeld f a (runProgram d hhdmOffset prog) k).2 =
      (runSavedHeld f a (runProgram d hhdmOffset prog) k).2 := by
    unfold usermodeRunFlatImageHeld
    rw [show checkFlatImage f k = (.ok (), k) from Prod.ext hcheck (checkFlatImage_state f k)]
  rw [hrun] at hstate ⊢
  unfold runSavedHeld at hstate ⊢
  generalize runBodyHeld f a (runProgram d hhdmOffset prog) (.start (.start k)) = out at hend hstate ⊢
  obtain ⟨status, l⟩ := out
  dsimp only at hend hstate ⊢
  obtain ⟨l', hclean, howes, htaken⟩ := gives_runCleanup f (saveTaskState k) l.state l [] (by
    rw [List.append_nil]
    exact hend.owes)
  have hkernel := (over_runCleanup f (saveTaskState k) l.state.locals l.state.pages l).2
  rw [hclean] at hstate hkernel ⊢
  -- The page tables are those after the unmappings of the cleanup.
  have hvmm : l'.state.kernel.vmm = (unmapAll f l.state.locals l.state.kernel).2.vmm := by
    rw [← runCleanup_vmm f (saveTaskState k)]
    exact congrArg (fun s => s.1.vmm) hkernel
  refine ⟨howes, ?_, ?_, hstate⟩
  · intro virt hmem
    rw [htaken] at hmem
    rw [hvmm]
    exact hend.unmapped hwf hmem
  · rw [hvmm]
    exact hend.active hroot

/-- The tables of the machine with two tasks. -/
theorem tablesWf_parent : TablesWf parentMachine.objects parentMachine.caps := by
  have hcreate : ∀ storage pages, Within Lasting (userTaskCreate storage pages : K (Host Unit) NewTask) :=
    fun storage pages => userTaskCreate_within (fun _ _ => .of_eq rfl)
      (fun k => (making_addressSpaceCreate storage pages k).lasting)
      (fun ownerCore aspace k => (making_taskCreate ownerCore aspace k).lasting)
      (fun task k => (making_threadCreate task k).lasting)
  have hwf := ((hcreate (some 0) [.ok 0x10000] ((machine ⟨[], true⟩).host RunState.zero)).tokens
    (tablesWf_machine _)).wf
  exact ((hcreate (some 1) [.ok 0x20000] _).tokens hwf).wf

/-- The second task is run with its stack, the page of its image and its user stack, and
    exits. -/
theorem run_releases_all_child :
    (usermodeRunFlatImageHeld childImage childAnswers (runProgram quietPeripherals 0xffff800000000000
      (.exit ⟨0x6ffffff0, 0x400010, 2⟩)) parentMachine).2.taken =
        [.mapping 0x6ffff000, .page 0x50000, .mapping 0x400000, .page 0x30000, .block childStack.base] ∧
    RunReleased childImage parentMachine (usermodeRunFlatImageHeld childImage childAnswers
      (runProgram quietPeripherals 0xffff800000000000 (.exit ⟨0x6ffffff0, 0x400010, 2⟩)) parentMachine).2 := by
  refine ⟨by decide +kernel, (run_releases_all _ _ _ _ (.exit _) _ tablesWf_parent ?_
    reachesInit_child.checked (by decide +kernel) (by decide) (fun _ _ => trivial)).2⟩
  intro _
  exact ⟨by decide +kernel, by decide +kernel⟩

end Scdk
