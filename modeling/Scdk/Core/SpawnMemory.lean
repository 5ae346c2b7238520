import Scdk.Arch.RunRelease
import Scdk.Core.ProgramStays
import Scdk.Core.SpawnRoom
import Scdk.Mm.ActiveSpace

/-! # What a spawn does to memory

    The pages of a program are mapped in an address space of its own, and unmapped there
    when it has come back.  The address space that was active is as it was.

    * `Clears`: steps that unmap pages of one address space; `leaveUsermode_clears`: the
      way back from user mode,
    * `SpawnMemory`: memory for a spawn; `SpawnMemory.kept`: it is there as long as the
      active address space is as it was,
    * `Loading.activeKept`: and so it is after a load. -/

namespace Scdk

open Radix Effect

variable {δ : Type}

/-! ## Unmapping in one address space -/

/-- The token is that of an address space with this root, and has all rights for it. -/
def NamesRoot (k : Kernel (Host δ)) (aspace root : UInt64) : Prop :=
  ∃ b, SpaceToken k aspace b ∧ (k.devices.run.aspaces b).rootPhys = root

/-- A step that unmaps pages through this token, with `root` for its root. -/
structure Clears (roots : UInt64 → Prop) (aspace root : UInt64) (k k' : Kernel (Host δ)) : Prop where
  rest : k' = { k with vmm := k'.vmm }
  active : k'.vmm.activeCr3Phys = k.vmm.activeCr3Phys
  initialized : k'.vmm.initialized = k.vmm.initialized
  space : NamesRoot k aspace root → UserSpace k.vmm.tables roots root →
    UserSpace k'.vmm.tables roots root ∧
      ∀ S, OwnTables k.vmm.tables S root → Untouched S root k.vmm.tables k'.vmm.tables

section clears

variable {roots : UInt64 → Prop} {aspace root : UInt64} {k k' k'' : Kernel (Host δ)} {f : FlatImage}

theorem Clears.names (h : Clears roots aspace root k k') (hroot : NamesRoot k aspace root) :
    NamesRoot k' aspace root := by
  rw [h.rest]
  exact hroot

instance : IsPreorder (Kernel (Host δ)) (Clears roots aspace root) where
  refl := fun _ => ⟨rfl, rfl, rfl, fun _ hspace => ⟨hspace, fun _ hown => hown.untouched⟩⟩
  trans := by
    intro k k' k'' h h'
    refine ⟨by rw [h'.rest, h.rest], h'.active.trans h.active, h'.initialized.trans h.initialized, ?_⟩
    intro hroot hspace
    obtain ⟨hspace', huntouched⟩ := h.space hroot hspace
    obtain ⟨hspace'', huntouched'⟩ := h'.space (h.names hroot) hspace'
    refine ⟨hspace'', fun S hown => ?_⟩
    have hfirst := huntouched S hown
    exact hfirst.trans (huntouched' S hfirst.own)

theorem clears_addressSpaceUnmap (virt : UInt64) :
    Within (Clears roots aspace root) (K.addressSpaceUnmap aspace virt : K (Host δ) Unit) := by
  intro k
  have hunmap := unmapping_addressSpaceUnmap aspace virt k
  have hmapped := mapped_addressSpaceUnmap aspace virt k
  refine ⟨hunmap.rest, hunmap.active, hmapped.paging, ?_⟩
  intro hnames hspace
  obtain ⟨b, htoken, hroot⟩ := hnames
  -- The token leads to the space with this root, so it is there that a page is unmapped.
  have hlookup : lookupAspace k.objects k.caps k.devices.run.aspaces aspace (Right.map ||| Right.read) =
      .ok b := htoken.rights (by decide) (by decide)
  show UserSpace (Scdk.addressSpaceUnmap _ _ _ k.vmm aspace virt).2.tables roots root ∧
    ∀ S, OwnTables k.vmm.tables S root → Untouched S root k.vmm.tables
      (Scdk.addressSpaceUnmap _ _ _ k.vmm aspace virt).2.tables
  unfold Scdk.addressSpaceUnmap
  rw [hlookup]
  cases hvalid : validateUserPage virt with
  | error e => exact ⟨hspace, fun _ hown => hown.untouched⟩
  | ok _ =>
    dsimp only
    rw [hroot]
    exact hspace.unmap (userPage_of_validate hvalid).2

theorem clears_unmapCodePages (n : Nat) :
    ∀ i, Within (Clears roots f.aspace root) (unmapCodePages f i n : K (Host δ) Unit) := by
  induction n with
  | zero =>
    intro i
    exact within_pure ()
  | succ n ih =>
    intro i
    refine .bind (clears_addressSpaceUnmap _).attempt fun _ => ?_
    exact ih (i + 1)

theorem clears_unmapUserStack (stackMapped : Bool) :
    Within (Clears roots f.aspace root) (unmapUserStack f stackMapped : K (Host δ) Unit) := by
  refine .ite ?_ (within_pure ())
  refine .bind (clears_addressSpaceUnmap _).attempt fun _ => ?_
  exact within_pure ()

/-- What is left to unmap when the root is restored. -/
theorem clears_unmapAll {l : RunLocals} (hl : l.bootRoot = none) :
    Within (Clears roots f.aspace root) (unmapAll f l : K (Host δ) Unit) := by
  intro k
  rw [unmapAll_run, hl]
  exact IsTrans.trans _ _ _ (clears_unmapUserStack l.stackMapped k) (clears_unmapCodePages _ 0 _)

variable (roots root) in
/-- **The way back from user mode** activates a root and unmaps the pages of the run. -/
theorem leaveUsermode_clears (f : FlatImage) (saved : SyscallTaskState) (boot : UInt64) (l : RunLocals)
    (k : Kernel (Host δ)) :
    ∃ k₁, Clears roots f.aspace root { k with vmm := (vmmActivateRoot k.vmm boot).2 } k₁ ∧
      (leaveUsermode f saved boot l k).2.vmm = k₁.vmm ∧
      SameRoom k (leaveUsermode f saved boot l k).2 := by
  have hafter := afterUsermode_state boot k l
  unfold leaveUsermode
  generalize afterUsermode boot (k, l) = out at hafter ⊢
  obtain ⟨status, k', l'⟩ := out
  obtain ⟨rfl, rfl⟩ := Prod.mk.inj hafter
  -- The root is activated before anything is unmapped; if that fails, the status says so,
  -- and the pages are unmapped all the same.
  set k' : Kernel (Host δ) := { k with vmm := (vmmActivateRoot k.vmm boot).2 } with hk'
  set l' : RunLocals := { l with bootRoot := none } with hl'
  have hclears : Clears roots f.aspace root k' (unmapAll f l' k').2 := clears_unmapAll rfl k'
  refine ⟨_, hclears, runCleanup_vmm f saved l' k', ?_⟩
  have hleft : SameRoom k' (unmapAll f l' k').2 := by
    rw [hclears.rest]
    exact sameRoom_of_names (refl _) rfl rfl rfl rfl rfl
  have hrest : SameRoom (unmapAll f l' k').2 (runCleanup f saved l' k').2 := by
    unfold runCleanup
    rw [bind_of_ok (Prod.ext (unmapAll_ok f l' k') rfl),
      bind_of_ok (show restoreTaskState saved _ = (.ok (), _) from rfl)]
    cases l'.stack with
    | none => exact sameRoom_of_names (refl _) rfl rfl rfl rfl rfl
    | some stack => exact sameRoom_of_names (refl _) rfl rfl rfl rfl rfl
  have hstart : SameRoom k k' := sameRoom_of_names (refl _) rfl rfl rfl rfl rfl
  exact IsTrans.trans _ _ _ hstart (IsTrans.trans _ _ _ hleft hrest)

end clears

/-! ## Memory for a spawn -/

/-- Memory for a spawn of the file `f`, and page tables to come back to. -/
structure SpawnMemory (a : LoadAnswers) (f : InitrdFile) (k : Kernel (Host δ)) : Prop where
  root : RootOk k.vmm.activeCr3Phys
  load : ∃ image b root frame roots, LoadMemory a f.data.length image b root frame roots k

section memory

variable {k k' : Kernel (Host δ)} {a : LoadAnswers} {f : InitrdFile} {size : Nat} {image : UInt64} {b : Nat}
  {root : UInt64} {frame : Nat → UInt64} {roots : List UInt64}

/-- A buffer whose bytes are where they were. -/
theorem Buffer.of_translate {v v' : Vmm} {virt : UInt64} {n : Nat} (h : Buffer v virt n)
    (hsame : ∀ x, vmmVirtToPhys v' x = vmmVirtToPhys v x) : Buffer v' virt n where
  maps := by
    intro i hi
    rw [hsame]
    exact h.maps i hi
  apart := by
    intro i j phys flags flags' hi hj hphys hphys'
    rw [hsame] at hphys hphys'
    exact h.apart hi hj hphys hphys'

/-- Other roots do not matter. -/
theorem LoadMemory.of_active (h : LoadMemory a size image b root frame roots k) :
    LoadMemory a size image b root frame [k.vmm.activeCr3Phys] k := by
  have hsub : ∀ r, r ∈ [k.vmm.activeCr3Phys] → r ∈ roots := by
    intro r hr
    obtain rfl := List.mem_singleton.mp hr
    exact h.active
  have hpages := h.pages
  exact { h with
    active := List.mem_singleton_self _
    same := fun r r' p p' t hr hr' => h.same r r' p p' t (hsub r hr) (hsub r' hr')
    rootFresh := h.rootFresh.of_roots hsub
    pages := { hpages with fresh := fun i hi => (hpages.fresh i hi).of_roots hsub } }

/-- What is known of the active address space is all that counts. -/
theorem LoadMemory.kept (h : LoadMemory a size image b root frame [k.vmm.activeCr3Phys] k)
    (hkept : ActiveKept k.vmm k'.vmm) :
    LoadMemory a size image b root frame [k'.vmm.activeCr3Phys] k' := by
  have htranslate : ∀ x, vmmVirtToPhys k'.vmm x = vmmVirtToPhys k.vmm x := by
    intro x
    unfold vmmVirtToPhys
    rw [hkept.active]
    exact vmmVirtToPhysInRoot_congr hkept.initialized (hkept.lookup x)
  have hpages := h.pages
  rw [hkept.active]
  exact { h with
    initialized := hkept.initialized.trans h.initialized
    active := hkept.active ▸ h.active
    same := hkept.samePath h.same
    buffer := h.buffer.of_translate htranslate
    elsewhere := fun o ho phys flags hphys => h.elsewhere o ho phys flags (htranslate _ ▸ hphys)
    rootFresh := hkept.fresh h.rootFresh
    pages := { hpages with fresh := fun i hi => hkept.supply (hpages.fresh i hi) } }

theorem SpawnMemory.kept (h : SpawnMemory a f k) (hkept : ActiveKept k.vmm k'.vmm) : SpawnMemory a f k' := by
  obtain ⟨image, b, root, frame, roots, hload⟩ := h.load
  refine ⟨?_, image, b, root, frame, _, hload.of_active.kept hkept⟩
  rw [hkept.active]
  exact h.root

end memory

/-! ## A load -/

section load

variable {k k₁ k₂ kᵤ k' : Kernel (Host δ)} {a : LoadAnswers} {f : InitrdFile} {image : UInt64} {b : Nat}
  {root endpoint : UInt64} {frame : Nat → UInt64} {roots : List UInt64} {new : NewTask} {i : Fin maxTasks}
  {j : Fin maxThreads} {fl : FlatImage} {stack : StackPage}

/-- A program is entered in an address space of its own. -/
structure OwnSpace (roots : List UInt64) (root aspace : UInt64) (k kᵤ : Kernel (Host δ)) : Prop where
  names : NamesRoot kᵤ aspace root
  space : UserSpace kᵤ.vmm.tables (· ∈ root :: roots) root
  initialized : kᵤ.vmm.initialized = k.vmm.initialized
  untouched : Untouched (Reached k.vmm.tables k.vmm.activeCr3Phys) root k.vmm.tables kᵤ.vmm.tables

/-- The pages for it are none of the tables that were there. -/
theorem Loading.ownSpace (h : Loading f image b root endpoint new i j k k₁ k₂)
    (hmem : LoadMemory a f.data.length image b root frame roots k)
    (hentered : Entered fl a.run (imagePages f.data.length) frame (· ∈ root :: roots) b
      ((k₂.startTask new.task i j).onStack stack) kᵤ) :
    OwnSpace roots root new.addressSpace k kᵤ := by
  obtain ⟨k₃, hpages, rfl⟩ := hentered.state
  set S := Reached k.vmm.tables k.vmm.activeCr3Phys with hS
  have hvmm₁ : k₁.vmm = k.vmm := by rw [h.read.rest.1]
  have hspaceroot : (((k₂.startTask new.task i j).onStack stack).devices.run.aspaces b).rootPhys = root :=
    h.placed.root
  have htables : ((k₂.startTask new.task i j).onStack stack).vmm.tables =
      newRoot k.vmm.tables k.vmm.activeCr3Phys root := by
    show k₂.vmm.tables = _
    rw [h.placed.vmm, hvmm₁]
  -- Up to here the new root is the only table that was written.
  have hrootout : ¬ S root := hmem.rootFresh.not_reached hmem.active
  have hstart : Untouched S root k.vmm.tables ((k₂.startTask new.task i j).onStack stack).vmm.tables := by
    rw [htables]
    exact untouched_newRoot hrootout
  -- The tables for the pages come from the allocator, so the active root does not reach them.
  have hmapped : Untouched S root ((k₂.startTask new.task i j).onStack stack).vmm.tables k₃.vmm.tables := by
    have huntouched := hpages.untouched S
    rw [hspaceroot] at huntouched
    apply huntouched hstart.own
    intro m hm g hg
    exact ((hmem.pages.fresh m (by omega)).fresh g hg).not_reached hmem.active
  have hobjects : k₃.objects = k₂.objects ∧ k₃.caps = k₂.caps := by
    rw [hpages.rest]
    exact ⟨rfl, rfl⟩
  have haspaces : k₃.devices.run.aspaces = k₂.devices.run.aspaces := by
    rw [hpages.rest]
    simp only [Kernel.onStack, Kernel.startTask]
  refine ⟨⟨b, ?_, ?_⟩, ?_, ?_, hstart.trans hmapped⟩
  · show lookupAspace k₃.objects k₃.caps k₃.devices.run.aspaces new.addressSpace spaceRights = .ok b
    rw [hobjects.1, hobjects.2, haspaces]
    exact h.placed.token
  · show (k₃.devices.run.aspaces b).rootPhys = root
    rw [haspaces, h.placed.root]
  · have hspace := hpages.space
    rw [hspaceroot] at hspace
    exact hspace
  · show k₃.vmm.initialized = _
    rw [hpages.initialized, hmem.initialized]

/-- It is unmapped when the program has come back. -/
theorem OwnSpace.leave (h : OwnSpace roots root fl.aspace k kᵤ) (hquiet : MapsNothing kᵤ k')
    (hlast : Lasting kᵤ k') (hwf : TablesWf kᵤ.objects kᵤ.caps) (hinit : k.vmm.initialized = true)
    (hroot : RootOk k.vmm.activeCr3Phys) (saved : SyscallTaskState) (l : RunLocals) :
    ActiveKept k.vmm (leaveUsermode fl saved k.vmm.activeCr3Phys l k').2.vmm := by
  obtain ⟨k₁, hclears, hvmm, _⟩ :=
    leaveUsermode_clears (· ∈ root :: roots) root fl saved k.vmm.activeCr3Phys l k'
  have hactivate : (vmmActivateRoot k'.vmm k.vmm.activeCr3Phys).2 =
      { k'.vmm with activeCr3Phys := k.vmm.activeCr3Phys } := by
    unfold vmmActivateRoot
    rw [validateRoot_ok (by rw [hquiet.vmm, h.initialized, hinit]) hroot]
  have hnames : NamesRoot k' fl.aspace root := by
    obtain ⟨b, htoken, hb⟩ := h.names
    exact ⟨b, htoken.lasting hlast hwf hquiet.aspaces, by rw [hquiet.aspaces, hb]⟩
  rw [hvmm]
  rw [hactivate] at hclears
  -- The program has mapped nothing, so its space is as the load has left it.
  have hspace : UserSpace k'.vmm.tables (· ∈ root :: roots) root := by
    rw [hquiet.vmm]
    exact h.space
  obtain ⟨_, huntouched⟩ := hclears.space hnames hspace
  have hall := huntouched (Reached k.vmm.tables k.vmm.activeCr3Phys)
    (show OwnTables k'.vmm.tables _ root from hquiet.vmm ▸ h.untouched.own)
  refine ⟨hclears.initialized.trans ?_, hclears.active, ?_⟩
  · show k'.vmm.initialized = _
    rw [hquiet.vmm, h.initialized]
  · intro t ht
    -- not written on the way back, by the program or by the load
    rw [hall.same t ht]
    show k'.vmm.tables t = _
    rw [hquiet.vmm, h.untouched.same t ht]

end load

end Scdk
