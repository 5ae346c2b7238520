import Scdk.Arch.FlatRun
import Scdk.Core.ProgramRule
import Scdk.Core.TaskCreation
import Scdk.Services.Directory

/-! # What programs leave alone

    * `StaysUp`: paging and user mode stay initialized, and what lasts does,
    * `staysUp_runProgram`: every program makes such a step, with all that it spawns,
    * `outsideStays_platform`: so the directory of services stays over programs,
    * `MapsNothing`: the page tables and the address spaces are as before, as they are
      after a program whose spawns are refused. -/

namespace Scdk

variable {δ : Type}

/-- What has been initialized stays so. -/
structure StaysUp (k k' : Kernel (Host δ)) : Prop where
  paging : k'.vmm.initialized = k.vmm.initialized
  usermode : k.devices.run.usermodeInitialized = true → k'.devices.run.usermodeInitialized = true
  lasting : Lasting k k'

instance : IsPreorder (Kernel (Host δ)) StaysUp where
  refl := fun k => ⟨rfl, id, refl k⟩
  trans := fun _ _ _ h h' => ⟨h'.paging.trans h.paging, fun hup => h'.usermode (h.usermode hup),
    IsTrans.trans _ _ _ h.lasting h'.lasting⟩

/-- Steps outside of the page tables and of the run. -/
theorem Lasting.staysUp {k k' : Kernel (Host δ)} (h : Lasting k k') (hvmm : k'.vmm = k.vmm)
    (hup : k'.devices.run.usermodeInitialized = k.devices.run.usermodeInitialized) :
    StaysUp k k' := by
  refine ⟨by rw [hvmm], ?_, h⟩
  rw [hup]
  exact id

section staysUp

variable (f : FlatImage) (a : RunAnswers) {user : K (Host δ) Unit}

theorem staysUp_usermodeRunFlatImage (huser : Effect.Within StaysUp user) :
    Effect.Within StaysUp (usermodeRunFlatImage f a user) := by
  intro k
  cases hcheck : (checkFlatImage f k).1 with
  | error e =>
    rw [usermodeRunFlatImage_of_refused f a user hcheck]
    exact refl k
  | ok _ =>
    rw [usermodeRunFlatImage_of_checked f a user hcheck]
    -- A run that ends before its program has at most been set up and cleaned up.
    cases runSaved_run f a user k with
    | idle _ hkept =>
      refine ⟨hkept.paging, ?_, hkept.lasting⟩
      rw [hkept.usermode]
      exact id
    | failed _ _ hbegan hended =>
      refine ⟨hended.paging.trans hbegan.paging, fun _ => ?_,
        IsTrans.trans _ _ _ hbegan.lasting hended.lasting⟩
      rw [hended.usermode]
      exact hbegan.usermode
    | @entered _ k₁ _ _ hbegan hended =>
      have hprogram := huser k₁
      refine ⟨hended.paging.trans (hprogram.paging.trans hbegan.paging), fun _ => ?_, ?_⟩
      · rw [hended.usermode]
        exact hprogram.usermode hbegan.usermode
      · exact IsTrans.trans _ _ _ hbegan.lasting (IsTrans.trans _ _ _ hprogram.lasting hended.lasting)

theorem staysUp_steps :
    ProgramSteps (StaysUp : Kernel (Host δ) → Kernel (Host δ) → Prop) fun _ => True where
  noted := fun h => h.lasting.staysUp h.vmm (by rw [h.run])
  faulted := fun h => h.lasting.staysUp h.vmm (by rw [h.run])
  tasks := fun _ _ => Lasting.staysUp (.of_eq rfl) rfl rfl
  cells := fun _ _ _ _ => Lasting.staysUp (.of_eq rfl) rfl rfl
  create := fun a _ => userTaskCreate_within (fun _ _ => Lasting.staysUp (.of_eq rfl) rfl rfl)
    (fun k => ⟨addressSpaceCreate_initialized _ _ _ _ _ _, id,
      (making_addressSpaceCreate a.storage a.rootPages k).lasting⟩)
    (fun ownerCore aspace k => (making_taskCreate ownerCore aspace k).lasting.staysUp rfl rfl)
    (fun task k => (making_threadCreate task k).lasting.staysUp rfl rfl)
  run := fun f a _ huser => staysUp_usermodeRunFlatImage f a huser

end staysUp

theorem staysUp_runProgram (d : Peripherals δ) (hhdmOffset : UInt64) (prog : Program) :
    Effect.Within StaysUp (runProgram d hhdmOffset prog) :=
  staysUp_steps.runProgram d hhdmOffset prog.loads_true

/-- The platform of the user tasks, whatever program a call may spawn, leaves the directory of
    services alone. -/
theorem outsideStays_platform (d : Peripherals δ) (hhdmOffset : UInt64) (answers : LoadAnswers)
    (prog : Program) :
    OutsideStays (d.platform (spawnWith d hhdmOffset answers (runProgram d hhdmOffset prog))) where
  spawn := by
    intro k
    have hspawn : StaysUp k (spawnWith d hhdmOffset answers (runProgram d hhdmOffset prog) k).2 :=
      staysUp_steps.spawnWith d hhdmOffset trivial (staysUp_runProgram d hhdmOffset prog) k
    exact Lasting.stays (IsTrans.trans _ _ _ hspawn.lasting (.of_eq rfl))
  devmgr := fun _ => .of_eq rfl
  grantTest := fun _ => .of_eq rfl
  yield := fun _ => .of_eq rfl

/-! ## Programs that spawn nothing -/

/-- The page tables and the address spaces are as before. -/
structure MapsNothing (k k' : Kernel (Host δ)) : Prop where
  vmm : k'.vmm = k.vmm
  aspaces : k'.devices.run.aspaces = k.devices.run.aspaces

instance : IsPreorder (Kernel (Host δ)) MapsNothing where
  refl := fun _ => ⟨rfl, rfl⟩
  trans := fun _ _ _ h h' => ⟨h'.vmm.trans h.vmm, h'.aspaces.trans h.aspaces⟩

theorem mapsNothing_calls : CallSteps (MapsNothing : Kernel (Host δ) → Kernel (Host δ) → Prop) where
  noted := fun h => ⟨h.vmm, by rw [h.run]⟩
  faulted := fun h => ⟨h.vmm, by rw [h.run]⟩
  cells := fun _ _ _ _ => ⟨rfl, rfl⟩

/-- A loader without room for the path refuses before it makes anything. -/
theorem mapsNothing_spawnWith (d : Peripherals δ) (hhdmOffset : UInt64) {answers : LoadAnswers}
    (user : K (Host δ) Unit) (hpath : answers.path = 0) :
    Effect.Within MapsNothing (spawnWith d hhdmOffset answers user) := by
  have hload : ∀ path endpoint k, loaderLoadFromVfs (d.platform noSpawn) hhdmOffset answers user path
      endpoint k = (.error .inval, k) := by
    intro path endpoint k
    have hargs : ¬ (answers.path ≠ 0 ∧ hhdmOffset ≠ 0 ∧ endpoint ≠ 0) := fun h => h.1 hpath
    exact Effect.bind_of_error (Effect.require_neg hargs _) _
  refine .bind (Effect.within_ask _) fun path => ?_
  refine .bind (Effect.within_ask _) fun endpoint => ?_
  -- The refused load leaves the state that it was given.
  have haside : Effect.Within MapsNothing (K.aside (loaderLoadFromVfs (d.platform noSpawn) hhdmOffset
      answers user path endpoint)) := by
    intro k
    unfold K.aside
    rw [hload]
    exact ⟨rfl, rfl⟩
  refine haside.bind fun task => ?_
  refine .bind (fun k => ⟨rfl, rfl⟩) fun _ => ?_
  exact Effect.within_modify fun _ => ⟨rfl, rfl⟩

/-- **A program whose spawns are refused** maps nothing. -/
theorem mapsNothing_runProgram (d : Peripherals δ) (hhdmOffset : UInt64) {prog : Program}
    (hloads : prog.Loads fun answers => answers.path = 0) :
    Effect.Within MapsNothing (runProgram d hhdmOffset prog) := by
  refine mapsNothing_calls.runProgram d hhdmOffset (fun answers user hpath _ => ?_) hloads
  exact mapsNothing_spawnWith d hhdmOffset user hpath

end Scdk
