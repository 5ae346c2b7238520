import Scdk.Mm.RootTree

/-! # The kernel half of the address spaces

    A root made by `scdk_vmm_create_root` takes over the upper 256 entries of the
    root that is active then, and these are the only link between its kernel half
    and that of the other roots.  The copies never diverge: no call writes an upper
    entry of a root, as long as it maps below the entries that the boot root had
    from the start.

    The tables need not form a tree.  It is enough that no page is used as a table
    of two levels (`Radix.SameLevel`): then a root is no lower table of any root.

    Contents:
    * `TopShared`: the upper entries of all roots are those of the boot root,
    * `TopShared.link`, `TopShared.setLeaf`, `TopShared.newRoot`: one write,
    * `KernelShared.step`: one call,
    * `kernel_half_shared`: all roots translate a kernel address alike. -/

namespace Scdk

open Radix

/-- `i` is the index of an upper entry of a root. -/
def IsUpper (i : Fin 512) : Prop := 256 ≤ i.val

instance (i : Fin 512) : Decidable (IsUpper i) := inferInstanceAs (Decidable (256 ≤ i.val))

/-- No page is a table of two levels, and the roots have the upper entries `top`. -/
structure TopShared (top : Fin 512 → UInt64) (roots : List UInt64) (tables : PageTables) :
    Prop where
  level : SameLevel (childOf tables) (· ∈ roots) AllPaths
  upper : ∀ r ∈ roots, ∀ i, IsUpper i → tables r i = top i

section writes

variable {top : Fin 512 → UInt64} {roots : List UInt64} {tables : PageTables}
  (h : TopShared top roots tables) {r t : UInt64} {p : List (Fin 512)} (hr : r ∈ roots)
  (hp : AllPaths p) (ht : walk (childOf tables) r p = some t)

include h hr hp ht

/-- A table below a root is not a root. -/
theorem TopShared.eq_nil_of_root (hroot : t ∈ roots) : p = [] :=
  List.eq_nil_of_length_eq_zero
    (h.level r t p [] t hr hroot hp (Nat.zero_le 3) ht rfl)

theorem TopShared.setLeaf (hlen : p.length = 3) (i : Fin 512) (e : UInt64) :
    TopShared top roots (tables.setEntry t i e) where
  level := by
    intro r₁ r₂ p₁ p₂ k hr₁ hr₂ hp₁ hp₂ hw₁ hw₂
    rw [walk_setLeaf tablePaths_all h.level hr hp hlen ht i e hr₁ hp₁] at hw₁
    rw [walk_setLeaf tablePaths_all h.level hr hp hlen ht i e hr₂ hp₂] at hw₂
    exact h.level r₁ r₂ p₁ p₂ k hr₁ hr₂ hp₁ hp₂ hw₁ hw₂
  upper := by
    intro r' hr' j hj
    rw [PageTables.setEntry_ne]
    · exact h.upper r' hr' j hj
    · -- The leaf table would be a root.
      rintro ⟨rfl, _⟩
      rw [h.eq_nil_of_root hr hp ht hr'] at hlen
      cases hlen

/-- Linking a table writes no upper entry of a root, where the upper entry that the
    mapping goes through is present. -/
theorem TopShared.link {i : Fin 512} {f flags : UInt64} (hf : FreshPage tables (· ∈ roots) AllPaths f)
    (hflags : IsTableFlags flags) (habsent : tables t i &&& Pte.present = 0)
    (htop : p = [] → IsUpper i → top i &&& Pte.present ≠ 0) :
    TopShared top roots (linkWith tables t i f flags) where
  level := by
    have hft : f ≠ t := fun heq => hf.unreached r p hr hp (heq ▸ ht)
    exact h.level.link tablePaths_all.closed hf.unreached
      (linked_linkWith hf.ok hflags hft habsent)
  upper := by
    intro r' hr' j hj
    rw [linkWith_other]
    · exact h.upper r' hr' j hj
    · intro heq
      exact hf.unreached r' [] hr' (Nat.zero_le 3) (heq ▸ rfl)
    · rintro ⟨rfl, rfl⟩
      have hnil := h.eq_nil_of_root hr hp ht hr'
      rw [h.upper r' hr' j hj] at habsent
      exact htop hnil hj habsent

end writes

theorem TopShared.newRoot {top : Fin 512 → UInt64} {roots : List UInt64} {tables : PageTables}
    (h : TopShared top roots tables) {active f : UInt64} (hactive : active ∈ roots)
    (hf : FreshPage tables (· ∈ roots) AllPaths f) :
    TopShared top (f :: roots) (newRoot tables active f) where
  level := by
    intro r r' p p' k hr hr' hp hp' hw hw'
    exact paths_newRoot hactive hf (R := fun p p' => p.length = p'.length) rfl h.level hr hr' hp
      hp' hw hw'
  upper := by
    intro r hr i hi
    rcases List.mem_cons.mp hr with rfl | hr
    · rw [newRoot_high hi]
      exact h.upper active hactive i hi
    · rw [newRoot_other]
      · exact h.upper r hr i hi
      · intro heq
        exact hf.unreached r [] hr (Nat.zero_le 3) (heq ▸ rfl)

/-! ## Mapping and unmapping -/

/-- What `next_table` keeps while it makes the tables of a mapping. -/
structure TablesShared (top : Fin 512 → UInt64) (roots : List UInt64) (tables : PageTables)
    (pages : PageSupply) : Prop extends TopShared top roots tables where
  supply : SupplyFresh tables (· ∈ roots) AllPaths pages

section calls

variable {top : Fin 512 → UInt64} {roots : List UInt64} {v : Vmm} {r virt : UInt64}
  (hr : r ∈ roots)

include hr

theorem TablesShared.link {tables : PageTables} {f flags : UInt64} {pages : PageSupply}
    (h : TablesShared top roots tables (.ok f :: pages)) (hflags : IsTableFlags flags)
    (htop : IsUpper (pml4Index virt) → top (pml4Index virt) &&& Pte.present ≠ 0)
    {p : List (Fin 512)} {i : Fin 512} {t : UInt64} (hshort : p ++ [i] <+: tablePath virt)
    (ht : walk (childOf tables) r p = some t) (habsent : tables t i &&& Pte.present = 0) :
    TablesShared top roots (linkWith tables t i f flags) pages ∧ FrameOk f ∧
      walk (childOf (linkWith tables t i f flags)) r (p ++ [i]) = some f := by
  have hpath : AllPaths (p ++ [i]) := tablePaths_all.of_prefix hshort (allPaths_tablePath virt)
  have hp := tablePaths_all.closed p i hpath
  obtain ⟨hf, hne, hrest⟩ := h.supply.head
  have hft : f ≠ t := fun heq => hf.unreached r p hr hp (heq ▸ ht)
  have hlinked := linked_linkWith hf.ok hflags hft habsent
  have hupper : p = [] → IsUpper i → top i &&& Pte.present ≠ 0 := by
    rintro rfl
    obtain rfl : i = pml4Index virt := by simpa [tablePath] using hshort
    exact htop
  refine ⟨⟨h.toTopShared.link hr hp ht hf hflags habsent hupper, hrest.nodup, ?_⟩, hf.ok, ?_⟩
  · intro f' hf'
    refine ⟨(hrest.fresh f' hf').ok, ?_⟩
    intro r' q hr' hq hw
    rcases hlinked.walk_new tablePaths_all.closed hf.unreached hr' hq hw with hold | ⟨rfl, _⟩
    · exact (hrest.fresh f' hf').unreached r' q hr' hq hold
    · exact hne hf'
  · rw [walk_concat, hlinked.walk_old tablePaths_all.closed hf.unreached hr hp ht]
    exact hlinked.link

/-- `scdk_vmm_map_page_in_root` -/
theorem vmmMapPageInRoot_shared (h : TopShared top roots v.tables) {pages : PageSupply}
    (hfresh : SupplyFresh v.tables (· ∈ roots) AllPaths pages)
    (htop : IsUpper (pml4Index virt) → top (pml4Index virt) &&& Pte.present ≠ 0)
    (phys flags : UInt64) :
    ∃ res tables, vmmMapPageInRoot v pages r virt phys flags = (res, { v with tables }) ∧
      TopShared top roots tables := by
  unfold vmmMapPageInRoot
  split
  · exact ⟨_, _, rfl, h⟩
  split
  · exact ⟨_, _, rfl, h⟩
  split
  · exact ⟨_, _, rfl, h⟩
  obtain ⟨res, tables, pages', hrun, hshared, hw⟩ :=
    leafTableForRoot_rule (I := TablesShared top roots) (r := r)
      (fun _ _ _ h => ⟨h.toTopShared, h.supply.skip⟩)
      (fun _ _ _ _ _ _ h => h.link hr (isTableFlags_of flags) htop) (isTableFlags_of flags)
      ⟨h, hfresh⟩
  have hrun' : leafTableForRoot v.tables pages r virt true
      (if flags &&& vmmMapUser ≠ 0 then Pte.user else 0) = (res, tables, pages') := hrun
  dsimp only
  rw [hrun']
  cases res with
  | error e => exact ⟨_, _, rfl, hshared.toTopShared⟩
  | ok pt =>
    dsimp only
    split
    · exact ⟨_, _, rfl, hshared.toTopShared⟩
    · exact ⟨_, _, rfl, hshared.toTopShared.setLeaf hr (allPaths_tablePath virt) (hw pt rfl) rfl _ _⟩

/-- `scdk_vmm_unmap_page_in_root` -/
theorem vmmUnmapPageInRoot_shared (h : TopShared top roots v.tables) (virt : UInt64) :
    ∃ res tables, vmmUnmapPageInRoot v r virt = (res, { v with tables }) ∧
      TopShared top roots tables := by
  unfold vmmUnmapPageInRoot
  split
  · exact ⟨_, _, rfl, h⟩
  split
  · exact ⟨_, _, rfl, h⟩
  obtain ⟨res, hrun, _, hw⟩ := leafTableForRoot_noCreate v.tables r virt
  rw [hrun]
  cases res with
  | error e => exact ⟨_, _, rfl, h⟩
  | ok pt =>
    dsimp only
    split
    · exact ⟨_, _, rfl, h⟩
    · exact ⟨_, _, rfl, h.setLeaf hr (allPaths_tablePath virt) (hw pt rfl) rfl _ _⟩

end calls

/-! ## Runs -/

/-- The state after `scdk_vmm_init`: there is one root, and no page is a table of
    two levels. -/
structure BootTables (boot : RootTables) : Prop where
  roots : boot.roots = [boot.vmm.activeCr3Phys]
  level : SameLevel (childOf boot.vmm.tables) (· ∈ boot.roots) AllPaths
  valid : validateRoot boot.vmm boot.vmm.activeCr3Phys = .ok ()

/-- The upper half of the boot root, as it was at the start. -/
def bootTop (boot : RootTables) : Fin 512 → UInt64 := boot.vmm.tables boot.vmm.activeCr3Phys

/-- The runs that start from `boot`. -/
def kernelSystem (boot : RootTables) : System RootTables VmmCall (Except Err Unit) where
  init := fun w => w = boot
  step := rootStep

/-- The calls are made on the roots there are.  A mapping in the kernel half goes
    through an entry that the boot root has from the start.  The page allocator
    hands out no page that is in use as a table, and not the page at address 0,
    which is never usable memory. -/
def KernelGuard (boot w : RootTables) : VmmCall → Prop
  | .createRoot pages =>
    SupplyFresh w.vmm.tables (· ∈ w.roots) AllPaths pages ∧
      0 ∉ pages.filterMap Except.toOption
  | .activateRoot rootPhys => rootPhys ∈ w.roots
  | .mapPage pages rootPhys virt _ _ =>
    rootPhys ∈ w.roots ∧ SupplyFresh w.vmm.tables (· ∈ w.roots) AllPaths pages ∧
      (IsUpper (pml4Index virt) → bootTop boot (pml4Index virt) &&& Pte.present ≠ 0)
  | .unmapPage rootPhys _ => rootPhys ∈ w.roots

/-- What holds in every run: the upper halves are those of the boot root. -/
structure KernelShared (boot w : RootTables) : Prop
    extends TopShared (bootTop boot) w.roots w.vmm.tables where
  initialized : w.vmm.initialized = true
  active : w.vmm.activeCr3Phys ∈ w.roots
  start : boot.vmm.activeCr3Phys ∈ w.roots
  valid : ∀ r ∈ w.roots, r ≠ 0 ∧ isPageAligned r = true

theorem BootTables.shared {boot : RootTables} (h : BootTables boot) : KernelShared boot boot := by
  obtain ⟨hinit, hne, haligned⟩ := validateRoot_eq_ok.mp h.valid
  refine ⟨⟨h.level, ?_⟩, hinit, ?_, ?_, ?_⟩
  · intro r hr i _
    rw [h.roots, List.mem_singleton] at hr
    rw [hr]
    rfl
  · rw [h.roots]
    exact List.mem_singleton_self _
  · rw [h.roots]
    exact List.mem_singleton_self _
  · intro r hr
    rw [h.roots, List.mem_singleton] at hr
    rw [hr]
    exact ⟨hne, haligned⟩

theorem KernelShared.step {boot w : RootTables} (h : KernelShared boot w) {call : VmmCall}
    (hguard : KernelGuard boot w call) : KernelShared boot (rootStep w call).2 := by
  cases call with
  | createRoot pages =>
    rcases vmmCreateRoot_tree h.active hguard.1 with ⟨e, hrun⟩ | ⟨f, hrun, hf, hmem⟩
    · simp only [rootStep, hrun]
      exact h
    · simp only [rootStep, hrun]
      refine ⟨h.toTopShared.newRoot h.active hf, h.initialized, List.mem_cons_of_mem _ h.active,
        List.mem_cons_of_mem _ h.start, ?_⟩
      intro r hr
      rcases List.mem_cons.mp hr with rfl | hr
      · exact ⟨fun hzero => hguard.2 (hzero ▸ hmem), (isPageAligned_iff r).mpr hf.ok.1⟩
      · exact h.valid r hr
  | activateRoot rootPhys =>
    simp only [rootStep, vmmActivateRoot]
    cases validateRoot w.vmm rootPhys with
    | error e => exact h
    | ok _ => exact ⟨h.toTopShared, h.initialized, hguard, h.start, h.valid⟩
  | mapPage pages rootPhys virt phys flags =>
    obtain ⟨res, tables, hrun, hshared⟩ :=
      vmmMapPageInRoot_shared hguard.1 h.toTopShared hguard.2.1 hguard.2.2 phys flags
    simp only [rootStep, hrun]
    exact ⟨hshared, h.initialized, h.active, h.start, h.valid⟩
  | unmapPage rootPhys virt =>
    obtain ⟨res, tables, hrun, hshared⟩ :=
      vmmUnmapPageInRoot_shared hguard h.toTopShared virt
    simp only [rootStep, hrun]
    exact ⟨hshared, h.initialized, h.active, h.start, h.valid⟩

/-- A lookup sees of the root only one entry. -/
theorem leafTableForRoot_congr {tables : PageTables} {r r' virt : UInt64}
    (h : tables r (pml4Index virt) = tables r' (pml4Index virt)) :
    leafTableForRoot tables [] r virt false 0 = leafTableForRoot tables [] r' virt false 0 := by
  have hnext : nextTable tables [] r (pml4Index virt) false 0 =
      nextTable tables [] r' (pml4Index virt) false 0 := by
    unfold nextTable
    rw [h]
    rfl
  unfold leafTableForRoot
  rw [hnext]

/-- **One kernel half.**  In every run, an address of the kernel half translates in
    every root as it does in the boot root. -/
theorem kernel_half_shared {boot w : RootTables} (hboot : BootTables boot)
    {log : List (VmmCall × Except Err Unit)}
    (hrun : (kernelSystem boot).RunWhen (KernelGuard boot) log w) {r : UInt64} (hr : r ∈ w.roots)
    {virt : UInt64} (hvirt : IsUpper (pml4Index virt)) :
    vmmVirtToPhysInRoot w.vmm r virt =
      vmmVirtToPhysInRoot w.vmm boot.vmm.activeCr3Phys virt := by
  have hshared : KernelShared boot w := by
    apply hrun.invariant (P := KernelShared boot)
    · rintro w rfl
      exact hboot.shared
    · exact fun w call h hg => h.step hg
  have hvalid : ∀ r' ∈ w.roots, validateRoot w.vmm r' = .ok () :=
    fun r' hr' => validateRoot_eq_ok.mpr ⟨hshared.initialized, hshared.valid r' hr'⟩
  have hentry : w.vmm.tables r (pml4Index virt) =
      w.vmm.tables boot.vmm.activeCr3Phys (pml4Index virt) := by
    rw [hshared.upper r hr _ hvirt, hshared.upper _ hshared.start _ hvirt]
  unfold vmmVirtToPhysInRoot
  rw [hvalid r hr, hvalid _ hshared.start, leafTableForRoot_congr hentry]

/-! ### A mapping made in another root -/

/-- Boot tables with one table below the first upper entry. -/
def oneTable : RootTables :=
  ⟨⟨fun t i => if t = 0x1000 ∧ i = 256 then 0x2003 else 0, 0x1000, true⟩, [0x1000]⟩

/-- A second root, and a page of the kernel half that is mapped in it. -/
def secondRoot : List VmmCall :=
  [.createRoot [.ok 0x5000],
    .mapPage [.ok 0x3000, .ok 0x4000] 0x5000 0xffff800000000000 0x9000 1]

/-- Links from a few tables to one other table, which has none. -/
def OneLevel (tables : PageTables) (from_ : List UInt64) (k₀ : UInt64) : Prop :=
  ∀ t i k, childOf tables t i = some k → t ∈ from_ ∧ k = k₀

theorem OneLevel.walk_eq {tables : PageTables} {from_ : List UInt64} {k₀ : UInt64}
    (h : OneLevel tables from_ k₀) (hk₀ : k₀ ∉ from_) {r k : UInt64} {p : List (Fin 512)}
    (hw : walk (childOf tables) r p = some k) : p = [] ∧ k = r ∨ p.length = 1 ∧ k = k₀ := by
  induction p using List.reverseRecOn generalizing k with
  | nil => exact .inl ⟨rfl, (Option.some.inj hw).symm⟩
  | append_singleton p i ih =>
    rw [walk_concat] at hw
    obtain ⟨t, ht, hchild⟩ := Option.bind_eq_some_iff.mp hw
    obtain ⟨hfrom, hk⟩ := h t i k hchild
    rcases ih ht with ⟨rfl, _⟩ | ⟨_, rfl⟩
    · exact .inr ⟨rfl, hk⟩
    · exact absurd hfrom hk₀

/-- Pages that are none of these tables are fresh. -/
theorem OneLevel.fresh {tables : PageTables} {from_ : List UInt64} {k₀ : UInt64}
    (h : OneLevel tables from_ k₀) (hk₀ : k₀ ∉ from_) {roots : List UInt64} {f : UInt64}
    (hok : FrameOk f) (hroots : f ∉ roots) (hne : f ≠ k₀) :
    FreshPage tables (· ∈ roots) AllPaths f := by
  refine ⟨hok, ?_⟩
  intro r q hr _ hw
  rcases h.walk_eq hk₀ hw with ⟨_, rfl⟩ | ⟨_, hk⟩
  · exact hroots hr
  · exact hne hk

theorem oneTable_oneLevel : OneLevel oneTable.vmm.tables [0x1000] 0x2000 := by
  intro t i k h
  by_cases hti : t = 0x1000 ∧ i = 256
  · obtain ⟨rfl, rfl⟩ := hti
    exact ⟨List.mem_singleton_self _, (Option.some.inj h).symm⟩
  · simp [childOf, oneTable, hti] at h

theorem oneTable_boot : BootTables oneTable where
  roots := rfl
  level := by
    intro r r' p p' k hr hr' _ _ hw hw'
    obtain rfl := List.mem_singleton.mp hr
    obtain rfl := List.mem_singleton.mp hr'
    rcases oneTable_oneLevel.walk_eq (by decide) hw with ⟨rfl, rfl⟩ | ⟨hlen, rfl⟩
    · rcases oneTable_oneLevel.walk_eq (by decide) hw' with ⟨rfl, _⟩ | ⟨_, hk⟩
      · rfl
      · exact absurd hk (by decide)
    · rcases oneTable_oneLevel.walk_eq (by decide) hw' with ⟨_, hk⟩ | ⟨hlen', _⟩
      · exact absurd hk (by decide)
      · rw [hlen, hlen']
  valid := by decide

/-- The new root has the link of the boot root. -/
theorem secondRoot_oneLevel :
    OneLevel (newRoot oneTable.vmm.tables 0x1000 0x5000) [0x1000, 0x5000] 0x2000 := by
  intro t i k h
  by_cases ht : t = 0x5000
  · subst ht
    by_cases hi : i.val < 256
    · simp [childOf, newRoot_low hi] at h
    · have hentry : newRoot oneTable.vmm.tables 0x1000 0x5000 0x5000 i = oneTable.vmm.tables 0x1000 i :=
        newRoot_high (Nat.not_lt.mp hi)
      have hboot : childOf oneTable.vmm.tables 0x1000 i = some k := by
        simpa only [childOf, hentry] using h
      exact ⟨by decide, (oneTable_oneLevel _ _ _ hboot).2⟩
  · have hold : childOf oneTable.vmm.tables t i = some k := by
      rw [← childOf_congr (newRoot_other ht i)]
      exact h
    obtain ⟨hmem, hk⟩ := oneTable_oneLevel _ _ _ hold
    exact ⟨List.mem_of_mem_head? (by simpa using (List.mem_singleton.mp hmem).symm), hk⟩

theorem secondRoot_guarded :
    (kernelSystem oneTable).Guarded (KernelGuard oneTable) oneTable secondRoot := by
  have hfirst : SupplyFresh oneTable.vmm.tables (· ∈ oneTable.roots) AllPaths [.ok 0x5000] := by
    refine ⟨by decide, ?_⟩
    intro f hf
    obtain rfl := List.mem_singleton.mp hf
    exact oneTable_oneLevel.fresh (by decide) (by decide) (by decide) (by decide)
  have hcreate : (rootStep oneTable (.createRoot [.ok 0x5000])).2 =
      ⟨⟨newRoot oneTable.vmm.tables 0x1000 0x5000, 0x1000, true⟩, [0x5000, 0x1000]⟩ := by
    rcases vmmCreateRoot_tree (List.mem_singleton_self _) hfirst with ⟨e, hrun⟩ | ⟨f, hrun, _, hf⟩
    · exact absurd (congrArg Prod.fst hrun) nofun
    · obtain rfl := List.mem_singleton.mp hf
      simp only [rootStep, hrun]
      rfl
  refine ⟨⟨hfirst, by decide⟩, ?_⟩
  show System.Guarded _ _ (rootStep oneTable (.createRoot [.ok 0x5000])).2 _
  rw [hcreate]
  refine ⟨⟨by decide, ⟨by decide, ?_⟩, by decide⟩, trivial⟩
  intro f hf
  have hpage : f = 0x3000 ∨ f = 0x4000 := by
    simpa [Except.toOption, eq_comm] using hf
  rcases hpage with rfl | rfl
  · exact secondRoot_oneLevel.fresh (by decide) (by decide) (by decide) (by decide)
  · exact secondRoot_oneLevel.fresh (by decide) (by decide) (by decide) (by decide)

/-- The boot root sees the page that was mapped in the second root. -/
theorem kernel_half_shared_second :
    vmmVirtToPhysInRoot ((kernelSystem oneTable).exec oneTable secondRoot).vmm 0x1000
      0xffff800000000000 = .ok (0x9000, vmmMapWrite) := by
  obtain ⟨log, hrun⟩ := System.RunWhen.exec (.init rfl) secondRoot_guarded
  have hupper : IsUpper (pml4Index 0xffff800000000000) := by decide
  have hsame := kernel_half_shared oneTable_boot hrun (r := 0x5000) (by decide +kernel) hupper
  have hsecond : vmmVirtToPhysInRoot ((kernelSystem oneTable).exec oneTable secondRoot).vmm 0x5000
      0xffff800000000000 = .ok (0x9000, vmmMapWrite) := by
    rfl
  exact hsame.symm.trans hsecond

end Scdk
