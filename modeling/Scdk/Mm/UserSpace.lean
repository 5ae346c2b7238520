import Scdk.Mm.Permissions

/-! # Mapping with enough memory

    A page that is not mapped can be mapped when the page allocator has the pages
    for the tables that are missing, which are three at most.

    * `UserSpace`: a root among others, whose user half has links only that
      `scdk_address_space_map` makes,
    * `Supplies`: the page allocator has so many pages,
    * `Growing`: what linking a table keeps, for all the roots and for the pages
      that are still to be handed out,
    * `UserSpace.map`: the mapping succeeds, and changes the lookup of one page,
    * `Untouched`: tables that are not written, since the user half has none of them,
    * `userSpace_newRoot`: a new root is such a space. -/

namespace Scdk

open Radix

/-! ## Spaces -/

/-- Every entry of a table in the user half of `r` is absent or links a table with
    user access. -/
def UserEntries (tables : PageTables) (r : UInt64) : Prop :=
  ∀ p i t, UserPath (p ++ [i]) → walk (childOf tables) r p = some t →
    tables t i &&& Pte.present = 0 ∨ ∃ f, FrameOk f ∧ tables t i = tableEntry f

/-- A root among `roots`, with such a user half. -/
structure UserSpace (tables : PageTables) (roots : UInt64 → Prop) (r : UInt64) : Prop where
  same : SamePath (childOf tables) roots AllPaths
  root : roots r
  entries : UserEntries tables r

theorem UserPath.all {p : List (Fin 512)} (h : UserPath p) : AllPaths p := h.1

section tree

variable {tables : PageTables} {roots : UInt64 → Prop} {r : UInt64}

theorem UserSpace.tree (h : UserSpace tables roots r) : UserTree tables r where
  same := by
    intro r₁ r₂ p₁ p₂ k hr₁ hr₂ hp₁ hp₂ hw₁ hw₂
    exact h.same r₁ r₂ p₁ p₂ k (hr₁ ▸ h.root) (hr₂ ▸ h.root) hp₁.all hp₂.all hw₁ hw₂
  writable := by
    intro p i t hp hw
    rcases h.entries p i t hp hw with habsent | ⟨f, hf, hentry⟩
    · exact .inl habsent
    · right
      rw [hentry, tableEntry_and_low hf (by decide)]
      decide
  user := by
    intro x e hx _ _ p i t hshort hw hpresent
    have hp := tablePaths_user.of_prefix hshort (tablePath_userPath hx)
    obtain ⟨f, hf, hentry⟩ := (h.entries p i t hp hw).resolve_left hpresent
    rw [hentry, tableEntry_and_low hf (by decide)]
    decide

/-- A page that no root reaches along any path. -/
theorem FreshPage.user {f : UInt64} (h : FreshPage tables roots AllPaths f) (hr : roots r) :
    FreshPage tables (· = r) UserPath f :=
  ⟨h.ok, fun r' q hr' hq => h.unreached r' q (hr' ▸ hr) hq.all⟩

section change

variable {t : UInt64} {p : List (Fin 512)} {i : Fin 512} (h : UserSpace tables roots r)

include h

theorem UserSpace.link {f : UInt64} (hi : UserPath (p ++ [i]))
    (ht : walk (childOf tables) r p = some t) (habsent : tables t i &&& Pte.present = 0)
    (hfresh : FreshPage tables roots AllPaths f) :
    UserSpace (linkWith tables t i f Pte.user) roots r := by
  obtain ⟨hsame, _, _, _⟩ := link_kept tablePaths_all h.same h.root hi.all ht habsent hfresh (.inr rfl)
  refine ⟨hsame, h.root, ?_⟩
  intro q j t' hq hw
  by_cases hpresent : linkWith tables t i f Pte.user t' j &&& Pte.present = 0
  · exact .inl hpresent
  right
  rcases h.tree.link_present hi ht habsent (hfresh.user h.root) (.inr rfl) hq hw hpresent with
    ⟨_, _, heq⟩ | ⟨hold, heq, _⟩
  · exact ⟨f, hfresh.ok, heq⟩
  · rw [heq] at hpresent ⊢
    exact (h.entries q j t' hq hold).resolve_left hpresent

theorem UserSpace.setLeaf {virt : UInt64} (hvirt : virt.toNat < 2 ^ 47)
    (ht : walk (childOf tables) r (tablePath virt) = some t) (e : UInt64) :
    UserSpace (tables.setEntry t (ptIndex virt) e) roots r := by
  have hpath := tablePath_userPath hvirt
  obtain ⟨hsame, _, _⟩ :=
    setLeaf_kept tablePaths_all h.same h.root (allPaths_tablePath virt) rfl ht (ptIndex virt) e
  refine ⟨hsame, h.root, ?_⟩
  intro q j t' hq hw
  obtain ⟨hw', heq⟩ := h.tree.table_entries hpath rfl ht e hq hw
  rw [heq]
  exact h.entries q j t' hq hw'

end change

end tree

/-! ## Tables of others -/

/-- The user half of `r` has no table in `S`. -/
def OwnTables (tables : PageTables) (S : UInt64 → Prop) (r : UInt64) : Prop :=
  ∀ p t, UserPath p → walk (childOf tables) r p = some t → ¬ S t

/-- No table in `S` is written, and the user half of `r` still has none of them. -/
structure Untouched (S : UInt64 → Prop) (r : UInt64) (tables tables' : PageTables) : Prop where
  own : OwnTables tables' S r
  same : ∀ t, S t → tables' t = tables t

section others

variable {S : UInt64 → Prop} {r : UInt64} {tables tables' tables'' : PageTables}

theorem OwnTables.untouched (h : OwnTables tables S r) : Untouched S r tables tables :=
  ⟨h, fun _ _ => rfl⟩

theorem Untouched.trans (h : Untouched S r tables tables') (h' : Untouched S r tables' tables'') :
    Untouched S r tables tables'' :=
  ⟨h'.own, fun t ht => (h'.same t ht).trans (h.same t ht)⟩

/-- A page that is not in `S` is linked. -/
theorem OwnTables.link {roots : UInt64 → Prop} {p : List (Fin 512)} {i : Fin 512} {t f flags : UInt64}
    (h : OwnTables tables S r) (hr : roots r) (hi : UserPath (p ++ [i]))
    (ht : walk (childOf tables) r p = some t) (habsent : tables t i &&& Pte.present = 0)
    (hfresh : FreshPage tables roots AllPaths f) (hflags : IsTableFlags flags) (hf : ¬ S f) :
    Untouched S r tables (linkWith tables t i f flags) := by
  have hp : UserPath p := tablePaths_user.closed p i hi
  have hfresh' := hfresh.user hr
  have hne : f ≠ t := by
    refine fresh_ne tablePaths_user ?_ hi ht hfresh'
    rfl
  have hlinked := linked_linkWith hfresh.ok hflags hne habsent
  constructor
  · intro q t' hq hw
    rcases hlinked.walk_new tablePaths_user.closed hfresh'.unreached rfl hq hw with hold | ⟨rfl, _⟩
    · exact h q t' hq hold
    · exact hf
  · intro t' ht'
    have htable : t' ≠ t := fun heq => h p t hp ht (heq ▸ ht')
    have hpage : t' ≠ f := fun heq => hf (heq ▸ ht')
    unfold linkWith PageTables.setEntry
    rw [Function.update_of_ne htable, Function.update_of_ne hpage]

/-- A leaf entry of the user half is written. -/
theorem OwnTables.setLeaf {roots : UInt64 → Prop} {virt t : UInt64} (h : OwnTables tables S r)
    (hspace : UserSpace tables roots r) (hvirt : virt.toNat < 2 ^ 47)
    (ht : walk (childOf tables) r (tablePath virt) = some t) (e : UInt64) :
    Untouched S r tables (tables.setEntry t (ptIndex virt) e) := by
  constructor
  · intro q t' hq hw
    rw [walk_setLeaf tablePaths_all hspace.same.sameLevel hspace.root (allPaths_tablePath virt) rfl ht
      (ptIndex virt) e hspace.root hq.all] at hw
    exact h q t' hq hw
  · intro t' ht'
    have hne : t' ≠ t := fun heq => h _ t (tablePath_userPath hvirt) ht (heq ▸ ht')
    unfold PageTables.setEntry
    rw [Function.update_of_ne hne]

end others

/-! ## Pages for tables -/

/-- The first `n` answers of the page allocator are pages. -/
def Supplies (n : Nat) (pages : PageSupply) : Prop := ∀ i < n, ∃ f, pages[i]? = some (.ok f)

theorem Supplies.tail {n : Nat} {answer : Except Err UInt64} {pages : PageSupply}
    (h : Supplies (n + 1) (answer :: pages)) : Supplies n pages := by
  intro i hi
  obtain ⟨f, hf⟩ := h (i + 1) (by omega)
  exact ⟨f, by simpa using hf⟩

theorem Supplies.head {n : Nat} {pages : PageSupply} (h : Supplies (n + 1) pages) :
    ∃ f rest, pages = .ok f :: rest := by
  obtain ⟨f, hf⟩ := h 0 (by omega)
  cases pages with
  | nil => cases hf
  | cons answer rest => exact ⟨f, rest, by simpa using hf⟩

theorem Supplies.mono {n m : Nat} {pages : PageSupply} (h : Supplies n pages) (hm : m ≤ n) :
    Supplies m pages := fun i hi => h i (by omega)

/-- The pages that a supply still has. -/
def PageSupply.frames (pages : PageSupply) : List UInt64 := pages.filterMap Except.toOption

/-- Tables that were linked for a mapping in `r`, from `tables₀` and the supply
    `pages₀`, with all lookups as they were; other pages stay unreached. -/
structure Growing (tables₀ : PageTables) (roots : UInt64 → Prop) (r : UInt64) (pages₀ : PageSupply)
    (tables : PageTables) (pages : PageSupply) : Prop where
  kept : LookupsKept tables₀ roots AllPaths tables pages
  space : UserSpace tables roots r
  part : ∀ f ∈ pages.frames, f ∈ pages₀.frames
  fresh : ∀ f, f ∉ pages₀.frames → FreshPage tables₀ roots AllPaths f →
    FreshPage tables roots AllPaths f
  untouched : ∀ S, OwnTables tables₀ S r → (∀ f ∈ pages₀.frames, ¬ S f) → Untouched S r tables₀ tables

section growing

variable {tables₀ tables : PageTables} {roots : UInt64 → Prop} {r virt : UInt64}
  {pages₀ pages : PageSupply}

theorem Growing.start (h : UserSpace tables roots r) (hfresh : SupplyFresh tables roots AllPaths pages) :
    Growing tables roots r pages tables pages :=
  ⟨⟨h.same, hfresh, fun _ _ _ _ => rfl⟩, h, fun _ hf => hf, fun _ _ hf => hf,
    fun _ hown _ => hown.untouched⟩

theorem Growing.skip {e : Err} (h : Growing tables₀ roots r pages₀ tables (.error e :: pages)) :
    Growing tables₀ roots r pages₀ tables pages :=
  ⟨h.kept.skip, h.space, h.part, h.fresh, h.untouched⟩

theorem Growing.link {f t : UInt64} {p : List (Fin 512)} {i : Fin 512}
    (h : Growing tables₀ roots r pages₀ tables (.ok f :: pages)) (hvirt : virt.toNat < 2 ^ 47)
    (hshort : p ++ [i] <+: tablePath virt) (ht : walk (childOf tables) r p = some t)
    (habsent : tables t i &&& Pte.present = 0) :
    Growing tables₀ roots r pages₀ (linkWith tables t i f Pte.user) pages ∧ FrameOk f ∧
      walk (childOf (linkWith tables t i f Pte.user)) r (p ++ [i]) = some f := by
  have hi := tablePaths_user.of_prefix hshort (tablePath_userPath hvirt)
  obtain ⟨hf, _, _⟩ := h.kept.supply.head
  have hmem : f ∈ pages₀.frames := h.part f (by simp [PageSupply.frames, Except.toOption])
  obtain ⟨hkept, hok, hself⟩ := h.kept.link tablePaths_all h.space.root (allPaths_tablePath virt)
    (.inr rfl) hshort ht habsent
  obtain ⟨_, _, hfresh, _⟩ :=
    link_kept tablePaths_all h.space.same h.space.root hi.all ht habsent hf (.inr rfl)
  refine ⟨⟨hkept, h.space.link hi ht habsent hf, ?_, ?_, ?_⟩, hok, hself⟩
  · intro g hg
    apply h.part g
    have hrest : g ∈ f :: pages.frames := List.mem_cons_of_mem f hg
    simpa [PageSupply.frames, Except.toOption] using hrest
  · intro g hnot hg
    apply hfresh g _ (h.fresh g hnot hg)
    rintro rfl
    exact hnot hmem
  · intro S hown hout
    have huntouched := h.untouched S hown hout
    exact huntouched.trans (huntouched.own.link h.space.root hi ht habsent hf (.inr rfl) (hout f hmem))

/-- One level is there or can be made. -/
theorem Growing.nextTable (h : Growing tables₀ roots r pages₀ tables pages)
    (hvirt : virt.toNat < 2 ^ 47) {n : Nat} (hsupply : Supplies (n + 1) pages) {p : List (Fin 512)}
    {i : Fin 512} {t : UInt64} (hshort : p ++ [i] <+: tablePath virt)
    (ht : walk (childOf tables) r p = some t) :
    ∃ k tables' pages', nextTable tables pages t i true Pte.user = (.ok k, tables', pages') ∧
      Growing tables₀ roots r pages₀ tables' pages' ∧ Supplies n pages' ∧
      walk (childOf tables') r (p ++ [i]) = some k := by
  have hi := tablePaths_user.of_prefix hshort (tablePath_userPath hvirt)
  unfold Scdk.nextTable
  dsimp only
  rcases h.space.entries p i t hi ht with habsent | ⟨k, hk, hentry⟩
  · obtain ⟨f, rest, rfl⟩ := hsupply.head
    obtain ⟨hgrown, hf, hw⟩ := h.link hvirt hshort ht habsent
    rw [if_pos habsent, if_neg (by decide)]
    have htable : entryTable (tableEntryWith f Pte.user) = .ok f :=
      (entryTable_tableEntryWith hf (.inr rfl)).2
    refine ⟨f, linkWith tables t i f Pte.user, rest, ?_, hgrown, hsupply.tail, hw⟩
    exact congrArg (·, linkWith tables t i f Pte.user, rest) htable
  · have hboth : tables t i &&& Pte.present ≠ 0 ∧ entryTable (tables t i) = .ok k := by
      rw [hentry]
      exact entryTable_tableEntryWith hk (.inr rfl)
    rw [if_neg hboth.1, hboth.2]
    refine ⟨k, tables, pages, rfl, h, hsupply.mono (by omega), ?_⟩
    rw [walk_concat, ht]
    simp [childOf, hboth.1, hboth.2, Except.toOption]

/-- The leaf table is there or can be made. -/
theorem Growing.leafTableForRoot (h : Growing tables₀ roots r pages₀ tables pages)
    (hvirt : virt.toNat < 2 ^ 47) (hsupply : Supplies 3 pages) :
    ∃ pt tables' pages', leafTableForRoot tables pages r virt true Pte.user = (.ok pt, tables', pages') ∧
      Growing tables₀ roots r pages₀ tables' pages' ∧
      walk (childOf tables') r (tablePath virt) = some pt := by
  obtain ⟨pdpt, tables₁, pages₁, hrun₁, hgrown₁, hsupply₁, hw₁⟩ :=
    h.nextTable hvirt hsupply (p := []) (i := pml4Index virt) ⟨[pdptIndex virt, pdIndex virt], rfl⟩ rfl
  obtain ⟨pd, tables₂, pages₂, hrun₂, hgrown₂, hsupply₂, hw₂⟩ :=
    hgrown₁.nextTable hvirt hsupply₁ (p := [pml4Index virt]) (i := pdptIndex virt)
      ⟨[pdIndex virt], rfl⟩ hw₁
  obtain ⟨pt, tables₃, pages₃, hrun₃, hgrown₃, _, hw₃⟩ :=
    hgrown₂.nextTable hvirt hsupply₂ (p := [pml4Index virt, pdptIndex virt]) (i := pdIndex virt)
      ⟨[], rfl⟩ hw₂
  refine ⟨pt, tables₃, pages₃, ?_, hgrown₃, hw₃⟩
  unfold Scdk.leafTableForRoot
  rw [hrun₁]
  dsimp only
  rw [hrun₂]
  exact hrun₃

end growing

/-! ## One mapping -/

/-- What a mapping at `virt` in `r` does to all roots. -/
structure PageMapped (v v' : Vmm) (roots : UInt64 → Prop) (r virt entry : UInt64)
    (pages : PageSupply) : Prop where
  space : UserSpace v'.tables roots r
  active : v'.activeCr3Phys = v.activeCr3Phys
  initialized : v'.initialized = v.initialized
  lookup : lookupEntry v'.tables r virt = .ok entry
  others : OthersKept roots AllPaths v v' virt
  fresh : ∀ f, f ∉ pages.frames → FreshPage v.tables roots AllPaths f →
    FreshPage v'.tables roots AllPaths f
  untouched : ∀ S, OwnTables v.tables S r → (∀ f ∈ pages.frames, ¬ S f) → Untouched S r v.tables v'.tables

/-- A mapping for user mode, with the pages it may need. -/
theorem UserSpace.map {v : Vmm} {roots : UInt64 → Prop} {r virt phys flags : UInt64}
    {pages : PageSupply} (h : UserSpace v.tables roots r) (hinit : v.initialized = true)
    (hroot : RootOk r) (hpage : UserPage virt) (hphys : phys.toNat % 4096 = 0)
    (hflags : flags = 0 ∨ flags = vmmMapWrite) (hfresh : SupplyFresh v.tables roots AllPaths pages)
    (hsupply : Supplies 3 pages) (hnoent : lookupEntry v.tables r virt = .error .noent) :
    ∃ v', vmmMapPageInRoot v pages r virt phys (flags ||| vmmMapUser) = (.ok (), v') ∧
      PageMapped v v' roots r virt (leafEntry phys (flags ||| vmmMapUser)) pages := by
  have hvirt := hpage.2
  obtain ⟨pt, tables, pages', hrun, hgrown, hpt⟩ :=
    (Growing.start h hfresh).leafTableForRoot hvirt hsupply
  -- The page is not mapped, so its entry in the leaf table is free.
  have hfree : tables pt (ptIndex virt) &&& Pte.present = 0 := by
    have hlookup := hgrown.kept.lookup r virt h.root (allPaths_tablePath virt)
    rw [hnoent] at hlookup
    unfold lookupEntry at hlookup
    rw [lookupAlong_of_walk hpt] at hlookup
    by_contra hpresent
    rw [if_neg hpresent] at hlookup
    cases hlookup
  have haligned : isPageAligned phys = true := (isPageAligned_iff phys).mpr hphys
  have hmask : (flags ||| vmmMapUser) &&& ~~~(vmmMapWrite ||| vmmMapUser) = 0 := by
    rcases hflags with rfl | rfl
    · decide
    · decide
  have hleaf : leafTableForRoot v.tables pages r virt true
      (if (flags ||| vmmMapUser) &&& vmmMapUser ≠ 0 then Pte.user else 0) = (.ok pt, tables, pages') := by
    rw [if_pos (user_flag_set flags)]
    exact hrun
  set e := leafEntry phys (flags ||| vmmMapUser) with he
  obtain ⟨hsame, hself, hother⟩ := setLeaf_kept tablePaths_all hgrown.space.same h.root
    (allPaths_tablePath virt) rfl hpt (ptIndex virt) e
  refine ⟨{ v with tables := tables.setEntry pt (ptIndex virt) e }, ?_, ?_⟩
  · unfold vmmMapPageInRoot
    rw [validateRoot_ok hinit hroot, validateVmmAddress_ok hinit hpage]
    dsimp only
    rw [if_neg (by simp [haligned, hmask]), hleaf]
    dsimp only
    rw [if_neg (by simp [hfree])]
  · refine ⟨hgrown.space.setLeaf hvirt hpt e, rfl, rfl, ?_, ?_, ?_, ?_⟩
    · unfold lookupEntry
      rw [lookupAlong_of_walk hself, PageTables.setEntry_self, if_neg (leafEntry_present _ _)]
    · intro r' x hr' hx hne
      rw [← hgrown.kept.lookup r' x hr' hx]
      exact hother r' x hr' hx hne
    · intro f hnot hf
      have hgrownf := hgrown.fresh f hnot hf
      refine ⟨hgrownf.ok, ?_⟩
      intro r' q hr' hq
      rw [walk_setLeaf tablePaths_all hgrown.space.same.sameLevel h.root (allPaths_tablePath virt) rfl
        hpt (ptIndex virt) e hr' hq]
      exact hgrownf.unreached r' q hr' hq
    · intro S hown hout
      have huntouched := hgrown.untouched S hown hout
      exact huntouched.trans (huntouched.own.setLeaf hgrown.space hvirt hpt e)

/-- Unmapping a user page. -/
theorem UserSpace.unmap {v : Vmm} {roots : UInt64 → Prop} {r virt : UInt64}
    (h : UserSpace v.tables roots r) (hvirt : virt.toNat < 2 ^ 47) :
    UserSpace (vmmUnmapPageInRoot v r virt).2.tables roots r ∧
      ∀ S, OwnTables v.tables S r → Untouched S r v.tables (vmmUnmapPageInRoot v r virt).2.tables := by
  rcases vmmUnmapPageInRoot_state v r virt with heq | ⟨pt, hpt, heq⟩
  · rw [heq]
    exact ⟨h, fun _ hown => hown.untouched⟩
  · rw [heq]
    exact ⟨h.setLeaf hvirt hpt 0, fun _ hown => hown.setLeaf h hvirt hpt 0⟩

/-! ## A root with nothing mapped -/

section newRoot

variable {tables : PageTables} {roots : List UInt64} {boot f : UInt64} (hboot : boot ∈ roots)
  (hfresh : FreshPage tables (· ∈ roots) AllPaths f)

include hboot hfresh

theorem userSpace_newRoot (hsame : SamePath (childOf tables) (· ∈ roots) AllPaths) :
    UserSpace (newRoot tables boot f) (· ∈ f :: roots) f where
  same := samePath_newRoot hboot hfresh hsame
  root := List.mem_cons_self
  entries := by
    intro p i t hp hw
    have hshort : UserPath p := tablePaths_user.closed p i hp
    obtain ⟨rfl, rfl⟩ := walk_newRoot_user hshort hw
    left
    rw [newRoot_low (hp.2 i (by simp)), UInt64.zero_and]

omit hboot hfresh in
/-- It has no table of others. -/
theorem untouched_newRoot {S : UInt64 → Prop} (hf : ¬ S f) :
    Untouched S f tables (newRoot tables boot f) where
  own := by
    intro p t hp hw
    obtain ⟨_, rfl⟩ := walk_newRoot_user hp hw
    exact hf
  same := by
    intro t ht
    have hne : t ≠ f := fun heq => hf (heq ▸ ht)
    unfold newRoot
    rw [Function.update_of_ne hne]

/-- Other pages stay unreached. -/
theorem FreshPage.newRoot {g : UInt64} (hg : FreshPage tables (· ∈ roots) AllPaths g) (hne : g ≠ f) :
    FreshPage (Scdk.newRoot tables boot f) (· ∈ f :: roots) AllPaths g := by
  refine ⟨hg.ok, ?_⟩
  intro r q hr hq hw
  rcases walk_newRoot_cases hboot hfresh hr hq hw with ⟨_, heq⟩ | ⟨r', hr', hwas⟩
  · exact hne heq
  · exact hg.unreached r' q hr' hq hwas

theorem SupplyFresh.newRoot {pages : PageSupply}
    (h : SupplyFresh tables (· ∈ roots) AllPaths pages) (hne : f ∉ pages.frames) :
    SupplyFresh (Scdk.newRoot tables boot f) (· ∈ f :: roots) AllPaths pages := by
  refine ⟨h.nodup, ?_⟩
  intro g hg
  refine FreshPage.newRoot hboot hfresh (h.fresh g hg) ?_
  rintro rfl
  exact hne hg

omit hboot in
/-- The roots there were have the lookups they had. -/
theorem lookupEntry_newRoot {r : UInt64} (hr : r ∈ roots) (x : UInt64) :
    lookupEntry (newRoot tables boot f) r x = lookupEntry tables r x := by
  exact lookupEntry_newRoot_of_unreached (fun q hq => hfresh.unreached r q hr hq) x

end newRoot

end Scdk
