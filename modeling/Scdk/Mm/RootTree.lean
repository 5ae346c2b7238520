import Scdk.Mm.PageTables
import Scdk.Lib.Run

/-! # Page tables that roots may share

    Roots made by `scdk_vmm_create_root` share the tables of the kernel half, and
    any mapping may be made in any of them.  What is needed for one page not to
    affect another one is that each table is reached along the same path from
    all roots (`Radix.SamePath`).

    Contents:
    * `linkWith`, `link_kept`: linking a new table keeps the paths and the lookups,
    * `leafTableForRoot_rule`: what linking keeps, `leaf_table_for_root` keeps,
    * `vmmMapPageInRoot_tree`, `vmmUnmapPageInRoot_tree`: one call,
    * `map_affects_one_page`: the pages that a call affects. -/

namespace Scdk

open Radix

/-! ## Entries of tables with and without user access -/

/-- The entry that `next_table` writes for the table `f`. -/
def tableEntryWith (f flags : UInt64) : UInt64 := f ||| Pte.present ||| Pte.writable ||| flags

/-- The flags of a table entry, from those of a mapping. -/
def IsTableFlags (flags : UInt64) : Prop := flags = 0 ∨ flags = Pte.user

theorem tableEntryWith_bits {f flags m : UInt64} (hf : FrameOk f) (hflags : IsTableFlags flags)
    (hm : m.toNat < 4096) : tableEntryWith f flags &&& m = (3 ||| flags) &&& m := by
  have hlow : ∀ c : UInt64, c.toNat < 4096 → (f ||| c) &&& m = c &&& m :=
    fun c hc => or_low_and_low hf.1 hc hm
  unfold tableEntryWith
  rw [UInt64.or_assoc, UInt64.or_assoc]
  rcases hflags with rfl | rfl
  · exact hlow _ (by decide)
  · exact hlow _ (by decide)

theorem entryTable_tableEntryWith {f flags : UInt64} (hf : FrameOk f) (hflags : IsTableFlags flags) :
    tableEntryWith f flags &&& Pte.present ≠ 0 ∧ entryTable (tableEntryWith f flags) = .ok f := by
  have hpresent := tableEntryWith_bits hf hflags (show Pte.present.toNat < 4096 by decide)
  have hhuge := tableEntryWith_bits hf hflags (show Pte.huge.toNat < 4096 by decide)
  have haddr : tableEntryWith f flags &&& Pte.addr = f := by
    unfold tableEntryWith
    rw [UInt64.or_assoc, UInt64.or_assoc]
    rcases hflags with rfl | rfl
    · exact or_low_and_addr hf (by decide)
    · exact or_low_and_addr hf (by decide)
  constructor
  · rw [hpresent]
    rcases hflags with rfl | rfl
    · decide
    · decide
  · unfold entryTable
    rw [hhuge, haddr, if_neg]
    rcases hflags with rfl | rfl
    · decide
    · decide

/-- The tables after the zeroed page `f` was linked at index `i` of `t`. -/
def linkWith (tables : PageTables) (t : UInt64) (i : Fin 512) (f flags : UInt64) : PageTables :=
  PageTables.setEntry (Function.update tables f fun _ => 0) t i (tableEntryWith f flags)

section entries

variable {tables : PageTables} {t f flags : UInt64} {i : Fin 512}

theorem linkWith_link : linkWith tables t i f flags t i = tableEntryWith f flags :=
  PageTables.setEntry_self _ _ _ _

theorem linkWith_fresh (hft : f ≠ t) (j : Fin 512) : linkWith tables t i f flags f j = 0 := by
  unfold linkWith
  rw [PageTables.setEntry_ne (fun hc => hft hc.1), Function.update_self]

theorem linkWith_other {t' : UInt64} {j : Fin 512} (hf : t' ≠ f) (hne : ¬ (t' = t ∧ j = i)) :
    linkWith tables t i f flags t' j = tables t' j := by
  unfold linkWith
  rw [PageTables.setEntry_ne hne, Function.update_of_ne hf]

theorem linked_linkWith (hf : FrameOk f) (hflags : IsTableFlags flags) (hft : f ≠ t)
    (habsent : tables t i &&& Pte.present = 0) :
    Linked (childOf tables) (childOf (linkWith tables t i f flags)) t i f where
  empty := by simp [childOf, habsent]
  link := by
    obtain ⟨hpresent, hentry⟩ := entryTable_tableEntryWith hf hflags
    simp [childOf, linkWith_link, hpresent, hentry, Except.toOption]
  fresh := by
    intro j
    simp [childOf, linkWith_fresh hft]
  other := by
    intro t' j hf' hne
    exact childOf_congr (linkWith_other hf' hne)

end entries

/-! ## Paths -/

/-- A set of paths to tables: closed under prefixes, with at most three levels. -/
structure TablePaths (paths : List (Fin 512) → Prop) : Prop where
  closed : ∀ p i, paths (p ++ [i]) → paths p
  length : ∀ p, paths p → p.length ≤ 3

theorem TablePaths.of_prefix {paths : List (Fin 512) → Prop} (h : TablePaths paths)
    {p q : List (Fin 512)} (hpq : p <+: q) (hq : paths q) : paths p := by
  obtain ⟨rest, rfl⟩ := hpq
  induction rest using List.reverseRecOn with
  | nil => simpa using hq
  | append_singleton rest i ih =>
    apply ih
    apply h.closed _ i
    rw [List.append_assoc]
    exact hq

/-- All paths to tables. -/
def AllPaths (p : List (Fin 512)) : Prop := p.length ≤ 3

theorem tablePaths_all : TablePaths AllPaths where
  closed := by
    intro p i h
    unfold AllPaths at *
    rw [List.length_append] at h
    omega
  length := fun _ h => h

theorem tablePaths_user : TablePaths UserPath := ⟨userPath_closed, fun _ h => h.1⟩

/-- `f` can be used as a page table: no root reaches it. -/
structure FreshPage (tables : PageTables) (roots : UInt64 → Prop) (paths : List (Fin 512) → Prop)
    (f : UInt64) : Prop where
  ok : FrameOk f
  unreached : ∀ r q, roots r → paths q → walk (childOf tables) r q ≠ some f

/-- The page allocator answers with pages that no root reaches as a page table,
    each once, and with failures at any point. -/
structure SupplyFresh (tables : PageTables) (roots : UInt64 → Prop)
    (paths : List (Fin 512) → Prop) (pages : PageSupply) : Prop where
  nodup : (pages.filterMap Except.toOption).Nodup
  fresh : ∀ f ∈ pages.filterMap Except.toOption, FreshPage tables roots paths f

theorem SupplyFresh.skip {tables : PageTables} {roots : UInt64 → Prop}
    {paths : List (Fin 512) → Prop} {e : Err} {pages : PageSupply}
    (h : SupplyFresh tables roots paths (.error e :: pages)) :
    SupplyFresh tables roots paths pages := ⟨h.nodup, h.fresh⟩

/-- The first page of a supply, and what is left. -/
theorem SupplyFresh.head {tables : PageTables} {roots : UInt64 → Prop}
    {paths : List (Fin 512) → Prop} {f : UInt64} {pages : PageSupply}
    (h : SupplyFresh tables roots paths (.ok f :: pages)) :
    FreshPage tables roots paths f ∧ f ∉ pages.filterMap Except.toOption ∧
      SupplyFresh tables roots paths pages := by
  have hhead : (Except.ok f : Except Err UInt64).toOption = some f := rfl
  have hnodup := h.nodup
  have hall := h.fresh
  rw [List.filterMap_cons_some hhead] at hnodup hall
  obtain ⟨hnot, hrest⟩ := List.nodup_cons.mp hnodup
  refine ⟨hall f List.mem_cons_self, hnot, hrest, ?_⟩
  intro f' hf'
  exact hall f' (List.mem_cons_of_mem _ hf')

section tree

variable {tables : PageTables} {roots : UInt64 → Prop} {paths : List (Fin 512) → Prop}
  {r t : UInt64} {p : List (Fin 512)} {i : Fin 512}

/-- The paths of the lookup of an address. -/
theorem lookup_path {virt : UInt64} {q : List (Fin 512)} {j : Fin 512}
    (hshort : q ++ [j] <+: tablePath virt ++ [ptIndex virt]) : q <+: tablePath virt := by
  have hlen := hshort.length_le
  apply List.prefix_of_prefix_length_le ((List.prefix_append _ _).trans hshort)
    (List.prefix_append _ _)
  simp only [List.length_append, List.length_singleton] at hlen
  omega

/-! ### Linking a table -/

section link

variable {f flags : UInt64} (hpaths : TablePaths paths)
  (hsame : SamePath (childOf tables) roots paths) (hr : roots r) (hi : paths (p ++ [i]))
  (ht : walk (childOf tables) r p = some t) (habsent : tables t i &&& Pte.present = 0)
  (hfresh : FreshPage tables roots paths f) (hflags : IsTableFlags flags)

include hpaths hr hi ht hfresh in
theorem fresh_ne : f ≠ t := by
  intro heq
  exact hfresh.unreached r p hr (hpaths.closed p i hi) (heq ▸ ht)

include hpaths hsame hr hi ht hfresh in
/-- An entry that a walk reads is the one written, or as before. -/
theorem linkWith_read {r' t' : UInt64} {q : List (Fin 512)} {j : Fin 512} (hr' : roots r')
    (hq : paths q) (hw : walk (childOf tables) r' q = some t') (hne : ¬ (q = p ∧ t' = t ∧ j = i)) :
    linkWith tables t i f flags t' j = tables t' j := by
  apply linkWith_other
  · intro heq
    exact hfresh.unreached r' q hr' hq (heq ▸ hw)
  · intro hlink
    rw [hlink.1] at hw
    have hqp := hsame r' r q p t hr' hr hq (hpaths.closed p i hi) hw ht
    exact hne ⟨hqp, hlink⟩

include hpaths hsame hr hi ht habsent hfresh hflags in
/-- Linking a fresh table keeps the paths and the lookups. -/
theorem link_kept :
    SamePath (childOf (linkWith tables t i f flags)) roots paths ∧
      walk (childOf (linkWith tables t i f flags)) r (p ++ [i]) = some f ∧
      (∀ f', f' ≠ f → FreshPage tables roots paths f' →
        FreshPage (linkWith tables t i f flags) roots paths f') ∧
      ∀ r' v, roots r' → paths (tablePath v) →
        lookupEntry (linkWith tables t i f flags) r' v = lookupEntry tables r' v := by
  have hp := hpaths.closed p i hi
  have hft := fresh_ne hpaths hr hi ht hfresh
  have hlinked := linked_linkWith hfresh.ok hflags hft habsent
  have hwalk : ∀ r' (q : List (Fin 512)), roots r' → paths q → _ := fun r' q hr' hq =>
    hsame.walk_link (q := q) hpaths.closed hr hp ht hfresh.unreached hlinked hr' hq
  refine ⟨hsame.link hpaths.closed hr hp ht hfresh.unreached hlinked, ?_, ?_, ?_⟩
  · rcases hwalk r (p ++ [i]) hr hi with ⟨_, _, hw⟩ | ⟨hne, _⟩
    · exact hw
    · exact absurd ⟨ht, rfl⟩ hne
  · intro f' hne hf'
    refine ⟨hf'.ok, ?_⟩
    intro r' q hr' hq hw
    rcases hwalk r' q hr' hq with ⟨_, _, hx⟩ | ⟨_, hx⟩
    · exact hne (Option.some.inj (hw.symm.trans hx))
    · exact hf'.unreached r' q hr' hq (hx.symm.trans hw)
  · intro r' v hr' hv
    by_cases hthrough : walk (childOf tables) r' p = some t ∧ p ++ [i] <+: tablePath v
    · -- The lookup ended at the absent entry, and now ends in the empty table.
      obtain ⟨ht', rest, hrest⟩ := hthrough
      have hself : walk (childOf (linkWith tables t i f flags)) r' (p ++ [i]) = some f := by
        rcases hwalk r' (p ++ [i]) hr' hi with ⟨_, _, hw⟩ | ⟨hne, _⟩
        · exact hw
        · exact absurd ⟨ht', rfl⟩ hne
      unfold lookupEntry
      have hbefore : lookupAlong tables r' (ptIndex v) (tablePath v) = .error .noent := by
        rw [← hrest, List.append_assoc]
        exact lookupAlong_absent ht' habsent
      rw [hbefore, ← hrest]
      cases rest with
      | nil =>
        rw [List.append_nil, lookupAlong_of_walk hself, linkWith_fresh hft]
        rfl
      | cons j rest =>
        refine lookupAlong_absent hself ?_
        rw [linkWith_fresh hft]
        rfl
    · apply lookupAlong_congr
      intro q j t' hshort hw
      have hqv := lookup_path hshort
      apply linkWith_read hpaths hsame hr hi ht hfresh hr' (hpaths.of_prefix hqv hv) hw
      intro hc
      obtain ⟨rfl, rfl, rfl⟩ := hc
      apply hthrough
      refine ⟨hw, ?_⟩
      -- The entry is not one of a leaf table, since the path goes on.
      have hlen := hpaths.length _ hi
      rw [List.length_append, List.length_singleton] at hlen
      apply List.prefix_of_prefix_length_le hshort (List.prefix_append _ _)
      simp only [List.length_append, tablePath, List.length_cons, List.length_nil]
      omega

end link

/-! ### Writing a leaf entry -/

section leaf

variable (hpaths : TablePaths paths) (hlevel : SameLevel (childOf tables) roots paths)
  (hsame : SamePath (childOf tables) roots paths) (hr : roots r) (hp : paths p)
  (hlen : p.length = 3) (ht : walk (childOf tables) r p = some t) (i : Fin 512) (e : UInt64)

include hpaths hlevel hr hp hlen ht in
theorem walk_setLeaf {r' : UInt64} {q : List (Fin 512)} (hr' : roots r') (hq : paths q) :
    walk (childOf (tables.setEntry t i e)) r' q = walk (childOf tables) r' q := by
  refine walk_frame paths hpaths.closed ?_ hq
  intro q' j t' hq' hw
  apply childOf_congr
  apply PageTables.setEntry_ne
  intro hc
  rw [hc.1] at hw
  have hqp := hlevel r' r q' p t hr' hr (hpaths.closed q' j hq') hp hw ht
  have hlen' := hpaths.length _ hq'
  rw [List.length_append, List.length_singleton, hqp, hlen] at hlen'
  omega

include hpaths hsame hr hp hlen ht in
/-- Writing a leaf entry keeps the paths, and changes the lookups of one page. -/
theorem setLeaf_kept :
    SamePath (childOf (tables.setEntry t i e)) roots paths ∧
      walk (childOf (tables.setEntry t i e)) r p = some t ∧
      ∀ r' v, roots r' → paths (tablePath v) → ¬ (tablePath v = p ∧ ptIndex v = i) →
        lookupEntry (tables.setEntry t i e) r' v = lookupEntry tables r' v := by
  have hwalk : ∀ r' q, roots r' → paths q →
      walk (childOf (tables.setEntry t i e)) r' q = walk (childOf tables) r' q :=
    fun r' q hr' hq => walk_setLeaf hpaths hsame.sameLevel hr hp hlen ht i e hr' hq
  refine ⟨?_, ?_, ?_⟩
  · intro r₁ r₂ p₁ p₂ k hr₁ hr₂ hp₁ hp₂ hw₁ hw₂
    rw [hwalk r₁ p₁ hr₁ hp₁] at hw₁
    rw [hwalk r₂ p₂ hr₂ hp₂] at hw₂
    exact hsame r₁ r₂ p₁ p₂ k hr₁ hr₂ hp₁ hp₂ hw₁ hw₂
  · rw [hwalk r p hr hp]
    exact ht
  · intro r' v hr' hv hne
    apply lookupAlong_congr
    intro q j t' hshort hw
    have hqv := lookup_path hshort
    apply PageTables.setEntry_ne
    intro hc
    obtain ⟨rfl, rfl⟩ := hc
    have hqp := hsame r' r q p t' hr' hr (hpaths.of_prefix hqv hv) hp hw ht
    -- The path has its full length, so the lookup is of the page itself.
    have heq : q ++ [j] = tablePath v ++ [ptIndex v] := by
      apply hshort.eq_of_length
      simp [hqp, hlen, tablePath]
    obtain ⟨hpath, hpt⟩ := List.append_inj' heq rfl
    exact hne ⟨hpath.symm.trans hqp, (List.singleton_inj.mp hpt).symm⟩

end leaf

end tree

/-! ## Finding the leaf table -/

section rule

variable {I : PageTables → PageSupply → Prop} {flags r virt : UInt64}
  (hskip : ∀ tables e pages, I tables (.error e :: pages) → I tables pages)
  (hlink : ∀ tables f pages p i t, I tables (.ok f :: pages) → p ++ [i] <+: tablePath virt →
    walk (childOf tables) r p = some t → tables t i &&& Pte.present = 0 →
    I (linkWith tables t i f flags) pages ∧ FrameOk f ∧
      walk (childOf (linkWith tables t i f flags)) r (p ++ [i]) = some f)
  (hflags : IsTableFlags flags)

include hskip hlink hflags

/-- One level: what linking keeps, `next_table` keeps. -/
theorem nextTable_rule {tables : PageTables} {pages : PageSupply} (h : I tables pages)
    {p : List (Fin 512)} {i : Fin 512} {t : UInt64} (hshort : p ++ [i] <+: tablePath virt)
    (ht : walk (childOf tables) r p = some t) :
    ∃ res tables' pages', nextTable tables pages t i true flags = (res, tables', pages') ∧
      I tables' pages' ∧
      ∀ k, res = .ok k → walk (childOf tables') r (p ++ [i]) = some k := by
  unfold nextTable
  dsimp only
  by_cases habsent : tables t i &&& Pte.present = 0
  · rw [if_pos habsent, if_neg (by decide)]
    cases pages with
    | nil => exact ⟨_, _, _, rfl, h, fun k hk => by cases hk⟩
    | cons answer pages =>
      cases answer with
      | error e => exact ⟨_, _, _, rfl, hskip tables e pages h, fun k hk => by cases hk⟩
      | ok f =>
        obtain ⟨hinv, hf, hw⟩ := hlink tables f pages p i t h hshort ht habsent
        refine ⟨_, _, _, rfl, hinv, ?_⟩
        intro k hk
        have hentry : entryTable (tableEntryWith f flags) = .ok k := hk
        rw [(entryTable_tableEntryWith hf hflags).2] at hentry
        obtain rfl := Except.ok.inj hentry
        exact hw
  · rw [if_neg habsent]
    refine ⟨_, _, _, rfl, h, ?_⟩
    intro k hk
    rw [walk_concat, ht]
    simp [childOf, habsent, hk, Except.toOption]

/-- What linking keeps, `leaf_table_for_root` keeps, and it ends at the leaf
    table. -/
theorem leafTableForRoot_rule {tables : PageTables} {pages : PageSupply} (h : I tables pages) :
    ∃ res tables' pages', leafTableForRoot tables pages r virt true flags = (res, tables', pages') ∧
      I tables' pages' ∧
      ∀ pt, res = .ok pt → walk (childOf tables') r (tablePath virt) = some pt := by
  unfold leafTableForRoot
  obtain ⟨res₄, tables₄, pages₄, hrun₄, hinv₄, hw₄⟩ :=
    nextTable_rule hskip hlink hflags h (p := []) (i := pml4Index virt)
      ⟨[pdptIndex virt, pdIndex virt], rfl⟩ rfl
  rw [hrun₄]
  cases res₄ with
  | error e => exact ⟨_, _, _, rfl, hinv₄, fun pt hpt => by cases hpt⟩
  | ok pdpt =>
    obtain ⟨res₃, tables₃, pages₃, hrun₃, hinv₃, hw₃⟩ :=
      nextTable_rule hskip hlink hflags hinv₄ (p := [pml4Index virt]) (i := pdptIndex virt)
        ⟨[pdIndex virt], rfl⟩ (hw₄ pdpt rfl)
    dsimp only
    rw [hrun₃]
    cases res₃ with
    | error e => exact ⟨_, _, _, rfl, hinv₃, fun pt hpt => by cases hpt⟩
    | ok pd =>
      obtain ⟨res₂, tables₂, pages₂, hrun₂, hinv₂, hw₂⟩ :=
        nextTable_rule hskip hlink hflags hinv₃ (p := [pml4Index virt, pdptIndex virt])
          (i := pdIndex virt) ⟨[], rfl⟩ (hw₃ pd rfl)
      dsimp only
      exact ⟨res₂, tables₂, pages₂, hrun₂, hinv₂, hw₂⟩

end rule

/-! ## One call -/

/-- The flags that `scdk_vmm_map_page_in_root` gives the tables it makes. -/
def tableFlagsOf (flags : UInt64) : UInt64 := if flags &&& vmmMapUser ≠ 0 then Pte.user else 0

theorem isTableFlags_of (flags : UInt64) : IsTableFlags (tableFlagsOf flags) := by
  unfold tableFlagsOf
  split
  · exact .inr rfl
  · exact .inl rfl

/-- The entry of a mapping is present. -/
theorem leafEntry_present (phys flags : UInt64) : leafEntry phys flags &&& Pte.present ≠ 0 := by
  have hone : ∀ c : UInt64, c &&& Pte.present = 1 → (phys &&& Pte.addr ||| c) &&& Pte.present ≠ 0 := by
    intro c hc
    rw [or_and_distrib, hc]
    intro h0
    exact absurd (UInt64.or_eq_zero_iff.mp h0).2 (by decide)
  unfold leafEntry
  dsimp only
  apply hone
  split
  · split
    · decide
    · decide
  · split
    · decide
    · decide

/-- What a call leaves of the lookups of all roots: those of the pages that do not
    have the indices of `virt`. -/
def OthersKept (roots : UInt64 → Prop) (paths : List (Fin 512) → Prop) (v v' : Vmm)
    (virt : UInt64) : Prop :=
  ∀ r' x, roots r' → paths (tablePath x) →
    ¬ (tablePath x = tablePath virt ∧ ptIndex x = ptIndex virt) →
    lookupEntry v'.tables r' x = lookupEntry v.tables r' x

/-- Tables that were linked to `tables₀`, with all lookups as they were, and what
    is left of the supply. -/
structure LookupsKept (tables₀ : PageTables) (roots : UInt64 → Prop)
    (paths : List (Fin 512) → Prop) (tables : PageTables) (pages : PageSupply) : Prop where
  same : SamePath (childOf tables) roots paths
  supply : SupplyFresh tables roots paths pages
  lookup : ∀ r x, roots r → paths (tablePath x) → lookupEntry tables r x = lookupEntry tables₀ r x

theorem LookupsKept.skip {tables₀ tables : PageTables} {roots : UInt64 → Prop}
    {paths : List (Fin 512) → Prop} {e : Err} {pages : PageSupply}
    (h : LookupsKept tables₀ roots paths tables (.error e :: pages)) :
    LookupsKept tables₀ roots paths tables pages :=
  ⟨h.same, h.supply.skip, h.lookup⟩

section calls

variable {v : Vmm} {roots : UInt64 → Prop} {paths : List (Fin 512) → Prop} {r virt : UInt64}
  (hpaths : TablePaths paths) (hr : roots r) (hvirt : paths (tablePath virt))

include hpaths hr hvirt

/-- Linking a page of the supply keeps the lookups. -/
theorem LookupsKept.link {tables₀ tables : PageTables} {f flags : UInt64} {pages : PageSupply}
    {p : List (Fin 512)} {i : Fin 512} {t : UInt64}
    (h : LookupsKept tables₀ roots paths tables (.ok f :: pages)) (hflags : IsTableFlags flags)
    (hshort : p ++ [i] <+: tablePath virt) (ht : walk (childOf tables) r p = some t)
    (habsent : tables t i &&& Pte.present = 0) :
    LookupsKept tables₀ roots paths (linkWith tables t i f flags) pages ∧ FrameOk f ∧
      walk (childOf (linkWith tables t i f flags)) r (p ++ [i]) = some f := by
  obtain ⟨hf, hnot, hrest⟩ := h.supply.head
  obtain ⟨hsame, hw, hfresh, hlookup⟩ := link_kept hpaths h.same hr (hpaths.of_prefix hshort hvirt)
    ht habsent hf hflags
  refine ⟨⟨hsame, ⟨hrest.nodup, ?_⟩, ?_⟩, hf.ok, hw⟩
  · intro f' hf'
    apply hfresh f' _ (hrest.fresh f' hf')
    intro heq
    exact hnot (heq ▸ hf')
  · intro r' x hr' hx
    rw [hlookup r' x hr' hx]
    exact h.lookup r' x hr' hx

/-- `scdk_vmm_map_page_in_root`: the page was not mapped and is now, or no lookup
    changes. -/
theorem vmmMapPageInRoot_tree (hsame : SamePath (childOf v.tables) roots paths) {pages : PageSupply}
    (phys flags : UInt64) (hfresh : SupplyFresh v.tables roots paths pages) :
    ∃ res v', vmmMapPageInRoot v pages r virt phys flags = (res, v') ∧
      v'.activeCr3Phys = v.activeCr3Phys ∧ v'.initialized = v.initialized ∧
      SamePath (childOf v'.tables) roots paths ∧ OthersKept roots paths v v' virt ∧
      ((∃ e, res = .error e) ∧ lookupEntry v'.tables r virt = lookupEntry v.tables r virt ∨
        res = .ok () ∧ lookupEntry v.tables r virt = .error .noent ∧
          lookupEntry v'.tables r virt = .ok (leafEntry phys flags)) := by
  have hnone : ∀ e, ∃ res v', ((.error e : Except Err Unit), v) = (res, v') ∧
      v'.activeCr3Phys = v.activeCr3Phys ∧ v'.initialized = v.initialized ∧
      SamePath (childOf v'.tables) roots paths ∧ OthersKept roots paths v v' virt ∧
      ((∃ e, res = .error e) ∧ lookupEntry v'.tables r virt = lookupEntry v.tables r virt ∨
        res = .ok () ∧ lookupEntry v.tables r virt = .error .noent ∧
          lookupEntry v'.tables r virt = .ok (leafEntry phys flags)) :=
    fun e => ⟨_, _, rfl, rfl, rfl, hsame, fun _ _ _ _ _ => rfl, .inl ⟨⟨e, rfl⟩, rfl⟩⟩
  unfold vmmMapPageInRoot
  split
  · exact hnone _
  split
  · exact hnone _
  split
  · exact hnone _
  -- The tables that are made change no lookup; the leaf changes the one of the page.
  have hstart : LookupsKept v.tables roots paths v.tables pages :=
    ⟨hsame, hfresh, fun _ _ _ _ => rfl⟩
  obtain ⟨res, tables, pages', hrun, ⟨hsame', _, hlookup⟩, hw⟩ :=
    leafTableForRoot_rule (fun _ _ _ h => h.skip)
      (fun _ _ _ _ _ _ h => h.link hpaths hr hvirt (isTableFlags_of flags)) (isTableFlags_of flags)
      hstart
  have hrun' : leafTableForRoot v.tables pages r virt true
      (if flags &&& vmmMapUser ≠ 0 then Pte.user else 0) = (res, tables, pages') := hrun
  dsimp only
  rw [hrun']
  cases res with
  | error e =>
    exact ⟨_, _, rfl, rfl, rfl, hsame', fun r' x hr' hx _ => hlookup r' x hr' hx,
      .inl ⟨⟨e, rfl⟩, hlookup r virt hr hvirt⟩⟩
  | ok pt =>
    have hpt := hw pt rfl
    dsimp only
    by_cases hbusy : tables pt (ptIndex virt) &&& Pte.present ≠ 0
    · rw [if_pos hbusy]
      exact ⟨_, _, rfl, rfl, rfl, hsame', fun r' x hr' hx _ => hlookup r' x hr' hx,
        .inl ⟨⟨_, rfl⟩, hlookup r virt hr hvirt⟩⟩
    · rw [if_neg hbusy]
      obtain ⟨hs, hself, hother⟩ := setLeaf_kept hpaths hsame' hr hvirt rfl hpt (ptIndex virt)
        (leafEntry phys flags)
      refine ⟨_, _, rfl, rfl, rfl, hs, ?_, .inr ⟨rfl, ?_, ?_⟩⟩
      · intro r' x hr' hx hne
        rw [← hlookup r' x hr' hx]
        exact hother r' x hr' hx hne
      · rw [← hlookup r virt hr hvirt]
        unfold lookupEntry
        rw [lookupAlong_of_walk hpt, if_pos (not_not.mp hbusy)]
      · unfold lookupEntry
        rw [lookupAlong_of_walk hself, PageTables.setEntry_self,
          if_neg (leafEntry_present phys flags)]

/-- `scdk_vmm_unmap_page_in_root`: the page was mapped and is not any more, or
    nothing changes. -/
theorem vmmUnmapPageInRoot_tree (hsame : SamePath (childOf v.tables) roots paths) :
    (∃ e, vmmUnmapPageInRoot v r virt = (.error e, v)) ∨
      ∃ v' e, vmmUnmapPageInRoot v r virt = (.ok (), v') ∧
        v'.activeCr3Phys = v.activeCr3Phys ∧ v'.initialized = v.initialized ∧
        SamePath (childOf v'.tables) roots paths ∧ OthersKept roots paths v v' virt ∧
        lookupEntry v.tables r virt = .ok e ∧ lookupEntry v'.tables r virt = .error .noent := by
  unfold vmmUnmapPageInRoot
  split
  · exact .inl ⟨_, rfl⟩
  split
  · exact .inl ⟨_, rfl⟩
  obtain ⟨res, hrun, hlookup, hw⟩ := leafTableForRoot_noCreate v.tables r virt
  rw [hrun]
  cases res with
  | error e => exact .inl ⟨e, rfl⟩
  | ok pt =>
    have hpt := hw pt rfl
    dsimp only at hlookup ⊢
    by_cases habsent : v.tables pt (ptIndex virt) &&& Pte.present = 0
    · rw [if_pos habsent]
      exact .inl ⟨_, rfl⟩
    · rw [if_neg habsent] at hlookup ⊢
      obtain ⟨hs, hself, hother⟩ := setLeaf_kept hpaths hsame hr hvirt rfl hpt (ptIndex virt) 0
      refine .inr ⟨_, _, rfl, rfl, rfl, hs, hother, hlookup, ?_⟩
      unfold lookupEntry
      rw [lookupAlong_of_walk hself, PageTables.setEntry_self]
      rfl

end calls

/-! ## Runs over several roots -/

/-- The page tables and the roots there are. -/
structure RootTables where
  vmm : Vmm
  roots : List UInt64

/-- A call to `vmm.c`, with what the page allocator answers during it. -/
inductive VmmCall where
  | createRoot (pages : PageSupply)
  | activateRoot (rootPhys : UInt64)
  | mapPage (pages : PageSupply) (rootPhys virt phys flags : UInt64)
  | unmapPage (rootPhys virt : UInt64)

/-- The root and the page that a call maps or unmaps. -/
def VmmCall.page : VmmCall → Option (UInt64 × UInt64)
  | .mapPage _ rootPhys virt _ _ => some (rootPhys, virt)
  | .unmapPage rootPhys virt => some (rootPhys, virt)
  | _ => none

def rootStep (w : RootTables) : VmmCall → Except Err Unit × RootTables
  | .createRoot pages =>
    match vmmCreateRoot w.vmm pages with
    | (.error e, vmm) => (.error e, { w with vmm })
    | (.ok rootPhys, vmm) => (.ok (), ⟨vmm, rootPhys :: w.roots⟩)
  | .activateRoot rootPhys =>
    let (r, vmm) := vmmActivateRoot w.vmm rootPhys
    (r, { w with vmm })
  | .mapPage pages rootPhys virt phys flags =>
    let (r, vmm) := vmmMapPageInRoot w.vmm pages rootPhys virt phys flags
    (r, { w with vmm })
  | .unmapPage rootPhys virt =>
    let (r, vmm) := vmmUnmapPageInRoot w.vmm rootPhys virt
    (r, { w with vmm })

/-- The runs start from the tables that the boot loader made, which are a tree. -/
def rootSystem : System RootTables VmmCall (Except Err Unit) where
  init := fun w => w.roots = [w.vmm.activeCr3Phys] ∧
    SamePath (childOf w.vmm.tables) (· ∈ w.roots) AllPaths
  step := rootStep

/-- The calls are made on the roots there are, and the page allocator hands out no
    page that is in use as a table. -/
def RootGuard (w : RootTables) : VmmCall → Prop
  | .createRoot pages => SupplyFresh w.vmm.tables (· ∈ w.roots) AllPaths pages
  | .activateRoot rootPhys => rootPhys ∈ w.roots
  | .mapPage pages rootPhys _ _ _ =>
    rootPhys ∈ w.roots ∧ SupplyFresh w.vmm.tables (· ∈ w.roots) AllPaths pages
  | .unmapPage rootPhys _ => rootPhys ∈ w.roots

/-- What holds in every run. -/
structure RootsOk (w : RootTables) : Prop where
  same : SamePath (childOf w.vmm.tables) (· ∈ w.roots) AllPaths
  active : w.vmm.activeCr3Phys ∈ w.roots

theorem allPaths_tablePath (virt : UInt64) : AllPaths (tablePath virt) := le_refl 3

section newRoot

variable {tables : PageTables} {roots : List UInt64} {boot f : UInt64} (hboot : boot ∈ roots)
  (hfresh : FreshPage tables (· ∈ roots) AllPaths f)

include hfresh in
/-- The roots there were see nothing of the new one. -/
theorem walk_newRoot_old {r : UInt64} (hr : r ∈ roots) {q : List (Fin 512)} (hq : AllPaths q) :
    walk (childOf (newRoot tables boot f)) r q = walk (childOf tables) r q := by
  refine walk_frame AllPaths tablePaths_all.closed ?_ hq
  intro q' j t' hq' hw
  apply childOf_congr
  apply newRoot_other
  intro heq
  exact hfresh.unreached r q' hr (tablePaths_all.closed q' j hq') (heq ▸ hw)

include hboot hfresh in
/-- The new root reaches itself and the kernel half of `boot`. -/
theorem walk_newRoot_self {q : List (Fin 512)} {k : UInt64} (hq : AllPaths q)
    (hw : walk (childOf (newRoot tables boot f)) f q = some k) :
    q = [] ∧ k = f ∨ q ≠ [] ∧ walk (childOf tables) boot q = some k := by
  cases q with
  | nil => exact .inl ⟨rfl, (Option.some.inj hw).symm⟩
  | cons i q =>
    right
    refine ⟨List.cons_ne_nil i q, ?_⟩
    have hold : walk (childOf (newRoot tables boot f)) boot (i :: q) =
        walk (childOf tables) boot (i :: q) := walk_newRoot_old hfresh hboot hq
    rw [← hold]
    by_cases hi : i.val < 256
    · simp [walk, childOf, newRoot_low hi] at hw
    · have hne : boot ≠ f := by
        intro heq
        exact hfresh.unreached boot [] hboot (Nat.zero_le _) (by rw [heq]; rfl)
      have hentry : newRoot tables boot f boot i = newRoot tables boot f f i := by
        rw [newRoot_other hne, newRoot_high (Nat.not_lt.mp hi)]
      have hchild : childOf (newRoot tables boot f) boot i =
          childOf (newRoot tables boot f) f i := by
        simp only [childOf, hentry]
      simp only [walk, hchild]
      exact hw

include hboot hfresh in
/-- What a root reaches is the new root itself, or was reached before. -/
theorem walk_newRoot_cases {r : UInt64} {q : List (Fin 512)} {k : UInt64} (hr : r ∈ f :: roots)
    (hq : AllPaths q) (hw : walk (childOf (newRoot tables boot f)) r q = some k) :
    q = [] ∧ k = f ∨ ∃ r' ∈ roots, walk (childOf tables) r' q = some k := by
  rcases List.mem_cons.mp hr with rfl | hr
  · rcases walk_newRoot_self hboot hfresh hq hw with h | ⟨_, h⟩
    · exact .inl h
    · exact .inr ⟨boot, hboot, h⟩
  · rw [walk_newRoot_old hfresh hr hq] at hw
    exact .inr ⟨r, hr, hw⟩

include hboot hfresh in
/-- A relation of paths that is reflexive at the root and holds of any two paths to
    one table still does so with the new root. -/
theorem paths_newRoot {R : List (Fin 512) → List (Fin 512) → Prop} (hnil : R [] [])
    (hold : ∀ r r' p p' k, r ∈ roots → r' ∈ roots → AllPaths p → AllPaths p' →
      walk (childOf tables) r p = some k → walk (childOf tables) r' p' = some k → R p p')
    {r r' : UInt64} {p p' : List (Fin 512)} {k : UInt64} (hr : r ∈ f :: roots)
    (hr' : r' ∈ f :: roots) (hp : AllPaths p) (hp' : AllPaths p')
    (hw : walk (childOf (newRoot tables boot f)) r p = some k)
    (hw' : walk (childOf (newRoot tables boot f)) r' p' = some k) : R p p' := by
  rcases walk_newRoot_cases hboot hfresh hr hp hw with ⟨rfl, hk⟩ | ⟨s, hs, hwas⟩
  · rcases walk_newRoot_cases hboot hfresh hr' hp' hw' with ⟨rfl, _⟩ | ⟨s', hs', hwas'⟩
    · exact hnil
    · exact absurd (hk ▸ hwas') (hfresh.unreached s' p' hs' hp')
  · rcases walk_newRoot_cases hboot hfresh hr' hp' hw' with ⟨_, hk⟩ | ⟨s', hs', hwas'⟩
    · exact absurd (hk ▸ hwas) (hfresh.unreached s p hs hp)
    · exact hold s s' p p' k hs hs' hp hp' hwas hwas'

include hboot hfresh in
theorem samePath_newRoot (hsame : SamePath (childOf tables) (· ∈ roots) AllPaths) :
    SamePath (childOf (newRoot tables boot f)) (· ∈ f :: roots) AllPaths := by
  intro r r' p p' k hr hr' hp hp' hw hw'
  exact paths_newRoot hboot hfresh rfl hsame hr hr' hp hp' hw hw'

end newRoot

/-- `scdk_vmm_create_root` -/
theorem vmmCreateRoot_tree {v : Vmm} {roots : List UInt64} (hboot : v.activeCr3Phys ∈ roots)
    {pages : PageSupply} (hfresh : SupplyFresh v.tables (· ∈ roots) AllPaths pages) :
    (∃ e, vmmCreateRoot v pages = (.error e, v)) ∨
      ∃ f, vmmCreateRoot v pages =
          (.ok f, { v with tables := newRoot v.tables v.activeCr3Phys f }) ∧
        FreshPage v.tables (· ∈ roots) AllPaths f ∧ f ∈ pages.filterMap Except.toOption := by
  unfold vmmCreateRoot
  split
  · exact .inl ⟨_, rfl⟩
  cases pages with
  | nil => exact .inl ⟨_, rfl⟩
  | cons answer pages =>
    cases answer with
    | error e => exact .inl ⟨_, rfl⟩
    | ok f =>
      have hf := hfresh.head.1
      have hne : v.activeCr3Phys ≠ f := by
        intro heq
        exact hf.unreached f [] (heq ▸ hboot) (Nat.zero_le _) rfl
      refine .inr ⟨f, ?_, hf, by simp [Except.toOption]⟩
      simp only [pageAlloc, newRoot, Function.update_of_ne hne, Function.update_idem]

theorem RootsOk.step {w : RootTables} (h : RootsOk w) {call : VmmCall} (hguard : RootGuard w call) :
    RootsOk (rootStep w call).2 := by
  cases call with
  | createRoot pages =>
    rcases vmmCreateRoot_tree h.active hguard with ⟨e, hrun⟩ | ⟨f, hrun, hf, _⟩
    · simp only [rootStep, hrun]
      exact h
    · simp only [rootStep, hrun]
      exact ⟨samePath_newRoot h.active hf h.same, List.mem_cons_of_mem _ h.active⟩
  | activateRoot rootPhys =>
    simp only [rootStep, vmmActivateRoot]
    cases validateRoot w.vmm rootPhys with
    | error e => exact h
    | ok _ => exact ⟨h.same, hguard⟩
  | mapPage pages rootPhys virt phys flags =>
    obtain ⟨res, v', hrun, hactive, _, hsame, _⟩ := vmmMapPageInRoot_tree tablePaths_all hguard.1
      (allPaths_tablePath virt) h.same phys flags hguard.2
    simp only [rootStep, hrun]
    exact ⟨hsame, hactive ▸ h.active⟩
  | unmapPage rootPhys virt =>
    rcases vmmUnmapPageInRoot_tree tablePaths_all hguard (allPaths_tablePath virt) h.same with
      ⟨e, hrun⟩ | ⟨v', e, hrun, hactive, _, hsame, _⟩
    · simp only [rootStep, hrun]
      exact h
    · simp only [rootStep, hrun]
      exact ⟨hsame, hactive ▸ h.active⟩

/-! ### The pages that a call affects -/

/-- Two addresses have the same four indices if they agree below bit 48. -/
theorem indices_eq_iff {v w : UInt64} :
    (tablePath v = tablePath w ∧ ptIndex v = ptIndex w) ↔
      v.toNat / 4096 % 2 ^ 36 = w.toNat / 4096 % 2 ^ 36 := by
  have hindex : ∀ s : UInt64, s.toNat < 64 →
      (tableIndex s v = tableIndex s w ↔
        v.toNat / 2 ^ s.toNat % 512 = w.toNat / 2 ^ s.toNat % 512) := by
    intro s hs
    rw [← Fin.val_inj, val_tableIndex _ _ hs, val_tableIndex _ _ hs]
  simp only [tablePath, pml4Index, pdptIndex, pdIndex, ptIndex, List.cons.injEq, and_true]
  rw [hindex 39 (by decide), hindex 30 (by decide), hindex 21 (by decide), hindex 12 (by decide)]
  change (v.toNat / 2 ^ 39 % 512 = w.toNat / 2 ^ 39 % 512 ∧
    v.toNat / 2 ^ 30 % 512 = w.toNat / 2 ^ 30 % 512 ∧
    v.toNat / 2 ^ 21 % 512 = w.toNat / 2 ^ 21 % 512) ∧
    v.toNat / 2 ^ 12 % 512 = w.toNat / 2 ^ 12 % 512 ↔ _
  omega

theorem validateVmmAddress_eq_ok {v : Vmm} {virt : UInt64} (h : validateVmmAddress v virt = .ok ()) :
    v.initialized = true ∧ virt.toNat % 4096 = 0 := by
  unfold validateVmmAddress at h
  split at h
  · cases h
  next hinit =>
  split at h
  · cases h
  next hok =>
  refine ⟨by simpa using hinit, (isPageAligned_iff virt).mp ?_⟩
  by_contra hno
  exact hok (.inl (by simpa using hno))

/-- The answer for a page that is not mapped differs from that for one that is. -/
theorem vmmVirtToPhysInRoot_ne {v v' : Vmm} {r x e : UInt64} (hinit : v'.initialized = v.initialized)
    (hroot : validateRoot v r = .ok ()) (hx : validateVmmAddress v x = .ok ())
    (habsent : lookupEntry v.tables r x = .error .noent)
    (hpresent : lookupEntry v'.tables r x = .ok e) :
    vmmVirtToPhysInRoot v r x ≠ vmmVirtToPhysInRoot v' r x := by
  have hpage : x &&& ~~~0xfff = x := by
    apply UInt64.toNat_inj.mp
    rw [toNat_pageOf]
    have := (validateVmmAddress_eq_ok hx).2
    omega
  have hroot' : validateRoot v' r = .ok () := by
    unfold validateRoot at hroot ⊢
    rw [hinit]
    exact hroot
  have hx' : validateVmmAddress v' x = .ok () := by
    unfold validateVmmAddress at hx ⊢
    rw [hinit]
    exact hx
  rw [vmmVirtToPhysInRoot_lookup, vmmVirtToPhysInRoot_lookup, hpage, hroot, hroot', hx, hx', habsent,
    hpresent]
  intro heq
  cases heq

theorem vmmMapPageInRoot_valid {v : Vmm} {pages : PageSupply} {r virt phys flags : UInt64}
    (h : (vmmMapPageInRoot v pages r virt phys flags).1 = .ok ()) :
    validateRoot v r = .ok () ∧ validateVmmAddress v virt = .ok () := by
  unfold vmmMapPageInRoot at h
  split at h
  · cases h
  next hroot =>
  split at h
  · cases h
  next hvirt => exact ⟨hroot, hvirt⟩

theorem vmmUnmapPageInRoot_valid {v : Vmm} {r virt : UInt64}
    (h : (vmmUnmapPageInRoot v r virt).1 = .ok ()) :
    validateRoot v r = .ok () ∧ validateVmmAddress v virt = .ok () := by
  unfold vmmUnmapPageInRoot at h
  split at h
  · cases h
  next hroot =>
  split at h
  · cases h
  next hvirt => exact ⟨hroot, hvirt⟩

/-- The page was mapped in one of the two states and not in the other. -/
def Toggled (v v' : Vmm) (r virt : UInt64) : Prop :=
  ∃ e, lookupEntry v.tables r virt = .error .noent ∧ lookupEntry v'.tables r virt = .ok e ∨
    lookupEntry v.tables r virt = .ok e ∧ lookupEntry v'.tables r virt = .error .noent

/-- What a successful map or unmap did to the lookups. -/
structure PageToggled (w w' : RootTables) (r virt : UInt64) : Prop where
  root : r ∈ w.roots
  validRoot : validateRoot w.vmm r = .ok ()
  validPage : validateVmmAddress w.vmm virt = .ok ()
  initialized : w'.vmm.initialized = w.vmm.initialized
  others : OthersKept (· ∈ w.roots) AllPaths w.vmm w'.vmm virt
  toggled : Toggled w.vmm w'.vmm r virt

theorem RootsOk.pageToggled {w : RootTables} (h : RootsOk w) {call : VmmCall}
    (hguard : RootGuard w call) {r virt : UInt64} (hpage : call.page = some (r, virt))
    (hok : (rootStep w call).1 = .ok ()) : PageToggled w (rootStep w call).2 r virt := by
  cases call with
  | createRoot pages => cases hpage
  | activateRoot rootPhys => cases hpage
  | mapPage pages rootPhys virt' phys flags =>
    obtain ⟨rfl, rfl⟩ := Prod.mk.inj (Option.some.inj hpage)
    obtain ⟨hroot, hvirt⟩ := vmmMapPageInRoot_valid hok
    obtain ⟨res, v', hmap, _, hinit, _, hothers, hres⟩ := vmmMapPageInRoot_tree tablePaths_all
      hguard.1 (allPaths_tablePath virt') h.same phys flags hguard.2
    simp only [rootStep, hmap] at hok ⊢
    rcases hres with ⟨⟨e, he⟩, _⟩ | ⟨_, hbefore, hafter⟩
    · rw [he] at hok
      cases hok
    · exact ⟨hguard.1, hroot, hvirt, hinit, hothers, _, .inl ⟨hbefore, hafter⟩⟩
  | unmapPage rootPhys virt' =>
    obtain ⟨rfl, rfl⟩ := Prod.mk.inj (Option.some.inj hpage)
    obtain ⟨hroot, hvirt⟩ := vmmUnmapPageInRoot_valid hok
    rcases vmmUnmapPageInRoot_tree tablePaths_all hguard (allPaths_tablePath virt') h.same with
      ⟨e, hunmap⟩ | ⟨v', e, hunmap, _, hinit, _, hothers, hbefore, hafter⟩
    · simp only [rootStep, hunmap] at hok
      cases hok
    · simp only [rootStep, hunmap]
      exact ⟨hguard, hroot, hvirt, hinit, hothers, e, .inr ⟨hbefore, hafter⟩⟩

/-- **The pages that a call affects.**  In every run, a successful map or unmap of
    one page leaves the answer for another one alone if and only if the two
    addresses differ below bit 48. -/
theorem map_affects_one_page {log : List (VmmCall × Except Err Unit)} {w : RootTables}
    (hrun : rootSystem.RunWhen RootGuard log w) {call : VmmCall} (hguard : RootGuard w call)
    {r virt : UInt64} (hpage : call.page = some (r, virt)) (hok : (rootStep w call).1 = .ok ())
    {x : UInt64} (hx : validateVmmAddress w.vmm x = .ok ()) :
    vmmVirtToPhysInRoot (rootStep w call).2.vmm r x = vmmVirtToPhysInRoot w.vmm r x ↔
      x.toNat % 2 ^ 48 ≠ virt.toNat % 2 ^ 48 := by
  have hinv : RootsOk w := by
    apply hrun.invariant (P := RootsOk)
    · intro w hinit
      exact ⟨hinit.2, by rw [hinit.1]; exact List.mem_singleton_self _⟩
    · exact fun w call h hg => h.step hg
  have hcall := hinv.pageToggled hguard hpage hok
  have hxpage := (validateVmmAddress_eq_ok hx).2
  have hvpage := (validateVmmAddress_eq_ok hcall.validPage).2
  constructor
  · intro hsame halias
    -- The two addresses have the same indices, so they are one page to the walk.
    obtain ⟨hpath, hpt⟩ : tablePath x = tablePath virt ∧ ptIndex x = ptIndex virt :=
      indices_eq_iff.mpr (by omega)
    have hentry : ∀ tables, lookupEntry tables r x = lookupEntry tables r virt := by
      intro tables
      unfold lookupEntry
      rw [hpath, hpt]
    obtain ⟨e, ⟨hbefore, hafter⟩ | ⟨hbefore, hafter⟩⟩ := hcall.toggled
    · rw [← hentry] at hbefore hafter
      exact vmmVirtToPhysInRoot_ne hcall.initialized hcall.validRoot hx hbefore hafter hsame.symm
    · rw [← hentry] at hbefore hafter
      have hroot : validateRoot (rootStep w call).2.vmm r = .ok () := by
        rw [← hcall.validRoot]
        unfold validateRoot
        rw [hcall.initialized]
      have hx' : validateVmmAddress (rootStep w call).2.vmm x = .ok () := by
        rw [← hx]
        unfold validateVmmAddress
        rw [hcall.initialized]
      exact vmmVirtToPhysInRoot_ne hcall.initialized.symm hroot hx' hafter hbefore hsame
  · intro hdiff
    apply vmmVirtToPhysInRoot_congr hcall.initialized
    apply hcall.others r x hcall.root (allPaths_tablePath x)
    intro hindices
    have := indices_eq_iff.mp hindices
    omega

/-! ### Two addresses of one page -/

/-- Empty tables below the root 0x1000. -/
def emptyTables : RootTables := ⟨⟨fun _ _ => 0, 0x1000, true⟩, [0x1000]⟩

theorem walk_emptyTables {r : UInt64} {p : List (Fin 512)} {k : UInt64}
    (h : walk (childOf emptyTables.vmm.tables) r p = some k) : p = [] ∧ k = r := by
  cases p with
  | nil => exact ⟨rfl, (Option.some.inj h).symm⟩
  | cons i p => simp [walk, childOf, emptyTables] at h

theorem emptyTables_init : rootSystem.init emptyTables := by
  refine ⟨rfl, ?_⟩
  intro r r' p p' k _ _ _ _ hw hw'
  rw [(walk_emptyTables hw).1, (walk_emptyTables hw').1]

/-- A mapping at the lowest address of the upper half. -/
def mapHigh : VmmCall :=
  .mapPage [.ok 0x2000, .ok 0x3000, .ok 0x4000] 0x1000 0xffff800000000000 0x9000 1

theorem mapHigh_guard : RootGuard emptyTables mapHigh := by
  refine ⟨List.mem_singleton_self _, by decide, ?_⟩
  intro f hf
  have hpage : f = 0x2000 ∨ f = 0x3000 ∨ f = 0x4000 := by
    simpa [Except.toOption, eq_comm] using hf
  refine ⟨?_, ?_⟩
  · rcases hpage with rfl | rfl | rfl <;> decide
  · intro r q hr _ hw
    obtain ⟨_, rfl⟩ := walk_emptyTables hw
    rw [List.mem_singleton.mp hr] at hpage
    exact absurd hpage (by decide)

/-- The page before that address is left alone. -/
theorem map_affects_one_page_first :
    vmmVirtToPhysInRoot (rootStep emptyTables mapHigh).2.vmm 0x1000 0x1000 =
        vmmVirtToPhysInRoot emptyTables.vmm 0x1000 0x1000 ↔
      (0x1000 : UInt64).toNat % 2 ^ 48 ≠ (0xffff800000000000 : UInt64).toNat % 2 ^ 48 :=
  map_affects_one_page (.init emptyTables_init) mapHigh_guard rfl (by decide +kernel)
    (by decide +kernel)

/-- `is_canonical` lets two addresses of one page through. -/
theorem map_affects_one_page_fails :
    ¬ ∀ (log : List (VmmCall × Except Err Unit)) (w : RootTables) (call : VmmCall)
        (r virt x : UInt64), rootSystem.RunWhen RootGuard log w → RootGuard w call →
      call.page = some (r, virt) → (rootStep w call).1 = .ok () →
      validateVmmAddress w.vmm x = .ok () → x ≠ virt →
      vmmVirtToPhysInRoot (rootStep w call).2.vmm r x = vmmVirtToPhysInRoot w.vmm r x := by
  intro hall
  have hsame := hall [] emptyTables mapHigh 0x1000 0xffff800000000000 0x0000800000000000
    (.init emptyTables_init) mapHigh_guard rfl (by decide +kernel) (by decide +kernel) (by decide)
  have hdiff : vmmVirtToPhysInRoot (rootStep emptyTables mapHigh).2.vmm 0x1000 0x0000800000000000 ≠
      vmmVirtToPhysInRoot emptyTables.vmm 0x1000 0x0000800000000000 := by
    decide +kernel
  exact hdiff hsame

end Scdk
