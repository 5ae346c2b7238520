import Scdk.Mm.UserSpace

/-! # The address space that is active

    Work on another address space leaves the tables of the active one as they are, and
    with them all that is known of it.

    * `ActiveKept`: no table that the active root reaches is written,
    * `ActiveKept.walk`, `ActiveKept.lookup`: its walks and lookups are as before,
    * `ActiveKept.samePath`, `ActiveKept.fresh`, `ActiveKept.supply`: so are its paths and
      the pages that it does not use. -/

namespace Scdk

open Radix

/-- `t` is a table of the address space with the root `r`. -/
def Reached (tables : PageTables) (r t : UInt64) : Prop :=
  ∃ p, AllPaths p ∧ walk (childOf tables) r p = some t

/-- The active address space, and everything in its tables, is as it was. -/
structure ActiveKept (v v' : Vmm) : Prop where
  initialized : v'.initialized = v.initialized
  active : v'.activeCr3Phys = v.activeCr3Phys
  tables : ∀ t, Reached v.tables v.activeCr3Phys t → v'.tables t = v.tables t

section kept

variable {v v' v'' : Vmm}

/-- The active root reaches the tables it reached. -/
theorem ActiveKept.walk (h : ActiveKept v v') {p : List (Fin 512)} (hp : AllPaths p) :
    walk (childOf v'.tables) v.activeCr3Phys p = walk (childOf v.tables) v.activeCr3Phys p := by
  refine walk_frame AllPaths tablePaths_all.closed ?_ hp
  intro q i t hq hw
  apply childOf_congr
  rw [h.tables t ⟨q, tablePaths_all.closed q i hq, hw⟩]

theorem ActiveKept.trans (h : ActiveKept v v') (h' : ActiveKept v' v'') : ActiveKept v v'' where
  initialized := h'.initialized.trans h.initialized
  active := h'.active.trans h.active
  tables := by
    intro t ht
    obtain ⟨p, hp, hw⟩ := ht
    -- The second step keeps what is reached after the first one, and that is the same.
    have hreached : Reached v'.tables v'.activeCr3Phys t := by
      refine ⟨p, hp, ?_⟩
      rw [h.active, h.walk hp, hw]
    rw [h'.tables t hreached, h.tables t ⟨p, hp, hw⟩]

instance : IsPreorder Vmm ActiveKept where
  refl := fun _ => ⟨rfl, rfl, fun _ _ => rfl⟩
  trans := fun _ _ _ => ActiveKept.trans

/-- It has the lookups it had. -/
theorem ActiveKept.lookup (h : ActiveKept v v') (x : UInt64) :
    lookupEntry v'.tables v.activeCr3Phys x = lookupEntry v.tables v.activeCr3Phys x := by
  apply lookupAlong_congr
  intro q j t hshort hw
  have hq : AllPaths q := by
    have hlen := hshort.length_le
    have hpath : (tablePath x).length = 3 := rfl
    simp only [List.length_append, List.length_singleton, hpath] at hlen
    unfold AllPaths
    omega
  rw [h.tables t ⟨q, hq, hw⟩]

theorem ActiveKept.samePath (h : ActiveKept v v')
    (hsame : SamePath (childOf v.tables) (· ∈ [v.activeCr3Phys]) AllPaths) :
    SamePath (childOf v'.tables) (· ∈ [v.activeCr3Phys]) AllPaths := by
  intro r r' p p' t hr hr' hp hp' hw hw'
  obtain rfl := List.mem_singleton.mp hr
  obtain rfl := List.mem_singleton.mp hr'
  rw [h.walk hp] at hw
  rw [h.walk hp'] at hw'
  exact hsame _ _ p p' t hr hr' hp hp' hw hw'

/-- A page that it did not use, it does not use. -/
theorem ActiveKept.fresh (h : ActiveKept v v') {f : UInt64}
    (hf : FreshPage v.tables (· ∈ [v.activeCr3Phys]) AllPaths f) :
    FreshPage v'.tables (· ∈ [v.activeCr3Phys]) AllPaths f := by
  refine ⟨hf.ok, ?_⟩
  intro r q hr hq hw
  obtain rfl := List.mem_singleton.mp hr
  rw [h.walk hq] at hw
  exact hf.unreached _ q hr hq hw

theorem ActiveKept.supply (h : ActiveKept v v') {pages : PageSupply}
    (hpages : SupplyFresh v.tables (· ∈ [v.activeCr3Phys]) AllPaths pages) :
    SupplyFresh v'.tables (· ∈ [v.activeCr3Phys]) AllPaths pages :=
  ⟨hpages.nodup, fun f hf => h.fresh (hpages.fresh f hf)⟩

end kept

/-! ## Fewer roots -/

section roots

variable {tables : PageTables} {roots roots' : UInt64 → Prop}

theorem FreshPage.of_roots {f : UInt64} (h : FreshPage tables roots AllPaths f)
    (hsub : ∀ r, roots' r → roots r) : FreshPage tables roots' AllPaths f :=
  ⟨h.ok, fun r q hr hq => h.unreached r q (hsub r hr) hq⟩

theorem SupplyFresh.of_roots {pages : PageSupply} (h : SupplyFresh tables roots AllPaths pages)
    (hsub : ∀ r, roots' r → roots r) : SupplyFresh tables roots' AllPaths pages :=
  ⟨h.nodup, fun f hf => (h.fresh f hf).of_roots hsub⟩

/-- A page that a root does not use is none of its tables. -/
theorem FreshPage.not_reached {f r : UInt64} (h : FreshPage tables roots AllPaths f) (hr : roots r) :
    ¬ Reached tables r f := by
  intro hreached
  obtain ⟨p, hp, hw⟩ := hreached
  exact h.unreached r p hr hp hw

end roots

end Scdk
