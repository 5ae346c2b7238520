import Scdk.Mm.Vmm

/-! # Page tables as disjoint trees

    The user half of every root is a tree of tables of its own; the kernel half
    is shared with the boot root (`TreesWf`).  So each entry of a user-half
    table is read by the walks of one page-sized range of one root only
    (`TreesWf.reads_unique`), and writing it changes no other lookup.

    * `lookupAlong`: the lookup of `vmm.c` along a list of indices,
    * `TreesWf.link`: hanging a fresh zeroed table into a tree changes no
      lookup at all, also when a later allocation of the same call fails,
    * `TreesWf.setLeaf`: writing a leaf entry changes the lookup of one page of
      one root. -/

namespace Scdk

open Radix

/-! ## Bits of an entry -/

/-- A physical address that an entry can hold. -/
def FrameOk (f : UInt64) : Prop := f.toNat % 4096 = 0 ∧ f.toNat < 2 ^ 52

instance (f : UInt64) : Decidable (FrameOk f) :=
  inferInstanceAs (Decidable (f.toNat % 4096 = 0 ∧ f.toNat < 2 ^ 52))

theorem toNat_and_addr (e : UInt64) :
    (e &&& Pte.addr).toNat = e.toNat / 4096 % 2 ^ 40 * 4096 := by
  have hlow : (e.toNat &&& 0x000ffffffffff000) % 2 ^ 12 = 0 := by
    rw [Nat.and_mod_two_pow]
    simp
  have hhigh : (e.toNat &&& 0x000ffffffffff000) / 2 ^ 12 = e.toNat / 2 ^ 12 % 2 ^ 40 := by
    rw [Nat.and_div_two_pow]
    exact Nat.and_two_pow_sub_one_eq_mod (e.toNat / 2 ^ 12) 40
  have hdef : (e &&& Pte.addr).toNat = e.toNat &&& 0x000ffffffffff000 := UInt64.toNat_and e _
  rw [hdef]
  omega

/-- Masks for the low 12 bits see the low 12 bits only. -/
theorem toNat_and_low (e m : UInt64) (hm : m.toNat < 4096) :
    (e &&& m).toNat = e.toNat % 4096 &&& m.toNat := by
  rw [UInt64.toNat_and]
  apply Nat.eq_of_testBit_eq
  intro i
  rw [Nat.testBit_and, Nat.testBit_and, show 4096 = 2 ^ 12 by rfl, Nat.testBit_mod_two_pow]
  by_cases hi : i < 12
  · simp [hi]
  · have hhigh : m.toNat.testBit i = false := by
      apply Nat.testBit_lt_two_pow
      calc m.toNat < 2 ^ 12 := hm
        _ ≤ 2 ^ i := Nat.pow_le_pow_right (by decide) (by omega)
    simp [hhigh]

theorem isPageAligned_iff (v : UInt64) : isPageAligned v = true ↔ v.toNat % 4096 = 0 := by
  have hmask : (v &&& 0xfff).toNat = v.toNat % 4096 := by
    rw [toNat_and_low v 0xfff (by decide)]
    show v.toNat % 4096 &&& (2 ^ 12 - 1) = _
    rw [Nat.and_two_pow_sub_one_eq_mod]
    omega
  unfold isPageAligned
  rw [decide_eq_true_eq, ← UInt64.toNat_inj, hmask]
  rfl

/-- Setting low bits in an aligned address adds them. -/
theorem toNat_or_low {f c : UInt64} (hf : f.toNat % 4096 = 0) (hc : c.toNat < 4096) :
    (f ||| c).toNat = f.toNat + c.toNat := by
  obtain ⟨k, hk⟩ : 4096 ∣ f.toNat := Nat.dvd_of_mod_eq_zero hf
  rw [UInt64.toNat_or, hk]
  exact (Nat.two_pow_add_eq_or_of_lt (i := 12) hc k).symm

theorem or_low_and_addr {f c : UInt64} (hf : FrameOk f) (hc : c.toNat < 4096) :
    (f ||| c) &&& Pte.addr = f := by
  have h1 := hf.1
  have h2 := hf.2
  apply UInt64.toNat_inj.mp
  rw [toNat_and_addr, toNat_or_low hf.1 hc]
  omega

theorem or_low_and_low {f c m : UInt64} (hf : f.toNat % 4096 = 0) (hc : c.toNat < 4096)
    (hm : m.toNat < 4096) : (f ||| c) &&& m = c &&& m := by
  apply UInt64.toNat_inj.mp
  rw [toNat_and_low _ _ hm, toNat_or_low hf hc, UInt64.toNat_and]
  congr 1
  omega

/-- The entry that `next_table` writes for a user mapping. -/
def tableEntry (f : UInt64) : UInt64 := f ||| Pte.present ||| Pte.writable ||| Pte.user

theorem tableEntry_eq (f : UInt64) : tableEntry f = f ||| 7 := by
  unfold tableEntry
  rw [UInt64.or_assoc, UInt64.or_assoc]
  rfl

theorem tableEntry_and_low {f m : UInt64} (hf : FrameOk f) (hm : m.toNat < 4096) :
    tableEntry f &&& m = 7 &&& m := by
  rw [tableEntry_eq]
  exact or_low_and_low hf.1 (by decide) hm

theorem tableEntry_and_addr {f : UInt64} (hf : FrameOk f) : tableEntry f &&& Pte.addr = f := by
  rw [tableEntry_eq]
  exact or_low_and_addr hf (by decide)

theorem and_vmmMapWrite_cases (flags : UInt64) :
    flags &&& vmmMapWrite = 0 ∨ flags &&& vmmMapWrite = 1 := by
  have h : (flags &&& vmmMapWrite).toNat = flags.toNat % 2 := by
    rw [UInt64.toNat_and]
    exact Nat.and_one_is_mod _
  rcases Nat.mod_two_eq_zero_or_one flags.toNat with h0 | h1
  · exact .inl (UInt64.toNat_inj.mp (h.trans h0))
  · exact .inr (UInt64.toNat_inj.mp (h.trans h1))

theorem or_and_distrib (a b m : UInt64) : (a ||| b) &&& m = a &&& m ||| b &&& m := by
  apply UInt64.toNat_inj.mp
  simp only [UInt64.toNat_and, UInt64.toNat_or]
  exact Nat.and_or_distrib_right ..

theorem user_flag_set (flags : UInt64) : (flags ||| vmmMapUser) &&& vmmMapUser ≠ 0 := by
  rw [or_and_distrib]
  intro h0
  have huser := (UInt64.or_eq_zero_iff.mp h0).2
  exact absurd huser (by decide)

/-- The entry for a mapping with the flags `flags ||| vmmMapUser`. -/
theorem leafEntry_user {paddr : UInt64} (hp : FrameOk paddr) (flags : UInt64) :
    leafEntry paddr (flags ||| vmmMapUser) =
      paddr ||| if flags &&& vmmMapWrite ≠ 0 then 7 else 5 := by
  have hwrite : (flags ||| vmmMapUser) &&& vmmMapWrite = flags &&& vmmMapWrite := by
    rw [or_and_distrib, show vmmMapUser &&& vmmMapWrite = 0 by decide, UInt64.or_zero]
  have haddr : paddr &&& Pte.addr = paddr := by
    simpa using or_low_and_addr hp (c := 0) (by decide)
  simp only [leafEntry, hwrite, haddr, if_pos (user_flag_set flags)]
  split
  · rfl
  · rfl

/-- What the entry of a user mapping says. -/
theorem leafEntry_bits {paddr : UInt64} (hp : FrameOk paddr) (flags : UInt64) :
    leafEntry paddr (flags ||| vmmMapUser) &&& Pte.addr = paddr ∧
      leafEntry paddr (flags ||| vmmMapUser) &&& Pte.present ≠ 0 ∧
      entryFlags (leafEntry paddr (flags ||| vmmMapUser)) = vmmMapUser ||| flags &&& vmmMapWrite ∧
      (leafEntry paddr (flags ||| vmmMapUser) &&& Pte.user ≠ 0) ∧
      (leafEntry paddr (flags ||| vmmMapUser) &&& Pte.writable ≠ 0 ↔ flags &&& vmmMapWrite ≠ 0) := by
  have hlow : ∀ c m : UInt64, c.toNat < 4096 → m.toNat < 4096 → (paddr ||| c) &&& m = c &&& m :=
    fun c m hc hm => or_low_and_low hp.1 hc hm
  rw [leafEntry_user hp]
  unfold entryFlags
  rcases and_vmmMapWrite_cases flags with h0 | h1
  · simp only [h0, ne_eq, not_true_eq_false, if_false]
    refine ⟨or_low_and_addr hp (by decide), ?_⟩
    rw [hlow 5 Pte.present (by decide) (by decide), hlow 5 Pte.writable (by decide) (by decide),
      hlow 5 Pte.user (by decide) (by decide)]
    decide
  · simp only [h1, if_pos (show (1 : UInt64) ≠ 0 by decide)]
    refine ⟨or_low_and_addr hp (by decide), ?_⟩
    rw [hlow 7 Pte.present (by decide) (by decide), hlow 7 Pte.writable (by decide) (by decide),
      hlow 7 Pte.user (by decide) (by decide)]
    decide

/-! ## Indices -/

theorem val_tableIndex (s v : UInt64) (hs : s.toNat < 64) :
    (tableIndex s v).val = v.toNat / 2 ^ s.toNat % 512 := by
  have h : ((v >>> s) &&& 0x1ff).toNat = v.toNat / 2 ^ s.toNat % 512 := by
    rw [UInt64.toNat_and, UInt64.toNat_shiftRight, Nat.mod_eq_of_lt hs, Nat.shiftRight_eq_div_pow]
    exact Nat.and_two_pow_sub_one_eq_mod _ 9
  show ((v >>> s) &&& 0x1ff).toNat % 512 = _
  rw [h, Nat.mod_mod]

/-- The indices of the three upper levels. -/
def tablePath (virt : UInt64) : List (Fin 512) := [pml4Index virt, pdptIndex virt, pdIndex virt]

/-- A lookup reads its entries in tables that are reached by at most three indices. -/
theorem length_of_tablePath {virt : UInt64} {q : List (Fin 512)} {leaf j : Fin 512}
    (h : q ++ [j] <+: tablePath virt ++ [leaf]) : q.length ≤ 3 := by
  have hle := h.length_le
  simp only [List.length_append, tablePath, List.length_cons, List.length_nil] at hle
  omega

/-- Below `2 ^ 47` the four indices determine the page. -/
theorem page_eq_of_indices {v w : UInt64} (hv : v.toNat < 2 ^ 47) (hw : w.toNat < 2 ^ 47)
    (hpath : tablePath v = tablePath w) (hpt : ptIndex v = ptIndex w) :
    v.toNat / 4096 = w.toNat / 4096 := by
  simp only [tablePath, List.cons.injEq, and_true] at hpath
  have h4 := congrArg Fin.val hpath.1
  have h3 := congrArg Fin.val hpath.2.1
  have h2 := congrArg Fin.val hpath.2.2
  have h1 := congrArg Fin.val hpt
  simp only [pml4Index, pdptIndex, pdIndex, ptIndex] at h4 h3 h2 h1
  rw [val_tableIndex _ _ (by decide), val_tableIndex _ _ (by decide)] at h4 h3 h2 h1
  change v.toNat / 2 ^ 39 % 512 = w.toNat / 2 ^ 39 % 512 at h4
  change v.toNat / 2 ^ 30 % 512 = w.toNat / 2 ^ 30 % 512 at h3
  change v.toNat / 2 ^ 21 % 512 = w.toNat / 2 ^ 21 % 512 at h2
  change v.toNat / 2 ^ 12 % 512 = w.toNat / 2 ^ 12 % 512 at h1
  omega

/-- Two addresses of one page have the same indices. -/
theorem indices_eq_of_page {v w : UInt64} (h : v.toNat / 4096 = w.toNat / 4096) :
    tablePath v = tablePath w ∧ ptIndex v = ptIndex w := by
  have hindex : ∀ s : UInt64, 12 ≤ s.toNat → s.toNat < 64 → tableIndex s v = tableIndex s w := by
    intro s hlo hhi
    apply Fin.ext
    rw [val_tableIndex _ _ hhi, val_tableIndex _ _ hhi]
    obtain ⟨k, hk⟩ := Nat.exists_eq_add_of_le hlo
    rw [hk, Nat.pow_add, ← Nat.div_div_eq_div_mul, ← Nat.div_div_eq_div_mul]
    congr 2
  refine ⟨?_, hindex 12 (by decide) (by decide)⟩
  simp only [tablePath, pml4Index, pdptIndex, pdIndex]
  rw [hindex 39 (by decide) (by decide), hindex 30 (by decide) (by decide),
    hindex 21 (by decide) (by decide)]

theorem pml4Index_lt {v : UInt64} (hv : v.toNat < 2 ^ 47) : (pml4Index v).val < 256 := by
  rw [pml4Index, val_tableIndex _ _ (by decide)]
  change v.toNat / 2 ^ 39 % 512 < 256
  omega

/-! ## Lookups -/

/-- The table that an entry links to, as `next_table` sees it. -/
def childOf (tables : PageTables) (table : UInt64) (index : Fin 512) : Option UInt64 :=
  if tables table index &&& Pte.present = 0 then none
  else (entryTable (tables table index)).toOption

/-- The lookup of the last entry along a list of indices. -/
def lookupAlong (tables : PageTables) (table : UInt64) (leaf : Fin 512) :
    List (Fin 512) → Except Err UInt64
  | [] =>
    if tables table leaf &&& Pte.present = 0 then .error .noent else .ok (tables table leaf)
  | i :: is =>
    if tables table i &&& Pte.present = 0 then .error .noent
    else
      match entryTable (tables table i) with
      | .error e => .error e
      | .ok next => lookupAlong tables next leaf is

/-- The leaf entry of an address. -/
def lookupEntry (tables : PageTables) (rootPhys virt : UInt64) : Except Err UInt64 :=
  lookupAlong tables rootPhys (ptIndex virt) (tablePath virt)

/-- Without `create`, `leaf_table_for_root` writes nothing, and it finds the
    table that the lookup reads. -/
theorem leafTableForRoot_noCreate (tables : PageTables) (rootPhys virt : UInt64) :
    ∃ r, leafTableForRoot tables [] rootPhys virt false 0 = (r, tables, []) ∧
      (lookupEntry tables rootPhys virt =
        match r with
        | .error e => .error e
        | .ok pt => if tables pt (ptIndex virt) &&& Pte.present = 0 then .error .noent
          else .ok (tables pt (ptIndex virt))) ∧
      ∀ pt, r = .ok pt → walk (childOf tables) rootPhys (tablePath virt) = some pt := by
  have hnext : ∀ t i, nextTable tables [] t i false 0 =
      (if tables t i &&& Pte.present = 0 then .error .noent else entryTable (tables t i), tables, []) := by
    intro t i
    unfold nextTable
    dsimp only
    split
    · rw [if_pos rfl]
    · rfl
  have hchild : ∀ t i k, ¬ tables t i &&& Pte.present = 0 → entryTable (tables t i) = .ok k →
      childOf tables t i = some k := by
    intro t i k hpresent hentry
    simp [childOf, hpresent, hentry, Except.toOption]
  unfold leafTableForRoot lookupEntry tablePath
  simp only [hnext, lookupAlong]
  -- The three levels in turn: absent, no table, or the next table.
  by_cases h4 : tables rootPhys (pml4Index virt) &&& Pte.present = 0
  · simp only [h4, if_true]
    exact ⟨.error .noent, rfl, rfl, fun pt hpt => by cases hpt⟩
  simp only [h4, if_false]
  cases he4 : entryTable (tables rootPhys (pml4Index virt)) with
  | error e => exact ⟨.error e, rfl, rfl, fun pt hpt => by cases hpt⟩
  | ok pdpt =>
    by_cases h3 : tables pdpt (pdptIndex virt) &&& Pte.present = 0
    · simp only [hnext, h3, if_true]
      exact ⟨.error .noent, rfl, rfl, fun pt hpt => by cases hpt⟩
    simp only [hnext, h3, if_false]
    cases he3 : entryTable (tables pdpt (pdptIndex virt)) with
    | error e => exact ⟨.error e, rfl, rfl, fun pt hpt => by cases hpt⟩
    | ok pd =>
      by_cases h2 : tables pd (pdIndex virt) &&& Pte.present = 0
      · simp only [hnext, h2, if_true]
        exact ⟨.error .noent, rfl, rfl, fun pt hpt => by cases hpt⟩
      simp only [hnext, h2, if_false]
      cases he2 : entryTable (tables pd (pdIndex virt)) with
      | error e => exact ⟨.error e, rfl, rfl, fun pt hpt => by cases hpt⟩
      | ok pt =>
        refine ⟨.ok pt, rfl, rfl, fun pt' hpt' => ?_⟩
        obtain rfl := Except.ok.inj hpt'
        simp [walk, hchild _ _ _ h4 he4, hchild _ _ _ h3 he3, hchild _ _ _ h2 he2]

/-- A lookup depends on the entries it reads only. -/
theorem lookupAlong_congr {tables tables' : PageTables} {table : UInt64} {leaf : Fin 512}
    {is : List (Fin 512)}
    (h : ∀ q j t, q ++ [j] <+: is ++ [leaf] → walk (childOf tables) table q = some t →
      tables' t j = tables t j) :
    lookupAlong tables' table leaf is = lookupAlong tables table leaf is := by
  -- Both lookups read the same entry in each table on the way.
  induction is generalizing table with
  | nil =>
    have hread : tables' table leaf = tables table leaf :=
      h [] leaf table (List.prefix_refl _) rfl
    simp only [lookupAlong, hread]
  | cons i is ih =>
    have hread : tables' table i = tables table i := by
      apply h [] i table _ rfl
      simp
    simp only [lookupAlong, hread]
    by_cases hpresent : tables table i &&& Pte.present = 0
    · rw [if_pos hpresent, if_pos hpresent]
    rw [if_neg hpresent, if_neg hpresent]
    cases hentry : entryTable (tables table i) with
    | error e => rfl
    | ok next =>
      apply ih
      intro q j t hshort hwalk
      apply h (i :: q) j t
      · simpa using hshort
      · have hchild : childOf tables table i = some next := by
          simp [childOf, hpresent, hentry, Except.toOption]
        simp only [walk, hchild, Option.bind_some]
        exact hwalk

/-- A lookup ends where an entry is not present. -/
theorem lookupAlong_absent {tables : PageTables} {table t : UInt64} {leaf i : Fin 512}
    {p rest : List (Fin 512)} (hwalk : walk (childOf tables) table p = some t)
    (habsent : tables t i &&& Pte.present = 0) :
    lookupAlong tables table leaf (p ++ i :: rest) = .error .noent := by
  -- By induction on the path down to the absent entry.
  induction p generalizing table with
  | nil =>
    obtain rfl := Option.some.inj hwalk
    show (if tables table i &&& Pte.present = 0 then _ else _) = _
    rw [if_pos habsent]
  | cons j p ih =>
    simp only [walk] at hwalk
    simp only [List.cons_append, lookupAlong]
    split
    · rfl
    · next hpresent =>
      cases hentry : entryTable (tables table j) with
      | error e => simp [childOf, hpresent, hentry, Except.toOption] at hwalk
      | ok next =>
        simp only [childOf, hpresent, hentry, Except.toOption, if_false, Option.bind_some] at hwalk
        exact ih hwalk

/-- A lookup whose walk succeeds reads the table at its end. -/
theorem lookupAlong_of_walk {tables : PageTables} {table t : UInt64} {leaf : Fin 512}
    {p : List (Fin 512)} (hwalk : walk (childOf tables) table p = some t) :
    lookupAlong tables table leaf p =
      if tables t leaf &&& Pte.present = 0 then .error .noent else .ok (tables t leaf) := by
  induction p generalizing table with
  | nil =>
    obtain rfl := Option.some.inj hwalk
    rfl
  | cons j p ih =>
    simp only [walk] at hwalk
    simp only [lookupAlong]
    split
    · next habsent => simp [childOf, habsent] at hwalk
    · next hpresent =>
      cases hentry : entryTable (tables table j) with
      | error e => simp [childOf, hpresent, hentry, Except.toOption] at hwalk
      | ok next =>
        simp only [childOf, hpresent, hentry, Except.toOption, if_false, Option.bind_some] at hwalk
        exact ih hwalk

/-! ## Disjoint trees -/

/-- A list of indices that starts in the lower half of the top table. -/
def UserHead (p : List (Fin 512)) : Prop := ∀ i ∈ p.head?, i.val < 256

/-- A list of indices that leads from a root to a user-half table. -/
def UserPath (p : List (Fin 512)) : Prop := p.length ≤ 3 ∧ UserHead p

theorem UserHead.of_concat {p : List (Fin 512)} {i : Fin 512} (h : UserHead (p ++ [i])) :
    UserHead p := by
  cases p with
  | nil => intro j hj; cases hj
  | cons k p => exact h

theorem userPath_closed (p : List (Fin 512)) (i : Fin 512) (h : UserPath (p ++ [i])) :
    UserPath p := by
  have hlen := h.1
  rw [List.length_append, List.length_singleton] at hlen
  exact ⟨by omega, h.2.of_concat⟩

/-- Up to three indices that start in the user half. -/
theorem userPath_cons {i : Fin 512} (hi : i.val < 256) {is : List (Fin 512)} (his : is.length ≤ 2) :
    UserPath (i :: is) := by
  refine ⟨by rw [List.length_cons]; omega, ?_⟩
  intro j hj
  rw [List.head?_cons, Option.mem_some_iff] at hj
  rw [← hj]
  exact hi

theorem userPath_nil : UserPath [] := ⟨Nat.zero_le _, fun _ hj => by cases hj⟩

/-- The roots have user halves of their own and the kernel half of `boot`. -/
structure TreesWf (tables : PageTables) (roots : UInt64 → Prop) (boot : UInt64) : Prop where
  apart : Apart (childOf tables) roots UserPath
  kernel : ∀ r, roots r → ∀ i : Fin 512, 256 ≤ i.val → tables r i = tables boot i
  shared : ∀ r p q f, roots r → UserPath p → q.length ≤ 3 → walk (childOf tables) r p = some f →
    walk (childOf tables) boot q ≠ some f
  entry : ∀ r p t i, roots r → UserPath (p ++ [i]) → walk (childOf tables) r p = some t →
    tables t i &&& Pte.present = 0 ∨ ∃ f, FrameOk f ∧ tables t i = tableEntry f

section trees

variable {tables : PageTables} {roots : UInt64 → Prop} {boot r t : UInt64} {p : List (Fin 512)}
  {i : Fin 512}

/-- **Separation.**  An entry of a user-half table is read by the walks along
    one path from one root only. -/
theorem TreesWf.reads_unique (h : TreesWf tables roots boot) (hr : roots r) (hp : UserPath p)
    (hi : UserHead (p ++ [i])) (ht : walk (childOf tables) r p = some t) {r' : UInt64}
    {q : List (Fin 512)} (hr' : roots r' ∨ r' = boot) (hq : q.length ≤ 3)
    (hw : walk (childOf tables) r' q = some t) : r' = r ∧ q = p := by
  rcases hr' with hr' | rfl
  · by_cases huser : UserHead (q ++ [i])
    · exact h.apart r' r q p t hr' hr ⟨hq, huser.of_concat⟩ hp hw ht
    · cases q with
      | nil =>
        -- The entry is one of a root, so it is in the half the path is in.
        obtain rfl := Option.some.inj hw
        obtain ⟨_, rfl⟩ := h.apart r' r [] p r' hr' hr userPath_nil hp rfl ht
        exact absurd hi huser
      | cons k q =>
        have hk : 256 ≤ k.val := by
          by_contra hlt
          apply huser
          intro j hj
          rw [List.cons_append, List.head?_cons, Option.mem_some_iff] at hj
          rw [← hj]
          omega
        have hboot : walk (childOf tables) boot (k :: q) = some t := by
          have hchild : childOf tables boot k = childOf tables r' k := by
            simp only [childOf, h.kernel r' hr' k hk]
          simp only [walk, hchild]
          exact hw
        exact absurd hboot (h.shared r p (k :: q) t hr hp hq ht)
  · exact absurd hw (h.shared r p q t hr hp hq ht)

/-! ### Writing a leaf entry -/

theorem PageTables.setEntry_self (tables : PageTables) (t : UInt64) (i : Fin 512) (e : UInt64) :
    tables.setEntry t i e t i = e := by
  simp [PageTables.setEntry]

theorem PageTables.setEntry_ne {tables : PageTables} {t : UInt64} {i : Fin 512} {e t' : UInt64}
    {j : Fin 512} (hne : ¬ (t' = t ∧ j = i)) : tables.setEntry t i e t' j = tables t' j := by
  unfold PageTables.setEntry
  by_cases ht : t' = t
  · subst ht
    have hj : j ≠ i := fun hj => hne ⟨rfl, hj⟩
    simp [hj]
  · simp [ht]

theorem childOf_congr {tables tables' : PageTables} {t : UInt64} {j : Fin 512}
    (h : tables' t j = tables t j) : childOf tables' t j = childOf tables t j := by
  simp only [childOf, h]

/-- No walk that leads to a table reads a leaf entry. -/
theorem TreesWf.walk_setLeaf (h : TreesWf tables roots boot) (hr : roots r) (hp : UserPath p)
    (hlen : p.length = 3) (ht : walk (childOf tables) r p = some t) (e : UInt64) {r' : UInt64}
    {q : List (Fin 512)} (hr' : roots r' ∨ r' = boot) (hq : q.length ≤ 3) :
    walk (childOf (tables.setEntry t i e)) r' q = walk (childOf tables) r' q := by
  refine walk_frame (fun q => q.length ≤ 3) (fun q j hq => ?_) ?_ hq
  · rw [List.length_append] at hq
    omega
  · intro q' j t' hq' hw
    rw [List.length_append, List.length_singleton] at hq'
    apply childOf_congr
    apply PageTables.setEntry_ne
    rintro ⟨rfl, rfl⟩
    have hi : UserHead (p ++ [j]) := by
      cases p with
      | nil => cases hlen
      | cons k p => exact hp.2
    obtain ⟨_, rfl⟩ := h.reads_unique hr hp hi ht hr' (by omega) hw
    omega

/-- Writing a leaf entry keeps the trees, and changes the lookup of one page of
    one root only. -/
theorem TreesWf.setLeaf (h : TreesWf tables roots boot) (hr : roots r) (hp : UserPath p)
    (hlen : p.length = 3) (ht : walk (childOf tables) r p = some t) (i : Fin 512) (e : UInt64) :
    TreesWf (tables.setEntry t i e) roots boot ∧
      ∀ r' v, roots r' ∨ r' = boot → ¬ (r' = r ∧ tablePath v = p ∧ ptIndex v = i) →
        lookupEntry (tables.setEntry t i e) r' v = lookupEntry tables r' v := by
  have hwalk : ∀ r' q, roots r' ∨ r' = boot → q.length ≤ 3 →
      walk (childOf (tables.setEntry t i e)) r' q = walk (childOf tables) r' q :=
    fun r' q hr' hq => h.walk_setLeaf hr hp hlen ht e hr' hq
  have hi : UserHead (p ++ [i]) := by
    cases p with
    | nil => cases hlen
    | cons k p => exact hp.2
  -- Whoever reads the entry written comes along `p` from `r`.
  have hread : ∀ r' q j t', roots r' ∨ r' = boot → q.length ≤ 3 →
      walk (childOf tables) r' q = some t' → ¬ (r' = r ∧ q = p ∧ j = i) →
      tables.setEntry t i e t' j = tables t' j := by
    intro r' q j t' hr' hq hw hne
    apply PageTables.setEntry_ne
    rintro ⟨rfl, rfl⟩
    obtain ⟨rfl, rfl⟩ := h.reads_unique hr hp hi ht hr' hq hw
    exact hne ⟨rfl, rfl, rfl⟩
  refine ⟨⟨?_, ?_, ?_, ?_⟩, ?_⟩
  · intro r₁ r₂ p₁ p₂ k hr₁ hr₂ hp₁ hp₂ hw₁ hw₂
    rw [hwalk r₁ p₁ (.inl hr₁) hp₁.1] at hw₁
    rw [hwalk r₂ p₂ (.inl hr₂) hp₂.1] at hw₂
    exact h.apart r₁ r₂ p₁ p₂ k hr₁ hr₂ hp₁ hp₂ hw₁ hw₂
  · intro r' hr' j hj
    have hnil : ¬ (([] : List (Fin 512)) = p) := by
      rintro rfl
      cases hlen
    rw [hread r' [] j r' (.inl hr') (Nat.zero_le _) rfl (fun hc => hnil hc.2.1),
      hread boot [] j boot (.inr rfl) (Nat.zero_le _) rfl (fun hc => hnil hc.2.1)]
    exact h.kernel r' hr' j hj
  · intro r' p' q f hr' hp' hq hw
    rw [hwalk r' p' (.inl hr') hp'.1] at hw
    rw [hwalk boot q (.inr rfl) hq]
    exact h.shared r' p' q f hr' hp' hq hw
  · intro r' p' t' j hr' hp' hw
    have hp'' := userPath_closed p' j hp'
    have hlen' := hp'.1
    rw [List.length_append, List.length_singleton] at hlen'
    rw [hwalk r' p' (.inl hr') hp''.1] at hw
    rw [hread r' p' j t' (.inl hr') hp''.1 hw (fun hc => by rw [hc.2.1] at hlen'; omega)]
    exact h.entry r' p' t' j hr' hp' hw
  · intro r' v hr' hne
    apply lookupAlong_congr
    intro q j t' hshort hw
    have hlen' := length_of_tablePath hshort
    apply hread r' q j t' hr' hlen' hw
    rintro ⟨rfl, rfl, rfl⟩
    -- The path has its full length, so the lookup is of the page itself.
    have heq : q ++ [j] = tablePath v ++ [ptIndex v] := by
      apply hshort.eq_of_length
      simp [hlen, tablePath]
    obtain ⟨hpath, hpt⟩ := List.append_inj' heq rfl
    exact hne ⟨rfl, hpath.symm, (List.singleton_inj.mp hpt).symm⟩

/-! ### Linking a table -/

/-- `f` can be used as a page table: no root reaches it. -/
structure FreshTable (tables : PageTables) (roots : UInt64 → Prop) (boot f : UInt64) : Prop where
  ok : FrameOk f
  unreached : ∀ r q, roots r ∨ r = boot → q.length ≤ 3 → walk (childOf tables) r q ≠ some f

/-- The tables after the zeroed page `f` was linked at index `i` of `t`. -/
def linkTable (tables : PageTables) (t : UInt64) (i : Fin 512) (f : UInt64) : PageTables :=
  PageTables.setEntry (Function.update tables f fun _ => 0) t i (tableEntry f)

theorem entryTable_tableEntry {f : UInt64} (hf : FrameOk f) :
    tableEntry f &&& Pte.present ≠ 0 ∧ entryTable (tableEntry f) = .ok f := by
  have hp := tableEntry_and_low hf (show Pte.present.toNat < 4096 by decide)
  have hh := tableEntry_and_low hf (show Pte.huge.toNat < 4096 by decide)
  refine ⟨?_, ?_⟩
  · rw [hp]
    decide
  · unfold entryTable
    rw [hh, tableEntry_and_addr hf]
    rfl

section link

variable {f : UInt64}

theorem linkTable_link : linkTable tables t i f t i = tableEntry f :=
  PageTables.setEntry_self _ _ _ _

theorem linkTable_fresh (hft : f ≠ t) (j : Fin 512) : linkTable tables t i f f j = 0 := by
  unfold linkTable
  rw [PageTables.setEntry_ne (fun hc => hft hc.1), Function.update_self]

theorem linkTable_other {t' : UInt64} {j : Fin 512} (hf : t' ≠ f) (hne : ¬ (t' = t ∧ j = i)) :
    linkTable tables t i f t' j = tables t' j := by
  unfold linkTable
  rw [PageTables.setEntry_ne hne, Function.update_of_ne hf]

theorem FreshTable.linked (hfresh : FreshTable tables roots boot f) (hft : f ≠ t)
    (habsent : tables t i &&& Pte.present = 0) :
    Linked (childOf tables) (childOf (linkTable tables t i f)) t i f where
  empty := by simp [childOf, habsent]
  link := by
    obtain ⟨hpresent, hentry⟩ := entryTable_tableEntry hfresh.ok
    simp [childOf, linkTable_link, hpresent, hentry, Except.toOption]
  fresh := by
    intro j
    simp [childOf, linkTable_fresh hft]
  other := by
    intro t' j hf hne
    exact childOf_congr (linkTable_other hf hne)

/-- What a walk sees of the new table: one path from one root leads to it. -/
theorem TreesWf.walk_link (h : TreesWf tables roots boot) (hr : roots r) (hi : UserPath (p ++ [i]))
    (ht : walk (childOf tables) r p = some t) (habsent : tables t i &&& Pte.present = 0)
    (hfresh : FreshTable tables roots boot f) {r' : UInt64} {q : List (Fin 512)}
    (hr' : roots r' ∨ r' = boot) (hq : q.length ≤ 3) :
    (r' = r ∧ q = p ++ [i] ∧ walk (childOf (linkTable tables t i f)) r' q = some f) ∨
      (¬ (r' = r ∧ q = p ++ [i]) ∧
        walk (childOf (linkTable tables t i f)) r' q = walk (childOf tables) r' q) := by
  have hp := userPath_closed p i hi
  have hft : f ≠ t := by
    rintro rfl
    exact hfresh.unreached r p (.inl hr) hp.1 ht
  refine Radix.walk_link (fun r' => roots r' ∨ r' = boot) (fun q => q.length ≤ 3)
    (fun q j hq => ?_) ht ?_ hfresh.unreached (hfresh.linked hft habsent) hr' hq
  · rw [List.length_append] at hq
    omega
  · intro r₂ q₂ hr₂ hq₂ hw
    rw [List.length_append, List.length_singleton] at hq₂
    exact h.reads_unique hr hp hi.2 ht hr₂ (by omega) hw

/-- The new table stands where the entry was absent. -/
theorem TreesWf.walk_link_self (h : TreesWf tables roots boot) (hr : roots r)
    (hi : UserPath (p ++ [i])) (ht : walk (childOf tables) r p = some t)
    (habsent : tables t i &&& Pte.present = 0) (hfresh : FreshTable tables roots boot f) :
    walk (childOf (linkTable tables t i f)) r (p ++ [i]) = some f := by
  rcases h.walk_link hr hi ht habsent hfresh (.inl hr) hi.1 with ⟨_, _, hw⟩ | ⟨hne, _⟩
  · exact hw
  · exact absurd ⟨rfl, rfl⟩ hne

/-- An entry that a walk reads is the one written, or as before. -/
theorem TreesWf.link_read (h : TreesWf tables roots boot) (hr : roots r) (hi : UserPath (p ++ [i]))
    (ht : walk (childOf tables) r p = some t) (hfresh : FreshTable tables roots boot f)
    {r' t' : UInt64} {q : List (Fin 512)} {j : Fin 512} (hr' : roots r' ∨ r' = boot)
    (hq : q.length ≤ 3) (hw : walk (childOf tables) r' q = some t')
    (hne : ¬ (r' = r ∧ q = p ∧ j = i)) : linkTable tables t i f t' j = tables t' j := by
  have hf : t' ≠ f := by
    rintro rfl
    exact hfresh.unreached r' q hr' hq hw
  apply linkTable_other hf
  rintro ⟨rfl, rfl⟩
  obtain ⟨rfl, rfl⟩ := h.reads_unique hr (userPath_closed p _ hi) hi.2 ht hr' hq hw
  exact hne ⟨rfl, rfl, rfl⟩

theorem TreesWf.ne_boot (h : TreesWf tables roots boot) (hr : roots r) : r ≠ boot := by
  intro heq
  exact h.shared r [] [] r hr userPath_nil (Nat.zero_le _) rfl (by rw [heq]; rfl)

theorem TreesWf.link_wf (h : TreesWf tables roots boot) (hr : roots r) (hi : UserPath (p ++ [i]))
    (ht : walk (childOf tables) r p = some t) (habsent : tables t i &&& Pte.present = 0)
    (hfresh : FreshTable tables roots boot f) : TreesWf (linkTable tables t i f) roots boot := by
  have hp := userPath_closed p i hi
  have hft : f ≠ t := by
    rintro rfl
    exact hfresh.unreached r p (.inl hr) hp.1 ht
  have hwalk : ∀ r' (q : List (Fin 512)), roots r' ∨ r' = boot → q.length ≤ 3 → _ :=
    fun r' q hr' hq => h.walk_link (q := q) hr hi ht habsent hfresh hr' hq
  refine ⟨?_, ?_, ?_, ?_⟩
  · exact h.apart.link userPath_closed hr hp ht
      (fun r' q hr' hq => hfresh.unreached r' q (.inl hr') hq.1) (hfresh.linked hft habsent)
  · intro r' hr' j hj
    have hlow : ¬ (([] : List (Fin 512)) = p ∧ j = i) := by
      rintro ⟨rfl, rfl⟩
      have := hi.2 j (by simp)
      omega
    rw [h.link_read hr hi ht hfresh (.inl hr') (Nat.zero_le _) rfl (fun hc => hlow hc.2),
      h.link_read hr hi ht hfresh (.inr rfl) (Nat.zero_le _) rfl (fun hc => hlow hc.2)]
    exact h.kernel r' hr' j hj
  · intro r' p' q x hr' hp' hq hw hw'
    rcases hwalk boot q (.inr rfl) hq with ⟨heq, _, _⟩ | ⟨_, hbw⟩
    · exact h.ne_boot hr heq.symm
    · rw [hbw] at hw'
      -- A table shared with the boot tree is not the new one.
      rcases hwalk r' p' (.inl hr') hp'.1 with ⟨rfl, rfl, hx⟩ | ⟨_, hx⟩
      · obtain rfl := Option.some.inj (hw.symm.trans hx)
        exact hfresh.unreached boot q (.inr rfl) hq hw'
      · exact h.shared r' p' q x hr' hp' hq (hx.symm.trans hw) hw'
  · intro r' p' t' j hr' hp' hw
    have hp'' := userPath_closed p' j hp'
    rcases hwalk r' p' (.inl hr') hp''.1 with ⟨rfl, rfl, hx⟩ | ⟨_, hx⟩
    · obtain rfl := Option.some.inj (hw.symm.trans hx)
      left
      rw [linkTable_fresh hft]
      rfl
    · have hold := hx.symm.trans hw
      by_cases hpos : r' = r ∧ p' = p ∧ j = i
      · obtain ⟨rfl, rfl, rfl⟩ := hpos
        obtain rfl := Option.some.inj (hold.symm.trans ht)
        right
        exact ⟨f, hfresh.ok, linkTable_link⟩
      · rw [h.link_read hr hi ht hfresh (.inl hr') hp''.1 hold hpos]
        exact h.entry r' p' t' j hr' hp' hold

/-- The other fresh tables stay fresh. -/
theorem TreesWf.link_fresh (h : TreesWf tables roots boot) (hr : roots r) (hi : UserPath (p ++ [i]))
    (ht : walk (childOf tables) r p = some t) (habsent : tables t i &&& Pte.present = 0)
    (hfresh : FreshTable tables roots boot f) {f' : UInt64} (hne : f' ≠ f)
    (hf' : FreshTable tables roots boot f') : FreshTable (linkTable tables t i f) roots boot f' := by
  refine ⟨hf'.ok, ?_⟩
  intro r' q hr' hq hw
  rcases h.walk_link hr hi ht habsent hfresh hr' hq with ⟨_, _, hx⟩ | ⟨_, hx⟩
  · exact hne (Option.some.inj (hw.symm.trans hx))
  · exact hf'.unreached r' q hr' hq (hx.symm.trans hw)

/-- A lookup that ended at the absent entry now ends in the empty table; the others
    do not read what was written. -/
theorem TreesWf.link_lookup (h : TreesWf tables roots boot) (hr : roots r)
    (hi : UserPath (p ++ [i])) (ht : walk (childOf tables) r p = some t)
    (habsent : tables t i &&& Pte.present = 0) (hfresh : FreshTable tables roots boot f)
    {r' : UInt64} (v : UInt64) (hr' : roots r' ∨ r' = boot) :
    lookupEntry (linkTable tables t i f) r' v = lookupEntry tables r' v := by
  have hft : f ≠ t := by
    rintro rfl
    exact hfresh.unreached r p (.inl hr) (userPath_closed p i hi).1 ht
  have hself := h.walk_link_self hr hi ht habsent hfresh
  -- Only an address behind the new entry can read the new table, which is empty.
  by_cases hthrough : r' = r ∧ p ++ [i] <+: tablePath v
  · obtain ⟨rfl, rest, hrest⟩ := hthrough
    unfold lookupEntry
    have hbefore : lookupAlong tables r' (ptIndex v) (tablePath v) = .error .noent := by
      rw [← hrest, List.append_assoc]
      exact lookupAlong_absent ht habsent
    rw [hbefore, ← hrest]
    cases rest with
    | nil =>
      rw [List.append_nil, lookupAlong_of_walk hself, linkTable_fresh hft]
      rfl
    | cons j rest =>
      refine lookupAlong_absent hself ?_
      rw [linkTable_fresh hft]
      rfl
  · apply lookupAlong_congr
    intro q j t' hshort hw
    have hlen := hi.1
    rw [List.length_append, List.length_singleton] at hlen
    have hq := length_of_tablePath hshort
    apply h.link_read hr hi ht hfresh hr' hq hw
    rintro ⟨rfl, rfl, rfl⟩
    apply hthrough
    refine ⟨rfl, ?_⟩
    apply List.prefix_of_prefix_length_le hshort (List.prefix_append _ _)
    simp only [List.length_append, tablePath, List.length_cons, List.length_nil]
    omega

/-- Linking a fresh table keeps the trees and changes no lookup. -/
theorem TreesWf.link (h : TreesWf tables roots boot) (hr : roots r) (hi : UserPath (p ++ [i]))
    (ht : walk (childOf tables) r p = some t) (habsent : tables t i &&& Pte.present = 0)
    (hfresh : FreshTable tables roots boot f) :
    TreesWf (linkTable tables t i f) roots boot ∧
      walk (childOf (linkTable tables t i f)) r (p ++ [i]) = some f ∧
      (∀ f', f' ≠ f → FreshTable tables roots boot f' →
        FreshTable (linkTable tables t i f) roots boot f') ∧
      ∀ r' v, roots r' ∨ r' = boot →
        lookupEntry (linkTable tables t i f) r' v = lookupEntry tables r' v := by
  refine ⟨h.link_wf hr hi ht habsent hfresh, h.walk_link_self hr hi ht habsent hfresh, ?_, ?_⟩
  · intro f' hne hf'
    exact h.link_fresh hr hi ht habsent hfresh hne hf'
  · intro r' v hr'
    exact h.link_lookup hr hi ht habsent hfresh v hr'

end link

/-! ### Finding the leaf table, with missing tables made on the way -/

/-- What the page allocator may answer: pages that no root reaches as a page
    table, each once, and failures at any point. -/
structure PagesFresh (tables : PageTables) (roots : UInt64 → Prop) (boot : UInt64)
    (pages : PageSupply) : Prop where
  nodup : (pages.filterMap Except.toOption).Nodup
  fresh : ∀ f ∈ pages.filterMap Except.toOption, FreshTable tables roots boot f

/-- Tables may have been linked, but every lookup is as before. -/
structure Grown (tables tables' : PageTables) (roots : UInt64 → Prop) (boot : UInt64)
    (pages : PageSupply) : Prop where
  wf : TreesWf tables' roots boot
  pages : PagesFresh tables' roots boot pages
  lookup : ∀ r v, roots r ∨ r = boot → lookupEntry tables' r v = lookupEntry tables r v

theorem Grown.trans {tables' tables'' : PageTables} {pages pages' : PageSupply}
    (h : Grown tables tables' roots boot pages) (h' : Grown tables' tables'' roots boot pages') :
    Grown tables tables'' roots boot pages' where
  wf := h'.wf
  pages := h'.pages
  lookup := by
    intro r v hr
    rw [h'.lookup r v hr, h.lookup r v hr]

theorem TreesWf.nextTable (h : TreesWf tables roots boot) (hr : roots r)
    (hi : UserPath (p ++ [i])) (ht : walk (childOf tables) r p = some t) {pages : PageSupply}
    (hpages : PagesFresh tables roots boot pages) :
    Grown tables (nextTable tables pages t i true Pte.user).2.1 roots boot
        (nextTable tables pages t i true Pte.user).2.2 ∧
      ∀ k, (nextTable tables pages t i true Pte.user).1 = .ok k →
        walk (childOf (nextTable tables pages t i true Pte.user).2.1) r (p ++ [i]) = some k := by
  have hsame : Grown tables tables roots boot pages := ⟨h, hpages, fun _ _ _ => rfl⟩
  unfold Scdk.nextTable
  dsimp only
  by_cases habsent : tables t i &&& Pte.present = 0
  · rw [if_pos habsent, if_neg (by decide)]
    unfold allocateTable
    cases pages with
    | nil => exact ⟨hsame, fun k hk => by cases hk⟩
    | cons answer pages =>
      cases answer with
      | error e =>
        have hrest : PagesFresh tables roots boot pages := ⟨hpages.nodup, hpages.fresh⟩
        exact ⟨⟨h, hrest, fun _ _ _ => rfl⟩, fun k hk => by cases hk⟩
      | ok f =>
        -- The page is linked; what is left of the supply stays fresh.
        have hfresh := hpages.fresh f (by simp [Except.toOption])
        have hnodup := hpages.nodup
        rw [List.filterMap_cons_some (show (Except.ok f : Except Err UInt64).toOption = some f from rfl),
          List.nodup_cons] at hnodup
        obtain ⟨hwf, hself, hrest, hlookup⟩ := h.link hr hi ht habsent hfresh
        refine ⟨⟨hwf, ⟨hnodup.2, ?_⟩, hlookup⟩, ?_⟩
        · intro f' hf'
          apply hrest f'
          · rintro rfl
            exact hnodup.1 hf'
          · apply hpages.fresh f'
            rw [List.filterMap_cons_some
              (show (Except.ok f : Except Err UInt64).toOption = some f from rfl)]
            exact List.mem_cons_of_mem _ hf'
        · intro k hk
          have hentry : entryTable (tableEntry f) = .ok k := hk
          rw [(entryTable_tableEntry hfresh.ok).2] at hentry
          obtain rfl := Except.ok.inj hentry
          exact hself
  · rw [if_neg habsent]
    refine ⟨hsame, ?_⟩
    intro k hk
    dsimp only at hk
    rw [walk_concat, ht]
    simp [childOf, habsent, hk, Except.toOption]

theorem TreesWf.leafTableForRoot (h : TreesWf tables roots boot) (hr : roots r) {virt : UInt64}
    (hvirt : (pml4Index virt).val < 256) {pages : PageSupply}
    (hpages : PagesFresh tables roots boot pages) :
    ∃ pages', Grown tables (leafTableForRoot tables pages r virt true Pte.user).2.1 roots boot
        pages' ∧
      ∀ pt, (leafTableForRoot tables pages r virt true Pte.user).1 = .ok pt →
        walk (childOf (leafTableForRoot tables pages r virt true Pte.user).2.1) r
          (tablePath virt) = some pt := by
  have huser : ∀ is : List (Fin 512), is.length ≤ 2 → UserPath (pml4Index virt :: is) :=
    fun _ his => userPath_cons hvirt his
  unfold Scdk.leafTableForRoot
  -- Each level keeps the trees well formed for the level below.
  obtain ⟨hg4, hw4⟩ := h.nextTable (p := []) (i := pml4Index virt) hr (huser [] (by simp)) rfl hpages
  cases hn4 : Scdk.nextTable tables pages r (pml4Index virt) true Pte.user with
  | mk r4 rest4 =>
    obtain ⟨tables4, pages4⟩ := rest4
    rw [hn4] at hg4 hw4
    cases r4 with
    | error e => exact ⟨pages4, hg4, fun pt hpt => by cases hpt⟩
    | ok pdpt =>
      dsimp only
      obtain ⟨hg3, hw3⟩ := hg4.wf.nextTable (p := [pml4Index virt]) (i := pdptIndex virt) hr
        (huser [pdptIndex virt] (by simp)) (hw4 pdpt rfl) hg4.pages
      cases hn3 : Scdk.nextTable tables4 pages4 pdpt (pdptIndex virt) true Pte.user with
      | mk r3 rest3 =>
        obtain ⟨tables3, pages3⟩ := rest3
        dsimp only at hg3 hw3
        rw [hn3] at hg3 hw3
        cases r3 with
        | error e => exact ⟨pages3, hg4.trans hg3, fun pt hpt => by cases hpt⟩
        | ok pd =>
          dsimp only
          obtain ⟨hg2, hw2⟩ := hg3.wf.nextTable (p := [pml4Index virt, pdptIndex virt])
            (i := pdIndex virt) hr (huser [pdptIndex virt, pdIndex virt] (by simp)) (hw3 pd rfl)
            hg3.pages
          exact ⟨_, (hg4.trans hg3).trans hg2, hw2⟩

end trees

/-! ## The operations on user pages -/

/-- The processor's view and that of `vmm.c` of an aligned root. -/
def RootOk (r : UInt64) : Prop := r ≠ 0 ∧ r.toNat % 4096 = 0

/-- A page-aligned address in the lower half. -/
def UserPage (virt : UInt64) : Prop := virt.toNat % 4096 = 0 ∧ virt.toNat < 2 ^ 47

theorem validateRoot_eq_ok {v : Vmm} {r : UInt64} :
    validateRoot v r = .ok () ↔ v.initialized = true ∧ r ≠ 0 ∧ isPageAligned r = true := by
  unfold validateRoot
  cases v.initialized <;> simp

theorem validateRoot_ok {v : Vmm} {r : UInt64} (hinit : v.initialized = true) (hr : RootOk r) :
    validateRoot v r = .ok () := by
  have halign := (isPageAligned_iff r).mpr hr.2
  unfold validateRoot
  rw [if_neg (by simp [hinit]), if_neg (by simp [hr.1, halign])]

theorem isCanonical_of_lt {virt : UInt64} (h : virt.toNat < 2 ^ 47) : isCanonical virt = true := by
  have hshift : virt >>> 48 = 0 := by
    apply UInt64.toNat_inj.mp
    rw [UInt64.toNat_shiftRight]
    show virt.toNat >>> 48 = 0
    rw [Nat.shiftRight_eq_div_pow]
    omega
  simp [isCanonical, hshift]

theorem validateVmmAddress_ok {v : Vmm} {virt : UInt64} (hinit : v.initialized = true)
    (hv : UserPage virt) : validateVmmAddress v virt = .ok () := by
  have halign := (isPageAligned_iff virt).mpr hv.1
  have hcanon := isCanonical_of_lt hv.2
  unfold validateVmmAddress
  rw [if_neg (by simp [hinit]), if_neg (by simp [halign, hcanon])]

/-- The address of the page of `virt`. -/
theorem toNat_pageOf (virt : UInt64) : (virt &&& ~~~0xfff).toNat = virt.toNat / 4096 * 4096 := by
  have hnot : (~~~(0xfff : UInt64)).toNat = 0xfffffffffffff000 := by decide
  have hlow : (virt.toNat &&& 0xfffffffffffff000) % 2 ^ 12 = 0 := by
    rw [Nat.and_mod_two_pow]
    simp
  have hhigh : (virt.toNat &&& 0xfffffffffffff000) / 2 ^ 12 = virt.toNat / 2 ^ 12 % 2 ^ 52 := by
    rw [Nat.and_div_two_pow]
    exact Nat.and_two_pow_sub_one_eq_mod (virt.toNat / 2 ^ 12) 52
  have hlt := virt.toNat_lt
  rw [UInt64.toNat_and, hnot]
  omega

/-- The entry of an address is that of its page. -/
theorem lookupEntry_pageOf (tables : PageTables) (r virt : UInt64) :
    lookupEntry tables r (virt &&& ~~~0xfff) = lookupEntry tables r virt := by
  have hpage : (virt &&& ~~~0xfff).toNat / 4096 = virt.toNat / 4096 := by
    rw [toNat_pageOf]
    omega
  obtain ⟨hpath, hpt⟩ := indices_eq_of_page hpage
  unfold lookupEntry
  rw [hpath, hpt]

/-- After its checks, `scdk_vmm_virt_to_phys_in_root` reports the leaf entry. -/
theorem vmmVirtToPhysInRoot_lookup (v : Vmm) (r virt : UInt64) :
    vmmVirtToPhysInRoot v r virt =
      match validateRoot v r with
      | .error e => .error e
      | .ok _ =>
        match validateVmmAddress v (virt &&& ~~~0xfff) with
        | .error e => .error e
        | .ok _ =>
          match lookupEntry v.tables r virt with
          | .error e => .error e
          | .ok entry => .ok ((entry &&& Pte.addr) ||| (virt &&& 0xfff), entryFlags entry) := by
  obtain ⟨res, hleaf, hlookup, _⟩ := leafTableForRoot_noCreate v.tables r virt
  unfold vmmVirtToPhysInRoot
  rw [hleaf, hlookup]
  congr 1
  funext _
  congr 1
  funext _
  cases res with
  | error e => rfl
  | ok pt =>
    dsimp only
    split
    · rfl
    · rfl

/-- What `scdk_vmm_virt_to_phys_in_root` reports for a user address. -/
theorem vmmVirtToPhysInRoot_eq {v : Vmm} {r virt : UInt64} (hinit : v.initialized = true)
    (hr : RootOk r) (hv : virt.toNat < 2 ^ 47) :
    vmmVirtToPhysInRoot v r virt =
      match lookupEntry v.tables r virt with
      | .error e => .error e
      | .ok entry => .ok ((entry &&& Pte.addr) ||| (virt &&& 0xfff), entryFlags entry) := by
  have hpage : UserPage (virt &&& ~~~0xfff) := by
    unfold UserPage
    rw [toNat_pageOf]
    omega
  rw [vmmVirtToPhysInRoot_lookup, validateRoot_ok hinit hr, validateVmmAddress_ok hinit hpage]

/-- Equal lookups give equal answers. -/
theorem vmmVirtToPhysInRoot_congr {v v' : Vmm} {r virt : UInt64}
    (hinit : v'.initialized = v.initialized)
    (hl : lookupEntry v'.tables r virt = lookupEntry v.tables r virt) :
    vmmVirtToPhysInRoot v' r virt = vmmVirtToPhysInRoot v r virt := by
  rw [vmmVirtToPhysInRoot_lookup, vmmVirtToPhysInRoot_lookup, hl]
  unfold validateRoot validateVmmAddress
  rw [hinit]

section vmm

variable {v : Vmm} {roots : UInt64 → Prop} {r virt : UInt64}

/-- The lookups in all roots are as before. -/
def SameLookups (v v' : Vmm) (roots : UInt64 → Prop) : Prop :=
  ∀ r virt, roots r ∨ r = v.activeCr3Phys → lookupEntry v'.tables r virt = lookupEntry v.tables r virt

/-- The lookups are as before but for the page of `virt` in `r`. -/
def OtherLookups (v v' : Vmm) (roots : UInt64 → Prop) (r virt : UInt64) : Prop :=
  ∀ r' virt', roots r' ∨ r' = v.activeCr3Phys →
    ¬ (r' = r ∧ tablePath virt' = tablePath virt ∧ ptIndex virt' = ptIndex virt) →
    lookupEntry v'.tables r' virt' = lookupEntry v.tables r' virt'

/-- The other fields of the page-table state, and the trees. -/
structure VmmKept (v v' : Vmm) (roots : UInt64 → Prop) : Prop where
  active : v'.activeCr3Phys = v.activeCr3Phys
  initialized : v'.initialized = v.initialized
  trees : TreesWf v'.tables roots v.activeCr3Phys

theorem VmmKept.wf {v v' : Vmm} (h : VmmKept v v' roots) :
    TreesWf v'.tables roots v'.activeCr3Phys := by
  rw [h.active]
  exact h.trees

theorem tablePath_userPath (hv : virt.toNat < 2 ^ 47) : UserPath (tablePath virt) :=
  userPath_cons (pml4Index_lt hv) (Nat.le_refl 2)

/-- Mapping a user page: a failure changes no lookup, a success those of the
    page only, which was not mapped before. -/
theorem vmmMapPageInRoot_cases (hinit : v.initialized = true)
    (h : TreesWf v.tables roots v.activeCr3Phys) (hr : roots r) (hroot : RootOk r)
    (hvirt : UserPage virt) (phys : UInt64) {flags : UInt64} (huser : flags &&& vmmMapUser ≠ 0)
    {pages : PageSupply} (hpages : PagesFresh v.tables roots v.activeCr3Phys pages) :
    (∃ e v', vmmMapPageInRoot v pages r virt phys flags = (.error e, v') ∧ VmmKept v v' roots ∧
      SameLookups v v' roots) ∨
    ∃ v', vmmMapPageInRoot v pages r virt phys flags = (.ok (), v') ∧ VmmKept v v' roots ∧
      isPageAligned phys = true ∧
      (lookupEntry v'.tables r virt =
        if leafEntry phys flags &&& Pte.present = 0 then .error .noent
        else .ok (leafEntry phys flags)) ∧
      OtherLookups v v' roots r virt := by
  have hsame : VmmKept v v roots := ⟨rfl, rfl, h⟩
  obtain ⟨pages', hgrown, hleaf⟩ := h.leafTableForRoot hr (pml4Index_lt hvirt.2) hpages
  unfold vmmMapPageInRoot
  rw [validateRoot_ok hinit hroot, validateVmmAddress_ok hinit hvirt]
  dsimp only
  split
  · exact .inl ⟨_, v, rfl, hsame, fun _ _ _ => rfl⟩
  · next hargs =>
    rw [not_or, Bool.not_eq_false] at hargs
    cases hl : leafTableForRoot v.tables pages r virt true Pte.user with
    | mk res rest =>
      obtain ⟨tables', rest'⟩ := rest
      rw [hl] at hgrown hleaf
      cases res with
      | error e =>
        exact .inl ⟨e, _, rfl, ⟨rfl, rfl, hgrown.wf⟩, hgrown.lookup⟩
      | ok pt =>
        have hwalk := hleaf pt rfl
        dsimp only at hwalk hgrown ⊢
        split
        · exact .inl ⟨_, _, rfl, ⟨rfl, rfl, hgrown.wf⟩, hgrown.lookup⟩
        · right
          have hpath := tablePath_userPath hvirt.2
          -- The leaf is the only entry written that was not absent before.
          obtain ⟨hwf, hother⟩ := hgrown.wf.setLeaf hr hpath rfl hwalk (ptIndex virt)
            (leafEntry phys flags)
          refine ⟨_, rfl, ⟨rfl, rfl, hwf⟩, hargs.1, ?_, ?_⟩
          · have hwalk' := hgrown.wf.walk_setLeaf (i := ptIndex virt) hr hpath rfl hwalk
              (leafEntry phys flags) (.inl hr) hpath.1
            unfold lookupEntry
            rw [lookupAlong_of_walk (hwalk'.trans hwalk), PageTables.setEntry_self]
          · intro r' virt' hr' hne
            rw [hother r' virt' hr' hne, hgrown.lookup r' virt' hr']

/-- Unmapping a user page. -/
theorem vmmUnmapPageInRoot_cases (hinit : v.initialized = true)
    (h : TreesWf v.tables roots v.activeCr3Phys) (hr : roots r) (hroot : RootOk r)
    (hvirt : UserPage virt) :
    (∃ e v', vmmUnmapPageInRoot v r virt = (.error e, v') ∧ VmmKept v v' roots ∧
      SameLookups v v' roots) ∨
    ∃ v', vmmUnmapPageInRoot v r virt = (.ok (), v') ∧ VmmKept v v' roots ∧
      lookupEntry v'.tables r virt = .error .noent ∧ OtherLookups v v' roots r virt := by
  have hsame : VmmKept v v roots := ⟨rfl, rfl, h⟩
  obtain ⟨res, hleaf, _, hwalk⟩ := leafTableForRoot_noCreate v.tables r virt
  unfold vmmUnmapPageInRoot
  rw [validateRoot_ok hinit hroot, validateVmmAddress_ok hinit hvirt, hleaf]
  dsimp only
  cases res with
  | error e => exact .inl ⟨e, _, rfl, hsame, fun _ _ _ => rfl⟩
  | ok pt =>
    dsimp only
    split
    · exact .inl ⟨_, _, rfl, hsame, fun _ _ _ => rfl⟩
    · right
      have hpath := tablePath_userPath hvirt.2
      have ht := hwalk pt rfl
      obtain ⟨hwf, hother⟩ := h.setLeaf hr hpath rfl ht (ptIndex virt) 0
      refine ⟨_, rfl, ⟨rfl, rfl, hwf⟩, ?_, hother⟩
      have hwalk' := h.walk_setLeaf (i := ptIndex virt) hr hpath rfl ht 0 (.inl hr) hpath.1
      unfold lookupEntry
      rw [lookupAlong_of_walk (hwalk'.trans ht), PageTables.setEntry_self]
      rfl

/-! ### A new root -/

theorem TreesWf.mono {tables : PageTables} {roots roots' : UInt64 → Prop} {boot : UInt64}
    (h : TreesWf tables roots boot) (hsub : ∀ r, roots' r → roots r) :
    TreesWf tables roots' boot where
  apart := fun r r' p p' k hr hr' => h.apart r r' p p' k (hsub r hr) (hsub r' hr')
  kernel := fun r hr => h.kernel r (hsub r hr)
  shared := fun r p q f hr => h.shared r p q f (hsub r hr)
  entry := fun r p t i hr => h.entry r p t i (hsub r hr)

/-- The tables with `f` as a new root: an empty user half, and the kernel half
    of the boot root. -/
def newRoot (tables : PageTables) (boot f : UInt64) : PageTables :=
  Function.update tables f fun i => if i.val < 256 then 0 else tables boot i

section newRoot

variable {tables : PageTables} {boot f : UInt64}

theorem newRoot_other {t : UInt64} (hne : t ≠ f) (j : Fin 512) :
    newRoot tables boot f t j = tables t j := by
  unfold newRoot
  rw [Function.update_of_ne hne]

theorem newRoot_low {j : Fin 512} (hj : j.val < 256) : newRoot tables boot f f j = 0 := by
  simp [newRoot, hj]

theorem newRoot_high {j : Fin 512} (hj : 256 ≤ j.val) : newRoot tables boot f f j = tables boot j := by
  simp [newRoot, Nat.not_lt.mpr hj]

/-- The roots there were see nothing of the new one. -/
theorem FreshTable.walk_newRoot (hfresh : FreshTable tables roots boot f) {r' : UInt64}
    {q : List (Fin 512)} (hr' : roots r' ∨ r' = boot) (hq : q.length ≤ 3) :
    walk (childOf (newRoot tables boot f)) r' q = walk (childOf tables) r' q := by
  refine walk_frame (fun q => q.length ≤ 3) (fun q j hq => ?_) ?_ hq
  · rw [List.length_append] at hq
    omega
  · intro q' j t' hq' hw
    rw [List.length_append, List.length_singleton] at hq'
    apply childOf_congr
    apply newRoot_other
    rintro rfl
    exact hfresh.unreached r' q' hr' (by omega) hw

theorem walk_newRoot_user {p : List (Fin 512)} {t : UInt64} (hp : UserPath p)
    (hw : walk (childOf (newRoot tables boot f)) f p = some t) : p = [] ∧ t = f := by
  cases p with
  | nil => exact ⟨rfl, (Option.some.inj hw).symm⟩
  | cons i p =>
    have hi : i.val < 256 := hp.2 i (by simp)
    simp [walk, childOf, newRoot_low hi] at hw

/-- A root that does not reach the new table has the lookups it had. -/
theorem lookupEntry_newRoot_of_unreached {r : UInt64}
    (hr : ∀ q : List (Fin 512), q.length ≤ 3 → walk (childOf tables) r q ≠ some f)
    (virt : UInt64) : lookupEntry (newRoot tables boot f) r virt = lookupEntry tables r virt := by
  apply lookupAlong_congr
  intro q j t hshort hw
  apply newRoot_other
  rintro rfl
  exact hr q (length_of_tablePath hshort) hw

/-- Behind the new root no page of the user half is mapped. -/
theorem lookupEntry_newRoot_user {virt : UInt64} (hvirt : virt.toNat < 2 ^ 47) :
    lookupEntry (newRoot tables boot f) f virt = .error .noent := by
  refine lookupAlong_absent (p := []) (t := f) rfl ?_
  rw [newRoot_low (pml4Index_lt hvirt)]
  rfl

/-- The trees stay apart when a new root joins them. -/
theorem TreesWf.newRoot_wf (h : TreesWf tables roots boot)
    (hfresh : FreshTable tables roots boot f) :
    TreesWf (newRoot tables boot f) (fun r => roots r ∨ r = f) boot := by
  have hbootf : boot ≠ f := by
    rintro rfl
    exact hfresh.unreached boot [] (.inr rfl) (Nat.zero_le _) rfl
  have hwalk : ∀ r' (q : List (Fin 512)), roots r' ∨ r' = boot → q.length ≤ 3 →
      walk (childOf (Scdk.newRoot tables boot f)) r' q = walk (childOf tables) r' q :=
    fun r' q hr' hq => hfresh.walk_newRoot hr' hq
  refine ⟨?_, ?_, ?_, ?_⟩
  · -- A table reached from an old root is not the new root.
    intro r₁ r₂ p₁ p₂ k hr₁ hr₂ hp₁ hp₂ hw₁ hw₂
    rcases hr₁ with hr₁ | rfl
    · rw [hwalk r₁ p₁ (.inl hr₁) hp₁.1] at hw₁
      rcases hr₂ with hr₂ | rfl
      · rw [hwalk r₂ p₂ (.inl hr₂) hp₂.1] at hw₂
        exact h.apart r₁ r₂ p₁ p₂ k hr₁ hr₂ hp₁ hp₂ hw₁ hw₂
      · obtain ⟨_, rfl⟩ := walk_newRoot_user hp₂ hw₂
        exact absurd hw₁ (hfresh.unreached r₁ p₁ (.inl hr₁) hp₁.1)
    · obtain ⟨rfl, rfl⟩ := walk_newRoot_user hp₁ hw₁
      rcases hr₂ with hr₂ | rfl
      · rw [hwalk r₂ p₂ (.inl hr₂) hp₂.1] at hw₂
        exact absurd hw₂ (hfresh.unreached r₂ p₂ (.inl hr₂) hp₂.1)
      · obtain ⟨rfl, _⟩ := walk_newRoot_user hp₂ hw₂
        exact ⟨rfl, rfl⟩
  · intro r' hr' j hj
    rw [newRoot_other hbootf]
    rcases hr' with hr' | rfl
    · have hne : r' ≠ f := by
        rintro rfl
        exact hfresh.unreached r' [] (.inl hr') (Nat.zero_le _) rfl
      rw [newRoot_other hne]
      exact h.kernel r' hr' j hj
    · exact newRoot_high hj
  · intro r' p' q x hr' hp' hq hw hw'
    rw [hwalk boot q (.inr rfl) hq] at hw'
    rcases hr' with hr' | rfl
    · rw [hwalk r' p' (.inl hr') hp'.1] at hw
      exact h.shared r' p' q x hr' hp' hq hw hw'
    · obtain ⟨_, rfl⟩ := walk_newRoot_user hp' hw
      exact hfresh.unreached boot q (.inr rfl) hq hw'
  · intro r' p' t' j hr' hp' hw
    have hp'' := userPath_closed p' j hp'
    rcases hr' with hr' | rfl
    · rw [hwalk r' p' (.inl hr') hp''.1] at hw
      have hne : t' ≠ f := by
        rintro rfl
        exact hfresh.unreached r' p' (.inl hr') hp''.1 hw
      rw [newRoot_other hne]
      exact h.entry r' p' t' j hr' hp' hw
    · obtain ⟨rfl, rfl⟩ := walk_newRoot_user hp'' hw
      left
      rw [newRoot_low (hp'.2 j (by simp))]
      rfl

theorem TreesWf.newRoot (h : TreesWf tables roots boot) (hfresh : FreshTable tables roots boot f) :
    TreesWf (newRoot tables boot f) (fun r => roots r ∨ r = f) boot ∧
      (∀ r virt, roots r ∨ r = boot →
        lookupEntry (newRoot tables boot f) r virt = lookupEntry tables r virt) ∧
      ∀ virt : UInt64, virt.toNat < 2 ^ 47 →
        lookupEntry (newRoot tables boot f) f virt = .error .noent := by
  refine ⟨h.newRoot_wf hfresh, fun r virt hr => ?_, fun virt hvirt => lookupEntry_newRoot_user hvirt⟩
  exact lookupEntry_newRoot_of_unreached (fun q hq => hfresh.unreached r q hr hq) virt

end newRoot

/-- Creating a root changes no lookup; the new one maps no user page. -/
theorem vmmCreateRoot_cases (hinit : v.initialized = true)
    (h : TreesWf v.tables roots v.activeCr3Phys) {pages : PageSupply}
    (hpages : PagesFresh v.tables roots v.activeCr3Phys pages) :
    (∃ e, vmmCreateRoot v pages = (.error e, v)) ∨
    ∃ f v', vmmCreateRoot v pages = (.ok f, v') ∧ FreshTable v.tables roots v.activeCr3Phys f ∧
      VmmKept v v' (fun r => roots r ∨ r = f) ∧ SameLookups v v' roots ∧
      ∀ virt : UInt64, virt.toNat < 2 ^ 47 → lookupEntry v'.tables f virt = .error .noent := by
  unfold vmmCreateRoot
  rw [if_neg (by simp [hinit])]
  cases pages with
  | nil => exact .inl ⟨_, rfl⟩
  | cons answer pages =>
    cases answer with
    | error e => exact .inl ⟨e, rfl⟩
    | ok f =>
      right
      have hfresh := hpages.fresh f (by simp [Except.toOption])
      obtain ⟨hwf, hlookup, hempty⟩ := h.newRoot hfresh
      have hne : v.activeCr3Phys ≠ f := by
        rintro rfl
        exact hfresh.unreached _ [] (.inr rfl) (Nat.zero_le _) rfl
      refine ⟨f, { v with tables := Scdk.newRoot v.tables v.activeCr3Phys f }, ?_, hfresh,
        ⟨rfl, rfl, hwf⟩, hlookup, hempty⟩
      simp only [pageAlloc, Scdk.newRoot, Function.update_of_ne hne, Function.update_idem]

/-! ### The walk of the processor -/

/-- A lookup that finds an entry has walked to the table that holds it. -/
theorem lookupAlong_eq_ok {tables : PageTables} {t e : UInt64} {leaf : Fin 512}
    {p : List (Fin 512)} (h : lookupAlong tables t leaf p = .ok e) :
    e &&& Pte.present ≠ 0 ∧ ∃ pt, walk (childOf tables) t p = some pt ∧ tables pt leaf = e := by
  induction p generalizing t with
  | nil =>
    simp only [lookupAlong] at h
    split at h
    · cases h
    · next hpresent =>
      obtain rfl := Except.ok.inj h
      exact ⟨hpresent, t, rfl, rfl⟩
  | cons i p ih =>
    simp only [lookupAlong] at h
    split at h
    · cases h
    · next hpresent =>
      cases hentry : entryTable (tables t i) with
      | error e' =>
        rw [hentry] at h
        cases h
      | ok next =>
        rw [hentry] at h
        obtain ⟨he, pt, hw, hpt⟩ := ih h
        refine ⟨he, pt, ?_, hpt⟩
        simpa [walk, childOf, hpresent, hentry, Except.toOption] using hw

/-- A link in a user half is a table entry. -/
theorem TreesWf.child_eq {tables : PageTables} {boot t k : UInt64} {p : List (Fin 512)}
    {i : Fin 512} (h : TreesWf tables roots boot) (hr : roots r) (hi : UserPath (p ++ [i]))
    (hw : walk (childOf tables) r p = some t) (hk : childOf tables t i = some k) :
    FrameOk k ∧ tables t i = tableEntry k := by
  rcases h.entry r p t i hr hi hw with habsent | ⟨f, hf, hentry⟩
  · simp [childOf, habsent] at hk
  · obtain ⟨hpresent, htable⟩ := entryTable_tableEntry hf
    simp only [childOf, hentry, if_neg hpresent, htable, Except.toOption, Option.some.injEq] at hk
    subst hk
    exact ⟨hf, hentry⟩

theorem tableEntry_and_and {f m : UInt64} (hf : FrameOk f) (hm : m.toNat < 4096)
    (hbit : 7 &&& m = m) (e : UInt64) : tableEntry f &&& (e &&& m) = e &&& m := by
  rw [UInt64.and_comm e m, ← UInt64.and_assoc, tableEntry_and_low hf hm, hbit]

/-- The processor grants what the leaf entry says: every table entry above it
    has the bits U/S and R/W. -/
theorem TreesWf.hwTranslate {tables : PageTables} {boot e : UInt64}
    (h : TreesWf tables roots boot) (hr : roots r) (hvirt : virt.toNat < 2 ^ 47)
    (hl : lookupEntry tables r virt = .ok e) :
    hwTranslate tables r virt =
      some ⟨(e &&& Pte.addr) ||| (virt &&& 0xfff), e &&& Pte.user ≠ 0, e &&& Pte.writable ≠ 0⟩ := by
  obtain ⟨hpresent, pt, hw, hpt⟩ := lookupAlong_eq_ok hl
  -- The three tables on the way.
  simp only [tablePath, walk] at hw
  obtain ⟨f4, hf4, hw⟩ := Option.bind_eq_some_iff.mp hw
  obtain ⟨f3, hf3, hw⟩ := Option.bind_eq_some_iff.mp hw
  obtain ⟨f2, hf2, hw⟩ := Option.bind_eq_some_iff.mp hw
  obtain rfl := Option.some.inj hw
  have hlow := pml4Index_lt hvirt
  have huser : ∀ is : List (Fin 512), is.length ≤ 2 → UserPath (pml4Index virt :: is) :=
    fun _ his => userPath_cons hlow his
  obtain ⟨ok4, he4⟩ := h.child_eq (p := []) hr (huser [] (by simp)) rfl hf4
  have hw4 : walk (childOf tables) r [pml4Index virt] = some f4 := by simp [walk, hf4]
  obtain ⟨ok3, he3⟩ := h.child_eq (p := [pml4Index virt]) hr (huser [pdptIndex virt] (by simp))
    hw4 hf3
  have hw3 : walk (childOf tables) r [pml4Index virt, pdptIndex virt] = some f3 := by
    simp [walk, hf4, hf3]
  obtain ⟨ok2, he2⟩ := h.child_eq (p := [pml4Index virt, pdptIndex virt]) hr
    (huser [pdptIndex virt, pdIndex virt] (by simp)) hw3 hf2
  have hlinks : ∀ f, FrameOk f → tableEntry f &&& Pte.present ≠ 0 ∧ tableEntry f &&& Pte.huge = 0 := by
    intro f hf
    rw [tableEntry_and_low hf (by decide), tableEntry_and_low hf (by decide)]
    decide
  unfold Scdk.hwTranslate
  simp only [he4, tableEntry_and_addr ok4, he3, tableEntry_and_addr ok3, he2,
    tableEntry_and_addr ok2, hpt]
  rw [if_neg (by simp [(hlinks f4 ok4).1, (hlinks f3 ok3).1]), if_neg (by simp [(hlinks f3 ok3).2]),
    if_neg (hlinks f2 ok2).1, if_neg (by simp [(hlinks f2 ok2).2]), if_neg hpresent]
  have hmask : ∀ m : UInt64, m.toNat < 4096 → 7 &&& m = m →
      tableEntry f4 &&& tableEntry f3 &&& tableEntry f2 &&& e &&& m = e &&& m := by
    intro m hm hbit
    rw [UInt64.and_assoc, UInt64.and_assoc, UInt64.and_assoc, tableEntry_and_and ok2 hm hbit,
      tableEntry_and_and ok3 hm hbit, tableEntry_and_and ok4 hm hbit]
  rw [hmask Pte.user (by decide) (by decide), hmask Pte.writable (by decide) (by decide)]

end vmm

/-! ## Clearing an entry -/

/-- With an entry cleared, a lookup that succeeds has not read it. -/
theorem lookupAlong_clear {tables : PageTables} {t table : UInt64} {i leaf : Fin 512}
    {is : List (Fin 512)} {e : UInt64}
    (h : lookupAlong (tables.setEntry t i 0) table leaf is = .ok e) :
    lookupAlong tables table leaf is = .ok e ∧
      ∀ t', walk (childOf tables) table is = some t' → ¬ (t' = t ∧ leaf = i) := by
  -- A present entry is not the one that was cleared.
  have hread : ∀ table j, tables.setEntry t i 0 table j &&& Pte.present ≠ 0 →
      tables.setEntry t i 0 table j = tables table j ∧ ¬ (table = t ∧ j = i) := by
    intro table j hpresent
    by_cases hhere : table = t ∧ j = i
    · obtain ⟨rfl, rfl⟩ := hhere
      rw [PageTables.setEntry_self] at hpresent
      exact absurd rfl hpresent
    · exact ⟨PageTables.setEntry_ne hhere, hhere⟩
  induction is generalizing table with
  | nil =>
    unfold lookupAlong at h
    split at h
    · cases h
    next hpresent =>
    obtain ⟨hsame, hother⟩ := hread table leaf hpresent
    rw [hsame] at h hpresent
    constructor
    · unfold lookupAlong
      rw [if_neg hpresent]
      exact h
    · intro t' ht'
      obtain rfl := Option.some.inj ht'
      exact hother
  | cons j is ih =>
    unfold lookupAlong at h
    split at h
    · cases h
    next hpresent =>
    obtain ⟨hsame, _⟩ := hread table j hpresent
    rw [hsame] at h hpresent
    cases hentry : entryTable (tables table j) with
    | error e =>
      rw [hentry] at h
      cases h
    | ok next =>
      rw [hentry] at h
      obtain ⟨hlook, hlast⟩ := ih h
      have hchild : childOf tables table j = some next := by
        simp [childOf, hpresent, hentry, Except.toOption]
      have hwalk : walk (childOf tables) table (j :: is) = walk (childOf tables) next is := by
        simp only [walk, hchild, Option.bind_some]
      rw [hwalk]
      refine ⟨?_, hlast⟩
      unfold lookupAlong
      rw [if_neg hpresent, hentry]
      exact hlook

/-- The page of `virt` is not mapped in `r`. -/
def Unmapped (v : Vmm) (r virt : UInt64) : Prop := ∀ x, vmmVirtToPhysInRoot v r virt ≠ .ok x

/-- `scdk_vmm_unmap_page_in_root` clears the leaf entry, or does nothing. -/
theorem vmmUnmapPageInRoot_state (v : Vmm) (r virt : UInt64) :
    (vmmUnmapPageInRoot v r virt).2 = v ∨ ∃ pt, walk (childOf v.tables) r (tablePath virt) = some pt ∧
      (vmmUnmapPageInRoot v r virt).2 = { v with tables := v.tables.setEntry pt (ptIndex virt) 0 } := by
  obtain ⟨res, hleaf, _, hwalk⟩ := leafTableForRoot_noCreate v.tables r virt
  unfold vmmUnmapPageInRoot
  rw [hleaf]
  split
  · exact .inl rfl
  split
  · exact .inl rfl
  cases res with
  | error e => exact .inl rfl
  | ok pt =>
    dsimp only
    split
    · exact .inl rfl
    · exact .inr ⟨pt, hwalk pt rfl, rfl⟩

@[simp] theorem vmmUnmapPageInRoot_active (v : Vmm) (r virt : UInt64) :
    (vmmUnmapPageInRoot v r virt).2.activeCr3Phys = v.activeCr3Phys := by
  rcases vmmUnmapPageInRoot_state v r virt with heq | ⟨pt, _, heq⟩
  · rw [heq]
  · rw [heq]

/-- **Unmapping maps nothing**, in whatever tables. -/
theorem Unmapped.unmap {v : Vmm} {r virt : UInt64} (h : Unmapped v r virt) (r' virt' : UInt64) :
    Unmapped (vmmUnmapPageInRoot v r' virt').2 r virt := by
  rcases vmmUnmapPageInRoot_state v r' virt' with heq | ⟨pt, _, heq⟩
  · rwa [heq]
  · intro x hx
    have hinit : (vmmUnmapPageInRoot v r' virt').2.initialized = v.initialized := by simp
    have hlookup : ∃ e, lookupEntry (vmmUnmapPageInRoot v r' virt').2.tables r virt = .ok e := by
      rw [vmmVirtToPhysInRoot_lookup] at hx
      split at hx
      · cases hx
      split at hx
      · cases hx
      split at hx
      · cases hx
      next e he => exact ⟨e, he⟩
    obtain ⟨e, he⟩ := hlookup
    have hsame : lookupEntry (vmmUnmapPageInRoot v r' virt').2.tables r virt =
        lookupEntry v.tables r virt := by
      rw [heq] at he ⊢
      exact he.trans (lookupAlong_clear he).1.symm
    exact h x ((vmmVirtToPhysInRoot_congr hinit hsame).symm.trans hx)

/-- And the page itself is not mapped then. -/
theorem unmapped_unmap (v : Vmm) (r : UInt64) {virt : UInt64} (hvirt : UserPage virt) :
    Unmapped (vmmUnmapPageInRoot v r virt).2 r virt := by
  intro x hx
  have hinit : (vmmUnmapPageInRoot v r virt).2.initialized = v.initialized := by simp
  rw [vmmVirtToPhysInRoot_lookup] at hx
  split at hx
  · cases hx
  next hroot =>
  have hroot' : validateRoot v r = .ok () := by
    rw [← hroot]
    unfold validateRoot
    rw [hinit]
  have hon : v.initialized = true := by
    by_contra hoff
    unfold validateRoot at hroot'
    rw [if_pos (by simpa using hoff)] at hroot'
    cases hroot'
  split at hx
  · cases hx
  split at hx
  · cases hx
  next e he =>
  -- the lookup still succeeds, so that the entry was not cleared
  obtain ⟨res, hleaf, hlookup, hwalk⟩ := leafTableForRoot_noCreate v.tables r virt
  unfold vmmUnmapPageInRoot at he
  rw [hroot', validateVmmAddress_ok hon hvirt, hleaf] at he
  cases res with
  | error e' =>
    rw [hlookup] at he
    cases he
  | ok pt =>
    dsimp only at he hlookup
    split at he
    · next habsent =>
      rw [if_pos habsent] at hlookup
      rw [hlookup] at he
      cases he
    · exact (lookupAlong_clear he).2 pt (hwalk pt rfl) ⟨rfl, rfl⟩

end Scdk
