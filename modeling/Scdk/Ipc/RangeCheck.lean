import Scdk.Ipc.UserMemory

/-! # The validation of user ranges

    `scdk_user_validate_range` looks at the pages of a range one by one.  Its loop
    has no bound of its own; that it ends follows from the end of the range being
    below the top of user space, where neither the sum nor the page counter wraps.

    * `LoopEnds`: the runs of the loop that come to an end,
    * `validatePages_ends`: the loop comes to an end,
    * `MeetsPage`, `GrantsPage`: what is asked of the pages of a range,
    * `range_check_exact`: exactly the ranges of user space all of whose pages give
      the access are accepted. -/

namespace Scdk

/-! ## The loop -/

/-- The loop of `scdk_user_validate_range` that stands at `page` ends, and the
    function answers `r`. -/
inductive LoopEnds (v : Vmm) (writable : Bool) (last : UInt64) : UInt64 → Except Err Unit → Prop
  | refused {page : UInt64} {e : Err} (h : validatePage v writable page = .error e) :
      LoopEnds v writable last page (.error e)
  | break {page : UInt64} (h : validatePage v writable page = .ok ()) (hlast : last ≤ page) :
      LoopEnds v writable last page (.ok ())
  | next {page : UInt64} {r : Except Err Unit} (h : validatePage v writable page = .ok ())
      (hlast : ¬ last ≤ page) (rest : LoopEnds v writable last (page + 4096) r) :
      LoopEnds v writable last page r

/-- Page number `n`. -/
def pageAt (n : Nat) : UInt64 := UInt64.ofNat (4096 * n)

theorem pageAt_succ (n : Nat) : pageAt n + 4096 = pageAt (n + 1) := by
  unfold pageAt
  rw [Nat.mul_add, UInt64.ofNat_add]
  rfl

theorem pageAt_le_iff {a b : Nat} (ha : 4096 * a < 2 ^ 64) (hb : 4096 * b < 2 ^ 64) :
    pageAt b ≤ pageAt a ↔ b ≤ a := by
  unfold pageAt
  rw [UInt64.le_iff_toNat_le, UInt64.toNat_ofNat', UInt64.toNat_ofNat', Nat.mod_eq_of_lt hb,
    Nat.mod_eq_of_lt ha]
  omega

theorem pageOf_eq_pageAt (virt : UInt64) : virt &&& ~~~0xfff = pageAt (virt.toNat / 4096) := by
  have hlt := virt.toNat_lt
  unfold pageAt
  apply UInt64.toNat_inj.mp
  rw [toNat_pageOf, UInt64.toNat_ofNat', Nat.mod_eq_of_lt (by omega)]
  omega

/-- The loop ends, and rounds that are left over do not matter. -/
theorem validatePages_ends (v : Vmm) (writable : Bool) {b : Nat} (hb : 4096 * b < 2 ^ 64)
    {rounds a : Nat} (hab : a ≤ b) (hrounds : b - a < rounds) :
    LoopEnds v writable (pageAt b) (pageAt a)
      (validatePages v writable (pageAt b) rounds (pageAt a)) := by
  -- By induction on the rounds: the distance to the last page shrinks by one.
  induction rounds generalizing a with
  | zero => omega
  | succ rounds ih =>
    have hcmp := pageAt_le_iff (a := a) (b := b) (by omega) hb
    unfold validatePages
    cases hpage : validatePage v writable (pageAt a) with
    | error e => exact .refused hpage
    | ok u =>
      dsimp only
      by_cases hend : b ≤ a
      · rw [if_pos (hcmp.mpr hend)]
        exact .break hpage (hcmp.mpr hend)
      · have hgo : ¬ pageAt b ≤ pageAt a := fun h => hend (hcmp.mp h)
        rw [if_neg hgo]
        apply LoopEnds.next hpage hgo
        rw [pageAt_succ]
        exact ih (by omega) (by omega)

/-! ## Ranges -/

/-- The page number `n` has an address in common with the range. -/
def MeetsPage (userPtr size : UInt64) (n : Nat) : Prop :=
  ∃ a, userPtr.toNat ≤ a ∧ a < userPtr.toNat + size.toNat ∧ a / 4096 = n

/-- The page number `n` is mapped for user mode, and for writing if that is asked. -/
def GrantsPage (v : Vmm) (writable : Bool) (n : Nat) : Prop :=
  ∃ phys flags, vmmVirtToPhys v (pageAt n) = .ok (phys, flags) ∧ flags &&& vmmMapUser ≠ 0 ∧
    (writable = true → flags &&& vmmMapWrite ≠ 0)

theorem meetsPage_iff {userPtr size : UInt64} (hsize : size ≠ 0) {n : Nat} :
    MeetsPage userPtr size n ↔
      userPtr.toNat / 4096 ≤ n ∧ n ≤ (userPtr.toNat + size.toNat - 1) / 4096 := by
  have hpos : 0 < size.toNat := by
    apply Nat.pos_of_ne_zero
    intro hzero
    exact hsize (UInt64.toNat_inj.mp hzero)
  constructor
  · intro ⟨a, hlo, hhi, hpage⟩
    subst hpage
    exact ⟨Nat.div_le_div_right hlo, Nat.div_le_div_right (by omega)⟩
  · intro ⟨hlo, hhi⟩
    -- The first address of the page, or of the range where that is later.
    exact ⟨max userPtr.toNat (4096 * n), by omega, by omega, by omega⟩

theorem validatePage_eq_ok {v : Vmm} {writable : Bool} {n : Nat} :
    validatePage v writable (pageAt n) = .ok () ↔ GrantsPage v writable n := by
  unfold validatePage GrantsPage
  cases htrans : vmmVirtToPhys v (pageAt n) with
  | error e => simp
  | ok r =>
    obtain ⟨phys, flags⟩ := r
    simp [ite_eq_iff]

/-- What `scdk_user_validate_range` accepts. -/
theorem userValidateRange_iff {v : Vmm} {userPtr size : UInt64} {writable : Bool} :
    userValidateRange v userPtr size writable = .ok () ↔
      UserRange userPtr size ∧ ∀ n, MeetsPage userPtr size n → GrantsPage v writable n := by
  rw [userValidateRange_eq_ok]
  constructor
  · intro ⟨hrange, hpages⟩
    refine ⟨hrange, ?_⟩
    intro n hmeets
    obtain ⟨hlo, hhi⟩ := (meetsPage_iff hrange.nonempty).mp hmeets
    exact validatePage_eq_ok.mp (hpages n hlo hhi)
  · intro ⟨hrange, hpages⟩
    refine ⟨hrange, ?_⟩
    intro n hlo hhi
    exact validatePage_eq_ok.mpr (hpages n ((meetsPage_iff hrange.nonempty).mpr ⟨hlo, hhi⟩))

theorem userRange_iff {userPtr size : UInt64} :
    UserRange userPtr size ↔
      userPtr ≠ 0 ∧ 1 ≤ size.toNat ∧ userVirtBase.toNat ≤ userPtr.toNat ∧
        userPtr.toNat + size.toNat ≤ userVirtTop.toNat := by
  have hsize : size ≠ 0 ↔ 1 ≤ size.toNat := by
    rw [ne_eq, ← UInt64.toNat_inj]
    exact Nat.pos_iff_ne_zero.symm
  constructor
  · intro h
    refine ⟨?_, hsize.mp h.nonempty, h.base, h.top⟩
    intro hzero
    have hbase := h.base
    rw [hzero] at hbase
    exact absurd hbase (by decide)
  · intro ⟨_, hpos, hbase, htop⟩
    exact ⟨hsize.mpr hpos, hbase, htop⟩

/-- The loop of a range that passes the check of its end. -/
theorem userValidateRange_ends {v : Vmm} {userPtr size last : UInt64} (writable : Bool)
    (h : checkedUserEnd userPtr size = some last) :
    LoopEnds v writable (last &&& ~~~0xfff) (userPtr &&& ~~~0xfff)
      (userValidateRange v userPtr size writable) := by
  obtain ⟨hrange, hlast⟩ := checkedUserEnd_eq_some.mp h
  have hlt := last.toNat_lt
  have hpos : 0 < size.toNat := (userRange_iff.mp hrange).2.1
  have hab : userPtr.toNat / 4096 ≤ last.toNat / 4096 := Nat.div_le_div_right (by omega)
  unfold userValidateRange
  rw [h]
  dsimp only
  rw [pageOf_eq_pageAt, pageOf_eq_pageAt]
  apply validatePages_ends v writable (by omega) hab
  -- One round for each page.
  have hle : pageAt (userPtr.toNat / 4096) ≤ pageAt (last.toNat / 4096) :=
    (pageAt_le_iff (by omega) (by omega)).mpr hab
  have htop : (pageAt (last.toNat / 4096)).toNat = 4096 * (last.toNat / 4096) := by
    unfold pageAt
    rw [UInt64.toNat_ofNat', Nat.mod_eq_of_lt (by omega)]
  have hbottom : (pageAt (userPtr.toNat / 4096)).toNat = 4096 * (userPtr.toNat / 4096) := by
    unfold pageAt
    rw [UInt64.toNat_ofNat', Nat.mod_eq_of_lt (by omega)]
  rw [UInt64.toNat_sub_of_le _ _ hle, htop, hbottom]
  omega

/-- **Exactness.**  The loop ends for every range; what is accepted are the
    nonempty ranges inside user space all of whose pages give the access.  So a
    part of an accepted range is accepted, and writing includes reading. -/
theorem range_check_exact (v : Vmm) (userPtr size : UInt64) (writable : Bool) :
    (∀ last, checkedUserEnd userPtr size = some last →
      LoopEnds v writable (last &&& ~~~0xfff) (userPtr &&& ~~~0xfff)
        (userValidateRange v userPtr size writable)) ∧
    (userValidateRange v userPtr size writable = .ok () ↔
      userPtr ≠ 0 ∧ 1 ≤ size.toNat ∧ userVirtBase.toNat ≤ userPtr.toNat ∧
        userPtr.toNat + size.toNat ≤ userVirtTop.toNat ∧
        ∀ n, MeetsPage userPtr size n → GrantsPage v writable n) ∧
    (∀ ptr' size', userValidateRange v userPtr size writable = .ok () →
      1 ≤ size'.toNat → userPtr.toNat ≤ ptr'.toNat →
      ptr'.toNat + size'.toNat ≤ userPtr.toNat + size.toNat →
      userValidateRange v ptr' size' writable = .ok ()) ∧
    (userValidateRange v userPtr size true = .ok () →
      userValidateRange v userPtr size false = .ok ()) := by
  refine ⟨fun last => userValidateRange_ends writable, ?_, ?_, ?_⟩
  · rw [userValidateRange_iff, userRange_iff]
    simp only [and_assoc]
  · intro ptr' size' haccepted hpos hptr hend
    refine userValidateRange_part haccepted hptr hend ?_
    intro hzero
    rw [hzero] at hpos
    exact absurd hpos (by decide)
  · rw [userValidateRange_iff, userValidateRange_iff]
    intro ⟨hrange, hpages⟩
    refine ⟨hrange, ?_⟩
    intro n hmeets
    obtain ⟨phys, flags, htrans, huser, _⟩ := hpages n hmeets
    exact ⟨phys, flags, htrans, huser, nofun⟩

end Scdk
