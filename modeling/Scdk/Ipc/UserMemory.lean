import Scdk.Mm.PageTables
import Scdk.Lib.Memory

/-! # Access to user memory

    Model of the first half of `ipc/user_ipc.c`: the validation of a range of
    user addresses against the active page tables, and the copies between the
    kernel and user memory.

    Memory is addressed by physical address (`Frames`) and kept apart from the
    page tables; an access goes through the active root. -/

namespace Scdk

/-! ## Model -/

/-- The bytes of physical memory that are not page tables. -/
abbrev Frames : Type := UInt64 → UInt8

/-- `scdk_vmm_virt_to_phys` -/
def vmmVirtToPhys (v : Vmm) (virt : UInt64) : Except Err (UInt64 × UInt64) :=
  vmmVirtToPhysInRoot v v.activeCr3Phys virt

/-- `checked_user_end` -/
def checkedUserEnd (userPtr size : UInt64) : Option UInt64 :=
  if userPtr = 0 ∨ size = 0 then none
  else if 0xffffffffffffffff - (size - 1) < userPtr then none
  else
    let last := userPtr + size - 1
    if userPtr < userVirtBase ∨ userVirtTop ≤ last then none else some last

/-- The body of the loop of `scdk_user_validate_range` for one page. -/
def validatePage (v : Vmm) (writable : Bool) (page : UInt64) : Except Err Unit :=
  match vmmVirtToPhys v page with
  | .error e => .error e
  | .ok (_, flags) =>
    if flags &&& vmmMapUser = 0 then .error .perm
    else if writable = true ∧ flags &&& vmmMapWrite = 0 then .error .perm
    else .ok ()

/-- The loop of `scdk_user_validate_range` from `page` on, for at most `fuel`
    rounds; the last round is the one for `lastPage`. -/
def validatePages (v : Vmm) (writable : Bool) (lastPage : UInt64) : Nat → UInt64 → Except Err Unit
  | 0, _ => .error .bounds
  | fuel + 1, page =>
    match validatePage v writable page with
    | .error e => .error e
    | .ok _ =>
      if lastPage ≤ page then .ok ()
      else validatePages v writable lastPage fuel (page + 4096)

/-- `scdk_user_validate_range`, with one round of the loop for each page of the
    range. -/
def userValidateRange (v : Vmm) (userPtr size : UInt64) (writable : Bool) : Except Err Unit :=
  match checkedUserEnd userPtr size with
  | none => .error .bounds
  | some last =>
    let page := userPtr &&& ~~~0xfff
    let lastPage := last &&& ~~~0xfff
    validatePages v writable lastPage ((lastPage - page).toNat / 4096 + 1) page

/-- The byte at a virtual address; only pages that translate are read. -/
def userByte (v : Vmm) (frames : Frames) (virt : UInt64) : UInt8 :=
  match vmmVirtToPhys v virt with
  | .error _ => 0
  | .ok (phys, _) => frames phys

/-- The `n` bytes from a virtual address on. -/
def userBytes (v : Vmm) (frames : Frames) (virt : UInt64) (n : Nat) : List UInt8 :=
  (List.range n).map fun i => userByte v frames (virt + UInt64.ofNat i)

/-- Store bytes from a virtual address on. -/
def storeBytes (v : Vmm) (frames : Frames) (virt : UInt64) : List UInt8 → Frames
  | [] => frames
  | byte :: bytes =>
    let frames :=
      match vmmVirtToPhys v virt with
      | .error _ => frames
      | .ok (phys, _) => Function.update frames phys byte
    storeBytes v frames (virt + 1) bytes

/-- `scdk_user_copy_from` -/
def userCopyFrom (v : Vmm) (frames : Frames) (userPtr size : UInt64) : Except Err (List UInt8) :=
  if size = 0 then .error .inval
  else
    match userValidateRange v userPtr size false with
    | .error e => .error e
    | .ok _ => .ok (userBytes v frames userPtr size.toNat)

/-! ## Words in memory -/

/-- The 64-bit word in 8 bytes, least significant first. -/
def wordOfBytes (bytes : List UInt8) : UInt64 :=
  bytes.foldr (fun b w => b.toUInt64 ||| w <<< 8) 0

/-- The word number `i` of a structure of 64-bit words. -/
def wordAt (bytes : List UInt8) (i : Nat) : UInt64 := wordOfBytes ((bytes.drop (8 * i)).take 8)

/-- The 8 bytes of a word, least significant first. -/
def bytesOfWord (w : UInt64) : List UInt8 :=
  (List.range 8).map fun i => (w >>> UInt64.ofNat (8 * i)).toUInt8

/-! ## Parts of a range -/

/-- The range is inside the user half, and its end does not wrap. -/
structure UserRange (userPtr size : UInt64) : Prop where
  nonempty : size ≠ 0
  base : userVirtBase.toNat ≤ userPtr.toNat
  top : userPtr.toNat + size.toNat ≤ userVirtTop.toNat

theorem checkedUserEnd_eq_some {userPtr size last : UInt64} :
    checkedUserEnd userPtr size = some last ↔
      UserRange userPtr size ∧ last.toNat = userPtr.toNat + size.toNat - 1 := by
  have hptr := userPtr.toNat_lt
  have hsize := size.toNat_lt
  have hbase : userVirtBase.toNat = 0x100000 := rfl
  have htop : userVirtTop.toNat = 0x800000000000 := rfl
  unfold checkedUserEnd
  by_cases h0 : userPtr = 0 ∨ size = 0
  · rw [if_pos h0]
    simp only [reduceCtorEq, false_iff, not_and]
    intro hrange
    have hb := hrange.base
    rcases h0 with h0 | h0
    · rw [h0, hbase] at hb
      exact absurd hb (by decide)
    · exact absurd h0 hrange.nonempty
  · rw [not_or] at h0
    have hpos : 0 < size.toNat := by
      apply Nat.pos_of_ne_zero
      intro hz
      exact h0.2 (UInt64.toNat_inj.mp hz)
    have hsub : (size - 1).toNat = size.toNat - 1 := by
      rw [UInt64.toNat_sub_of_le _ _ (by rw [UInt64.le_iff_toNat_le]; exact hpos)]
      rfl
    have hmax : (0xffffffffffffffff - (size - 1) : UInt64).toNat = 2 ^ 64 - 1 - (size.toNat - 1) := by
      rw [UInt64.toNat_sub_of_le _ _ (by rw [UInt64.le_iff_toNat_le, hsub]; show _ ≤ 2 ^ 64 - 1; omega),
        hsub]
      rfl
    -- The test for a wrap of the source, over the numbers.
    have hcmp : 0xffffffffffffffff - (size - 1) < userPtr ↔
        2 ^ 64 - 1 - (size.toNat - 1) < userPtr.toNat := by
      rw [UInt64.lt_iff_toNat_lt, hmax]
    rw [if_neg (by rw [not_or]; exact h0)]
    by_cases hwrap : 2 ^ 64 - 1 - (size.toNat - 1) < userPtr.toNat
    · rw [if_pos (hcmp.mpr hwrap)]
      simp only [reduceCtorEq, false_iff, not_and]
      intro hrange
      have ht := hrange.top
      omega
    · rw [if_neg (fun h => hwrap (hcmp.mp h))]
      -- The end does not wrap here, so the bounds are those of the numbers.
      have hlast : (userPtr + size - 1).toNat = userPtr.toNat + size.toNat - 1 := by
        have hassoc : userPtr + size - 1 = userPtr + (size - 1) := by
          rw [UInt64.sub_eq_add_neg, UInt64.sub_eq_add_neg, UInt64.add_assoc]
        rw [hassoc, UInt64.toNat_add, hsub, Nat.mod_eq_of_lt (by omega)]
        omega
      simp only [UInt64.lt_iff_toNat_lt, UInt64.le_iff_toNat_le, hlast]
      by_cases hout : userPtr.toNat < userVirtBase.toNat ∨
          userVirtTop.toNat ≤ userPtr.toNat + size.toNat - 1
      · rw [if_pos hout]
        simp only [reduceCtorEq, false_iff, not_and]
        intro hrange
        have hb := hrange.base
        have ht := hrange.top
        omega
      · rw [if_neg hout]
        rw [not_or] at hout
        constructor
        · intro heq
          obtain rfl := Option.some.inj heq
          exact ⟨⟨h0.2, by omega, by omega⟩, hlast⟩
        · intro hrange
          have heq : userPtr + size - 1 = last := by
            apply UInt64.toNat_inj.mp
            rw [hlast, hrange.2]
          rw [heq]

/-- The loop accepts the pages from number `a` to number `b` exactly when each of
    them is accepted. -/
theorem validatePages_eq_ok (v : Vmm) (writable : Bool) {b : Nat} (hb : 4096 * b < 2 ^ 64) :
    ∀ (fuel a : Nat), a ≤ b → b - a < fuel →
      (validatePages v writable (UInt64.ofNat (4096 * b)) fuel (UInt64.ofNat (4096 * a)) = .ok () ↔
        ∀ n, a ≤ n → n ≤ b → validatePage v writable (UInt64.ofNat (4096 * n)) = .ok ()) := by
  intro fuel
  -- The loop goes up by a page; the pages left are fewer than the fuel.
  induction fuel with
  | zero =>
    intro a _ hfuel
    omega
  | succ fuel ih =>
    intro a hab hfuel
    have hcmp : UInt64.ofNat (4096 * b) ≤ UInt64.ofNat (4096 * a) ↔ b ≤ a := by
      rw [UInt64.le_iff_toNat_le, UInt64.toNat_ofNat', UInt64.toNat_ofNat',
        Nat.mod_eq_of_lt hb, Nat.mod_eq_of_lt (by omega)]
      omega
    unfold validatePages
    cases hpage : validatePage v writable (UInt64.ofNat (4096 * a)) with
    | error e =>
      simp only [reduceCtorEq, false_iff]
      intro hall
      have := hall a (Nat.le_refl a) hab
      rw [hpage] at this
      cases this
    | ok u =>
      dsimp only
      by_cases hend : b ≤ a
      · rw [if_pos (hcmp.mpr hend)]
        simp only [true_iff]
        intro n han hnb
        obtain rfl : n = a := by omega
        exact hpage
      · rw [if_neg (fun h => hend (hcmp.mp h))]
        have hnext : UInt64.ofNat (4096 * a) + 4096 = UInt64.ofNat (4096 * (a + 1)) := by
          rw [Nat.mul_add, UInt64.ofNat_add]
          rfl
        rw [hnext, ih (a + 1) (by omega) (by omega)]
        constructor
        · intro hall n han hnb
          rcases Nat.eq_or_lt_of_le han with rfl | hlt
          · exact hpage
          · exact hall n hlt hnb
        · intro hall n han hnb
          exact hall n (by omega) hnb

/-- A range is accepted when it is in the user half and all its pages are. -/
theorem userValidateRange_eq_ok (v : Vmm) (userPtr size : UInt64) (writable : Bool) :
    userValidateRange v userPtr size writable = .ok () ↔
      UserRange userPtr size ∧
        ∀ n, userPtr.toNat / 4096 ≤ n → n ≤ (userPtr.toNat + size.toNat - 1) / 4096 →
          validatePage v writable (UInt64.ofNat (4096 * n)) = .ok () := by
  unfold userValidateRange
  cases hend : checkedUserEnd userPtr size with
  | none =>
    simp only [reduceCtorEq, false_iff, not_and]
    intro hrange
    -- The range has an end, so it is not a range of the user.
    have hlast : checkedUserEnd userPtr size = some (UInt64.ofNat (userPtr.toNat + size.toNat - 1)) := by
      have ht := hrange.top
      have htop : userVirtTop.toNat = 0x800000000000 := rfl
      rw [checkedUserEnd_eq_some, UInt64.toNat_ofNat', Nat.mod_eq_of_lt (by omega)]
      exact ⟨hrange, rfl⟩
    rw [hend] at hlast
    cases hlast
  | some last =>
    obtain ⟨hrange, hlast⟩ := checkedUserEnd_eq_some.mp hend
    have hlt := last.toNat_lt
    have hpos : 0 < size.toNat := by
      apply Nat.pos_of_ne_zero
      intro hz
      exact hrange.nonempty (UInt64.toNat_inj.mp hz)
    have hpage : ∀ virt : UInt64, virt &&& ~~~0xfff = UInt64.ofNat (4096 * (virt.toNat / 4096)) := by
      intro virt
      have hv := virt.toNat_lt
      apply UInt64.toNat_inj.mp
      rw [toNat_pageOf, UInt64.toNat_ofNat', Nat.mod_eq_of_lt (by omega)]
      omega
    dsimp only
    rw [hpage, hpage]
    have hab : userPtr.toNat / 4096 ≤ last.toNat / 4096 := by omega
    -- The loop runs from the first page to the last.
    have hfuel : (UInt64.ofNat (4096 * (last.toNat / 4096)) -
        UInt64.ofNat (4096 * (userPtr.toNat / 4096))).toNat / 4096 + 1 =
        last.toNat / 4096 - userPtr.toNat / 4096 + 1 := by
      have hp := userPtr.toNat_lt
      have h1 : (UInt64.ofNat (4096 * (last.toNat / 4096))).toNat = 4096 * (last.toNat / 4096) := by
        rw [UInt64.toNat_ofNat', Nat.mod_eq_of_lt (by omega)]
      have h2 : (UInt64.ofNat (4096 * (userPtr.toNat / 4096))).toNat =
          4096 * (userPtr.toNat / 4096) := by
        rw [UInt64.toNat_ofNat', Nat.mod_eq_of_lt (by omega)]
      rw [UInt64.toNat_sub_of_le _ _ (by rw [UInt64.le_iff_toNat_le, h1, h2]; omega), h1, h2]
      omega
    rw [hfuel, validatePages_eq_ok v writable (by omega) _ _ hab (by omega), hlast]
    simp [hrange]

/-- A part of a range that was accepted is accepted. -/
theorem userValidateRange_part {v : Vmm} {userPtr size ptr' size' : UInt64} {writable : Bool}
    (h : userValidateRange v userPtr size writable = .ok ()) (hptr : userPtr.toNat ≤ ptr'.toNat)
    (hend : ptr'.toNat + size'.toNat ≤ userPtr.toNat + size.toNat) (hsize : size' ≠ 0) :
    userValidateRange v ptr' size' writable = .ok () := by
  rw [userValidateRange_eq_ok] at h ⊢
  obtain ⟨hrange, hpages⟩ := h
  have hb := hrange.base
  have ht := hrange.top
  have hpos : 0 < size'.toNat := by
    apply Nat.pos_of_ne_zero
    intro hz
    exact hsize (UInt64.toNat_inj.mp hz)
  refine ⟨⟨hsize, by omega, by omega⟩, ?_⟩
  intro n hlo hhi
  exact hpages n (by omega) (by omega)

/-! ## Reading back -/

section readBack

variable {v : Vmm} {frames : Frames}

/-- A physical address has the page offset of its virtual one. -/
theorem vmmVirtToPhys_offset {virt phys flags : UInt64}
    (h : vmmVirtToPhys v virt = .ok (phys, flags)) : phys.toNat % 4096 = virt.toNat % 4096 := by
  unfold vmmVirtToPhys at h
  rw [vmmVirtToPhysInRoot_lookup] at h
  split at h
  · cases h
  split at h
  · cases h
  split at h
  · cases h
  · next entry _ =>
    have hframe : (entry &&& Pte.addr).toNat % 4096 = 0 := by
      rw [UInt64.toNat_and]
      exact Nat.and_mod_two_pow (n := 12) ▸ by simp [Pte.addr]
    have hoff : (virt &&& 0xfff).toNat = virt.toNat % 4096 := by
      rw [UInt64.toNat_and]
      exact Nat.and_two_pow_sub_one_eq_mod _ 12
    obtain rfl : (entry &&& Pte.addr) ||| (virt &&& 0xfff) = phys :=
      congrArg Prod.fst (Except.ok.inj h)
    rw [toNat_or_low hframe (by omega), hoff]
    omega

/-- An address translates when its page does. -/
theorem vmmVirtToPhys_of_page {virt phys flags : UInt64}
    (h : vmmVirtToPhys v (virt &&& ~~~0xfff) = .ok (phys, flags)) :
    ∃ phys', vmmVirtToPhys v virt = .ok (phys', flags) := by
  have hpage : virt &&& ~~~0xfff &&& ~~~0xfff = virt &&& ~~~0xfff := by
    rw [UInt64.and_assoc, UInt64.and_self]
  unfold vmmVirtToPhys at h ⊢
  rw [vmmVirtToPhysInRoot_lookup, hpage, lookupEntry_pageOf] at h
  rw [vmmVirtToPhysInRoot_lookup]
  split at h
  · cases h
  split at h
  · cases h
  split at h
  · cases h
  · next entry _ =>
    have hflags : entryFlags entry = flags := congrArg Prod.snd (Except.ok.inj h)
    rw [hflags]
    exact ⟨_, rfl⟩

/-- Every address of a range that was accepted translates. -/
theorem userValidateRange_translates {userPtr size : UInt64} {writable : Bool}
    (h : userValidateRange v userPtr size writable = .ok ()) {i : Nat} (hi : i < size.toNat) :
    ∃ phys flags, vmmVirtToPhys v (userPtr + UInt64.ofNat i) = .ok (phys, flags) := by
  obtain ⟨hrange, hpages⟩ := (userValidateRange_eq_ok _ _ _ _).mp h
  have htop := hrange.top
  have hlimit : userVirtTop.toNat = 0x800000000000 := rfl
  have haddr : (userPtr + UInt64.ofNat i).toNat = userPtr.toNat + i := by
    rw [UInt64.toNat_add, UInt64.toNat_ofNat', Nat.mod_eq_of_lt (by omega), Nat.mod_eq_of_lt (by omega)]
  have hpage := hpages ((userPtr.toNat + i) / 4096) (by omega) (by omega)
  have hvirt : (userPtr + UInt64.ofNat i) &&& ~~~0xfff =
      UInt64.ofNat (4096 * ((userPtr.toNat + i) / 4096)) := by
    apply UInt64.toNat_inj.mp
    rw [toNat_pageOf, haddr, UInt64.toNat_ofNat', Nat.mod_eq_of_lt (by omega)]
    omega
  rw [← hvirt] at hpage
  unfold validatePage at hpage
  cases htrans : vmmVirtToPhys v ((userPtr + UInt64.ofNat i) &&& ~~~0xfff) with
  | error e =>
    rw [htrans] at hpage
    cases hpage
  | ok r =>
    obtain ⟨phys', htrans'⟩ := vmmVirtToPhys_of_page htrans
    exact ⟨phys', _, htrans'⟩

theorem add_ofNat_succ (virt : UInt64) (i : Nat) :
    virt + 1 + UInt64.ofNat i = virt + UInt64.ofNat (i + 1) := by
  rw [UInt64.ofNat_add, UInt64.add_assoc, UInt64.add_comm 1]
  rfl

/-- A store changes the bytes behind its addresses only. -/
theorem storeBytes_of_ne {x : UInt64} (bytes : List UInt8) :
    ∀ (virt : UInt64) (frames : Frames),
      (∀ i < bytes.length, ∀ phys flags,
        vmmVirtToPhys v (virt + UInt64.ofNat i) = .ok (phys, flags) → phys ≠ x) →
      storeBytes v frames virt bytes x = frames x := by
  -- Each byte is stored somewhere else.
  induction bytes with
  | nil =>
    intro virt frames _
    rfl
  | cons byte bytes ih =>
    intro virt frames hne
    unfold storeBytes
    rw [ih (virt + 1)]
    · cases htrans : vmmVirtToPhys v virt with
      | error e => rfl
      | ok r =>
        have hx := hne 0 (by simp) r.1 r.2 (by simpa using htrans)
        exact Function.update_of_ne (Ne.symm hx) _ _
    · intro i hi phys flags htrans
      rw [add_ofNat_succ] at htrans
      exact hne (i + 1) (by simpa using hi) phys flags htrans

/-- The `n` bytes from `virt` on are mapped, each to a byte of its own. -/
structure Buffer (v : Vmm) (virt : UInt64) (n : Nat) : Prop where
  maps : ∀ i < n, ∃ phys flags, vmmVirtToPhys v (virt + UInt64.ofNat i) = .ok (phys, flags)
  apart : ∀ {i j phys flags flags'}, i < n → j < n →
    vmmVirtToPhys v (virt + UInt64.ofNat i) = .ok (phys, flags) →
    vmmVirtToPhys v (virt + UInt64.ofNat j) = .ok (phys, flags') → i = j

theorem Buffer.tail {virt : UInt64} {n : Nat} (h : Buffer v virt (n + 1)) : Buffer v (virt + 1) n where
  maps := by
    intro i hi
    rw [add_ofNat_succ]
    exact h.maps (i + 1) (by omega)
  apart := by
    intro i j phys flags flags' hi hj hphys hphys'
    rw [add_ofNat_succ] at hphys hphys'
    have heq := h.apart (by omega) (by omega) hphys hphys'
    omega

/-- Within a page's length no two addresses have the same offset. -/
theorem buffer_of_page {virt : UInt64} {n : Nat} (hlen : n ≤ 4096)
    (hmaps : ∀ i < n, ∃ phys flags, vmmVirtToPhys v (virt + UInt64.ofNat i) = .ok (phys, flags)) :
    Buffer v virt n where
  maps := hmaps
  apart := by
    intro i j phys flags flags' hi hj hphys hphys'
    have hoff := vmmVirtToPhys_offset hphys
    have hoff' := vmmVirtToPhys_offset hphys'
    rw [UInt64.toNat_add, UInt64.toNat_ofNat'] at hoff hoff'
    omega

/-- The bytes of a store are read back: none is stored to twice. -/
theorem userByte_storeBytes (bytes : List UInt8) :
    ∀ (virt : UInt64) (frames : Frames), Buffer v virt bytes.length →
      ∀ i (hi : i < bytes.length),
        userByte v (storeBytes v frames virt bytes) (virt + UInt64.ofNat i) = bytes.get ⟨i, hi⟩ := by
  -- By induction on the bytes: the later ones are stored elsewhere.
  induction bytes with
  | nil =>
    intro virt frames _ i hi
    cases hi
  | cons byte bytes ih =>
    intro virt frames hbuffer i hi
    unfold storeBytes
    cases i with
    | zero =>
      obtain ⟨phys, flags, hphys⟩ := hbuffer.maps 0 (by simp)
      have hfirst := hphys
      rw [show virt + UInt64.ofNat 0 = virt by simp] at hphys ⊢
      unfold userByte
      rw [hphys]
      dsimp only
      rw [storeBytes_of_ne, Function.update_self]
      · rfl
      · intro j hj phys' flags' hphys' heq
        rw [add_ofNat_succ, heq] at hphys'
        have hzero := hbuffer.apart (by simp) (by simpa using hj) hfirst hphys'
        omega
    | succ i =>
      have hbyte := ih (virt + 1)
        (match vmmVirtToPhys v virt with
          | .error _ => frames
          | .ok (phys, _) => Function.update frames phys byte) hbuffer.tail i (by simpa using hi)
      rw [add_ofNat_succ] at hbyte
      exact hbyte

/-- A store to a buffer is read back. -/
theorem Buffer.readBack {virt : UInt64} {bytes : List UInt8} (h : Buffer v virt bytes.length)
    (frames : Frames) : userBytes v (storeBytes v frames virt bytes) virt bytes.length = bytes := by
  apply List.ext_getElem
  · simp [userBytes]
  · intro i _ hi
    have hbyte := userByte_storeBytes bytes virt frames h i hi
    simpa [userBytes] using hbyte

theorem userBytes_storeBytes {ptr : UInt64} {bytes : List UInt8} (hlen : bytes.length ≤ 4096)
    (h : userValidateRange v ptr (UInt64.ofNat bytes.length) true = .ok ()) :
    userBytes v (storeBytes v frames ptr bytes) ptr bytes.length = bytes := by
  have hsize : (UInt64.ofNat bytes.length).toNat = bytes.length := by
    rw [UInt64.toNat_ofNat', Nat.mod_eq_of_lt (by omega)]
  apply Buffer.readBack
  apply buffer_of_page hlen
  intro i hi
  exact userValidateRange_translates h (by omega)

end readBack

end Scdk
