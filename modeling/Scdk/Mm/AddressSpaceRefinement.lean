import Scdk.Mm.AddressSpace
import Scdk.Mm.PageTables
import Scdk.Lib.Run

/-! # Address spaces as partial maps from pages

    For every run of creations, mappings and unmappings over any number of
    address spaces, what `scdk_address_space_translate` answers is what the
    last successful mapping or unmapping of the page said
    (`addressSpace_refines`), and the processor grants the same.

    The page allocator may fail at any point; the pages it hands out are not
    yet reached as page tables by any root.  The storage allocator hands out
    blocks that hold no address space yet. -/

namespace Scdk

/-! ## The system -/

/-- The state the address-space code works on. -/
structure SpaceWorld where
  objects : ObjectTable
  caps : CapTable
  aspaces : AddressSpaces
  vmm : Vmm

/-- The calls, each with what the allocators answer during it. -/
inductive SpaceCall where
  | create (storage : Option Nat) (pages : PageSupply)
  | map (aspaceCap vaddr paddr flags : UInt64) (pages : PageSupply)
  | unmap (aspaceCap vaddr : UInt64)

/-- The answers; a mapping or an unmapping returns no value. -/
inductive SpaceAnswer where
  | cap (r : Except Err UInt64)
  | status (r : Except Err Unit)

/-- One call. -/
def spaceStep (s : SpaceWorld) : SpaceCall → SpaceAnswer × SpaceWorld
  | .create storage pages =>
      let (r, objects, caps, aspaces, vmm) :=
        addressSpaceCreate s.objects s.caps s.aspaces s.vmm storage pages
      (.cap r, ⟨objects, caps, aspaces, vmm⟩)
  | .map aspaceCap vaddr paddr flags pages =>
      let (r, vmm) :=
        addressSpaceMap s.objects s.caps s.aspaces s.vmm pages aspaceCap vaddr paddr flags
      (.status r, { s with vmm })
  | .unmap aspaceCap vaddr =>
      let (r, vmm) := addressSpaceUnmap s.objects s.caps s.aspaces s.vmm aspaceCap vaddr
      (.status r, { s with vmm })

/-- `scdk_address_space_translate` in a state. -/
def translate (s : SpaceWorld) (aspaceCap vaddr : UInt64) : Except Err (UInt64 × UInt64) :=
  addressSpaceTranslate s.objects s.caps s.aspaces s.vmm aspaceCap vaddr

/-- The object `id` is an address space with its record in block `b`. -/
def IsSpace (s : SpaceWorld) (id : UInt64) (b : Nat) : Prop :=
  ∃ object, objectLookup s.objects id = .ok object ∧ object.type = ObjType.addressSpace ∧
    object.payload = .addressSpace b

/-- `r` is the root of an address space. -/
def SpaceRoot (s : SpaceWorld) (r : UInt64) : Prop :=
  ∃ id b, IsSpace s id b ∧ (s.aspaces b).rootPhys = r

/-- The address-space code, started on any well-formed tables and any page
    tables before an address space exists. -/
def spaceSystem : System SpaceWorld SpaceCall SpaceAnswer where
  init := fun s => TablesWf s.objects s.caps ∧ s.vmm.initialized = true ∧
    ∀ id object, objectLookup s.objects id = .ok object → object.type ≠ ObjType.addressSpace
  step := spaceStep

/-- What is assumed of the allocators and of the addresses mapped. -/
def SpaceGuard (s : SpaceWorld) : SpaceCall → Prop
  | .create storage pages =>
      (∀ b, storage = some b → ∀ id, ¬ IsSpace s id b) ∧
        PagesFresh s.vmm.tables (SpaceRoot s) s.vmm.activeCr3Phys pages
  | .map _ _ paddr _ pages =>
      paddr.toNat < 2 ^ 52 ∧ PagesFresh s.vmm.tables (SpaceRoot s) s.vmm.activeCr3Phys pages
  | .unmap _ _ => True

/-- The calls of a run with their answers, oldest first. -/
abbrev SpaceLog : Type := List (SpaceCall × SpaceAnswer)

/-- How one event changes what the page `page` of `aspaceCap` is mapped to. -/
def mapEvent (aspaceCap page : UInt64) (mapped : Option (UInt64 × UInt64)) :
    SpaceCall × SpaceAnswer → Option (UInt64 × UInt64)
  | (.map cap vaddr paddr flags _, .status (.ok _)) =>
      if cap = aspaceCap ∧ vaddr = page then some (paddr, flags) else mapped
  | (.unmap cap vaddr, .status (.ok _)) => if cap = aspaceCap ∧ vaddr = page then none else mapped
  | _ => mapped

/-- The physical address and the flags of the last successful mapping of a
    page, unless it was unmapped since. -/
def lastMap (log : SpaceLog) (aspaceCap page : UInt64) : Option (UInt64 × UInt64) :=
  log.foldl (mapEvent aspaceCap page) none

theorem lastMap_concat (log : SpaceLog) (ev : SpaceCall × SpaceAnswer) (aspaceCap page : UInt64) :
    lastMap (log ++ [ev]) aspaceCap page = mapEvent aspaceCap page (lastMap log aspaceCap page) ev := by
  unfold lastMap
  rw [List.foldl_append]
  rfl

/-! ## The invariant -/

/-- The leaf entry that goes with what a page is mapped to. -/
def expectedEntry : Option (UInt64 × UInt64) → Except Err UInt64
  | none => .error .noent
  | some (paddr, flags) => .ok (leafEntry paddr (flags ||| vmmMapUser))

/-- Capability slot `k` holds a token of an address space. -/
def IsSpaceCap (s : SpaceWorld) (k : Fin maxCaps) : Prop :=
  s.caps.occupied k = true ∧ (s.caps.entry k).objectType = ObjType.addressSpace

/-- The invariant between the history, the records and the page tables. -/
structure SpaceInv (log : SpaceLog) (s : SpaceWorld) : Prop where
  wf : TablesWf s.objects s.caps
  initialized : s.vmm.initialized = true
  trees : TreesWf s.vmm.tables (SpaceRoot s) s.vmm.activeCr3Phys
  record : ∀ id b, IsSpace s id b → (s.aspaces b).objectId = id ∧
    (s.aspaces b).rootPhys.toNat % 4096 = 0
  roots : ∀ id b id' b', IsSpace s id b → IsSpace s id' b' →
    (s.aspaces b).rootPhys = (s.aspaces b').rootPhys → id = id'
  caps : ∀ k, IsSpaceCap s k → (s.caps.entry k).rights = spaceRights ∧ s.caps.Sole k ∧
    ∃ b, IsSpace s (s.caps.entry k).objectId b
  mapped : ∀ k b, IsSpaceCap s k → IsSpace s (s.caps.entry k).objectId b → ∀ page, UserPage page →
    lookupEntry s.vmm.tables (s.aspaces b).rootPhys page =
      expectedEntry (lastMap log (s.caps.token k) page)
  silent : ∀ aspaceCap page paddr flags, lastMap log aspaceCap page = some (paddr, flags) →
    validateUserPage page = .ok () ∧ FrameOk paddr ∧ ∃ k b, IsSpaceCap s k ∧
      aspaceCap = s.caps.token k ∧ IsSpace s (s.caps.entry k).objectId b ∧ (s.aspaces b).rootPhys ≠ 0

theorem IsSpace.unique {s : SpaceWorld} {id : UInt64} {b b' : Nat} (h : IsSpace s id b)
    (h' : IsSpace s id b') : b = b' := by
  obtain ⟨ob, hob, _, hpay⟩ := h
  obtain ⟨ob', hob', _, hpay'⟩ := h'
  obtain rfl := Except.ok.inj (hob.symm.trans hob')
  rw [hpay] at hpay'
  exact Payload.addressSpace.inj hpay'

/-- Which record a lookup finds: that of the space the token is for. -/
theorem lookupAspace_eq_ok {log : SpaceLog} {s : SpaceWorld} (h : SpaceInv log s)
    {aspaceCap rights : UInt64} {b : Nat}
    (hl : lookupAspace s.objects s.caps s.aspaces aspaceCap rights = .ok b) :
    ∃ k, IsSpaceCap s k ∧ aspaceCap = s.caps.token k ∧ IsSpace s (s.caps.entry k).objectId b ∧
      (s.aspaces b).rootPhys ≠ 0 := by
  unfold lookupAspace at hl
  split at hl
  · cases hl
  · next entry hcheck =>
    split at hl
    · cases hl
    · next object hob =>
      split at hl
      · next b' hpay =>
        split at hl
        · cases hl
        · next hrec =>
          obtain rfl := Except.ok.inj hl
          rw [not_or] at hrec
          obtain ⟨_, k, hocc, rfl, rfl, htype, _⟩ := (capCheck_eq_ok h.wf).mp hcheck
          have htype' : (s.caps.entry k).objectType = ObjType.addressSpace := by
            rcases htype with hnone | htype
            · exact absurd hnone (by decide)
            · exact htype
          obtain ⟨ob, hob', _, _, hobtype⟩ := h.wf.object k hocc
          obtain rfl := Except.ok.inj (hob.symm.trans hob')
          exact ⟨k, ⟨hocc, htype'⟩, rfl, ⟨object, hob, hobtype.trans htype', hpay⟩, hrec.2⟩
      · cases hl

/-- A token of a space leads to its record, whatever the code asks for. -/
theorem lookupAspace_of_cap {log : SpaceLog} {s : SpaceWorld} (h : SpaceInv log s) {k : Fin maxCaps}
    {b : Nat} (hk : IsSpaceCap s k) (hb : IsSpace s (s.caps.entry k).objectId b)
    (hroot : (s.aspaces b).rootPhys ≠ 0) (rights : UInt64) (h0 : rights ≠ 0)
    (hr : spaceRights &&& rights = rights) :
    lookupAspace s.objects s.caps s.aspaces (s.caps.token k) rights = .ok b := by
  have hcheck : capCheck s.objects s.caps (s.caps.token k) rights ObjType.addressSpace =
      .ok (s.caps.entry k) := by
    rw [capCheck_eq_ok h.wf]
    refine ⟨h0, k, hk.1, rfl, rfl, .inr hk.2, ?_⟩
    rw [(h.caps k hk).1]
    exact hr
  have hrec := (h.record _ b hb).1
  obtain ⟨ob, hob, _, hpay⟩ := hb
  unfold lookupAspace
  rw [hcheck]
  dsimp only
  rw [hob]
  dsimp only
  rw [hpay]
  simp [hrec, hroot]

/-- Pages the code accepts are user pages. -/
theorem userPage_of_validate {page : UInt64} (h : validateUserPage page = .ok ()) :
    UserPage page := by
  unfold validateUserPage at h
  split at h
  · cases h
  · next halign =>
    split at h
    · cases h
    · next hrange =>
      rw [Bool.not_eq_false] at halign
      rw [not_or] at hrange
      refine ⟨(isPageAligned_iff page).mp halign, ?_⟩
      have hle := UInt64.not_lt.mp hrange.2
      rw [UInt64.le_iff_toNat_le] at hle
      have htop : (userVirtTop - 4096).toNat = 2 ^ 47 - 4096 := by decide
      omega

/-! ## Translations -/

theorem or_offset_eq_add {paddr : UInt64} (hp : FrameOk paddr) (vaddr : UInt64) :
    paddr ||| (vaddr &&& 0xfff) = paddr + vaddr % 4096 := by
  have hoff : (vaddr &&& 0xfff).toNat = vaddr.toNat % 4096 := by
    rw [UInt64.toNat_and]
    exact Nat.and_two_pow_sub_one_eq_mod _ 12
  have hmod : (vaddr % 4096).toNat = vaddr.toNat % 4096 := UInt64.toNat_mod ..
  have hbound := hp.2
  apply UInt64.toNat_inj.mp
  rw [toNat_or_low hp.1 (by omega), UInt64.toNat_add, hoff, hmod]
  omega

/-- A translation, when the token and the page are what the code expects. -/
theorem SpaceInv.translate_eq {log : SpaceLog} {s : SpaceWorld} (h : SpaceInv log s)
    {k : Fin maxCaps} {b : Nat} (hk : IsSpaceCap s k) (hb : IsSpace s (s.caps.entry k).objectId b)
    (hroot : (s.aspaces b).rootPhys ≠ 0) {vaddr : UInt64}
    (hvalid : validateUserPage (vaddr &&& ~~~0xfff) = .ok ()) :
    translate s (s.caps.token k) vaddr =
      match expectedEntry (lastMap log (s.caps.token k) (vaddr &&& ~~~0xfff)) with
      | .error e => .error e
      | .ok entry => .ok ((entry &&& Pte.addr) ||| (vaddr &&& 0xfff), entryFlags entry) := by
  have hlookup := lookupAspace_of_cap h hk hb hroot Right.read (by decide) (by decide)
  have hpage := userPage_of_validate hvalid
  have hlt : vaddr.toNat < 2 ^ 47 := by
    have hlt := hpage.2
    rw [toNat_pageOf] at hlt
    omega
  unfold translate addressSpaceTranslate
  rw [hlookup, hvalid]
  dsimp only
  have hmapped := h.mapped k b hk hb _ hpage
  rw [vmmVirtToPhysInRoot_eq h.initialized ⟨hroot, (h.record _ b hb).2⟩ hlt, ← lookupEntry_pageOf]
  cases hexpected : expectedEntry (lastMap log (s.caps.token k) (vaddr &&& ~~~0xfff)) with
  | error e => rw [hmapped, hexpected]
  | ok entry => rw [hmapped, hexpected]

/-- Translations follow the last successful mapping or unmapping of the page. -/
theorem SpaceInv.translate_iff {log : SpaceLog} {s : SpaceWorld} (h : SpaceInv log s)
    (aspaceCap vaddr phys f : UInt64) :
    translate s aspaceCap vaddr = .ok (phys, f) ↔
      ∃ paddr flags, lastMap log aspaceCap (vaddr &&& ~~~0xfff) = some (paddr, flags) ∧
        phys = paddr + vaddr % 4096 ∧ f = vmmMapUser ||| flags &&& vmmMapWrite := by
  -- Reading a leaf back gives the page and the flags it was mapped with.
  have hdecode : ∀ paddr flags, FrameOk paddr →
      (leafEntry paddr (flags ||| vmmMapUser) &&& Pte.addr ||| vaddr &&& 0xfff,
        entryFlags (leafEntry paddr (flags ||| vmmMapUser))) =
      (paddr + vaddr % 4096, vmmMapUser ||| flags &&& vmmMapWrite) := by
    intro paddr flags hp
    obtain ⟨haddr, _, hflags, _⟩ := leafEntry_bits hp flags
    rw [haddr, hflags, or_offset_eq_add hp]
  constructor
  · intro htr
    have htr' := htr
    unfold translate addressSpaceTranslate at htr
    split at htr
    · cases htr
    · next b hl =>
      split at htr
      · cases htr
      · next hvalid =>
        obtain ⟨k, hk, rfl, hb, hroot⟩ := lookupAspace_eq_ok h hl
        rw [h.translate_eq hk hb hroot hvalid] at htr'
        cases hlast : lastMap log (s.caps.token k) (vaddr &&& ~~~0xfff) with
        | none =>
          rw [hlast] at htr'
          cases htr'
        | some m =>
          obtain ⟨paddr, flags⟩ := m
          obtain ⟨_, hp, _⟩ := h.silent _ _ _ _ hlast
          rw [hlast] at htr'
          have hpair := Except.ok.inj htr'
          rw [hdecode paddr flags hp] at hpair
          obtain ⟨rfl, rfl⟩ := Prod.mk.inj hpair
          exact ⟨paddr, flags, rfl, rfl, rfl⟩
  · intro hlast
    obtain ⟨paddr, flags, hlast, rfl, rfl⟩ := hlast
    obtain ⟨hvalid, hp, k, b, hk, rfl, hb, hroot⟩ := h.silent _ _ _ _ hlast
    rw [h.translate_eq hk hb hroot hvalid, hlast]
    show Except.ok _ = Except.ok _
    rw [hdecode paddr flags hp]

/-! ## Steps -/

theorem spaceInv_init {s : SpaceWorld} (h : spaceSystem.init s) : SpaceInv [] s := by
  obtain ⟨hwf, hinit, hnone⟩ := h
  have hspace : ∀ id b, ¬ IsSpace s id b := by
    intro id b hb
    obtain ⟨object, hob, htype, _⟩ := hb
    exact hnone id object hob htype
  have hroot : ∀ r, ¬ SpaceRoot s r := by
    intro r hr
    obtain ⟨id, b, hb, _⟩ := hr
    exact hspace id b hb
  refine ⟨hwf, hinit, ⟨?_, ?_, ?_, ?_⟩, ?_, ?_, ?_, ?_, ?_⟩
  · intro r r' p p' k hr
    exact absurd hr (hroot r)
  · intro r hr
    exact absurd hr (hroot r)
  · intro r p q f hr
    exact absurd hr (hroot r)
  · intro r p t i hr
    exact absurd hr (hroot r)
  · intro id b hb
    exact absurd hb (hspace id b)
  · intro id b id' b' hb
    exact absurd hb (hspace id b)
  · intro k hk
    obtain ⟨object, hob, _, _, htype⟩ := hwf.object k hk.1
    exact absurd (htype.trans hk.2) (hnone _ object hob)
  · intro k b _ hb
    exact absurd hb (hspace _ b)
  · intro aspaceCap page paddr flags hlast
    cases hlast

/-- Steps that change the page tables only. -/
theorem SpaceInv.vmm {log : SpaceLog} {s : SpaceWorld} (h : SpaceInv log s) {v' : Vmm}
    (hkept : VmmKept s.vmm v' (SpaceRoot s)) {ev : SpaceCall × SpaceAnswer}
    (hmapped : ∀ k b, IsSpaceCap s k → IsSpace s (s.caps.entry k).objectId b → ∀ page,
      UserPage page → lookupEntry v'.tables (s.aspaces b).rootPhys page =
        expectedEntry (lastMap (log ++ [ev]) (s.caps.token k) page))
    (hsilent : ∀ aspaceCap page paddr flags,
      lastMap (log ++ [ev]) aspaceCap page = some (paddr, flags) →
      lastMap log aspaceCap page = some (paddr, flags) ∨
        (validateUserPage page = .ok () ∧ FrameOk paddr ∧ ∃ k b, IsSpaceCap s k ∧
          aspaceCap = s.caps.token k ∧ IsSpace s (s.caps.entry k).objectId b ∧
          (s.aspaces b).rootPhys ≠ 0)) :
    SpaceInv (log ++ [ev]) { s with vmm := v' } where
  wf := h.wf
  initialized := hkept.initialized.trans h.initialized
  trees := hkept.wf
  record := h.record
  roots := h.roots
  caps := h.caps
  mapped := hmapped
  silent := by
    intro aspaceCap page paddr flags hlast
    rcases hsilent aspaceCap page paddr flags hlast with hold | hnew
    · exact h.silent aspaceCap page paddr flags hold
    · exact hnew

/-- Linking or copying tables that no lookup sees. -/
theorem SpaceInv.grown {log : SpaceLog} {s : SpaceWorld} (h : SpaceInv log s) {v' : Vmm}
    (hkept : VmmKept s.vmm v' (SpaceRoot s)) (hsame : SameLookups s.vmm v' (SpaceRoot s)) :
    SpaceInv log { s with vmm := v' } where
  wf := h.wf
  initialized := hkept.initialized.trans h.initialized
  trees := hkept.wf
  record := h.record
  roots := h.roots
  caps := h.caps
  mapped := by
    intro k b hk hb page hpage
    rw [← h.mapped k b hk hb page hpage]
    exact hsame _ page (.inl ⟨_, b, hb, rfl⟩)
  silent := h.silent

/-- An event that says nothing about a mapping. -/
theorem SpaceInv.event {log : SpaceLog} {s : SpaceWorld} (h : SpaceInv log s)
    {ev : SpaceCall × SpaceAnswer}
    (hev : ∀ aspaceCap page mapped, mapEvent aspaceCap page mapped ev = mapped) :
    SpaceInv (log ++ [ev]) s := by
  have hlast : ∀ aspaceCap page, lastMap (log ++ [ev]) aspaceCap page = lastMap log aspaceCap page := by
    intro aspaceCap page
    rw [lastMap_concat, hev]
  refine ⟨h.wf, h.initialized, h.trees, h.record, h.roots, h.caps, ?_, ?_⟩
  · intro k b hk hb page hpage
    rw [hlast]
    exact h.mapped k b hk hb page hpage
  · intro aspaceCap page paddr flags hnew
    rw [hlast] at hnew
    exact h.silent aspaceCap page paddr flags hnew

theorem mapEvent_error (call : SpaceCall) (e : Err) (aspaceCap page : UInt64)
    (mapped : Option (UInt64 × UInt64)) :
    mapEvent aspaceCap page mapped (call, .status (.error e)) = mapped := by
  cases call with
  | create _ _ => rfl
  | map _ _ _ _ _ => rfl
  | unmap _ _ => rfl

/-- Two user pages with the same indices are one page. -/
theorem UserPage.eq_of_indices {page page' : UInt64} (h : UserPage page) (h' : UserPage page')
    (hpath : tablePath page = tablePath page') (hpt : ptIndex page = ptIndex page') : page = page' := by
  have hdiv := page_eq_of_indices h.2 h'.2 hpath hpt
  have hmod := h.1
  have hmod' := h'.1
  apply UInt64.toNat_inj.mp
  omega

/-- Two tokens of spaces with one root are one token. -/
theorem SpaceInv.token_of_root {log : SpaceLog} {s : SpaceWorld} (h : SpaceInv log s)
    {k k' : Fin maxCaps} {b b' : Nat} (hk : IsSpaceCap s k) (hk' : IsSpaceCap s k')
    (hb : IsSpace s (s.caps.entry k).objectId b) (hb' : IsSpace s (s.caps.entry k').objectId b')
    (hroot : (s.aspaces b).rootPhys = (s.aspaces b').rootPhys) : k = k' := by
  have hid := h.roots _ b _ b' hb hb' hroot
  exact ((h.caps k hk).2.1 k' hk'.1 hid.symm).symm

/-- A step that changes the lookup of one page of one space, as the history
    says. -/
theorem SpaceInv.changed {log : SpaceLog} {s : SpaceWorld} (h : SpaceInv log s) {v' : Vmm}
    {k : Fin maxCaps} {b : Nat} {vaddr : UInt64} (hk : IsSpaceCap s k)
    (hb : IsSpace s (s.caps.entry k).objectId b) (hvalid : validateUserPage vaddr = .ok ())
    (hkept : VmmKept s.vmm v' (SpaceRoot s))
    (hother : OtherLookups s.vmm v' (SpaceRoot s) (s.aspaces b).rootPhys vaddr)
    {ev : SpaceCall × SpaceAnswer} {new : Option (UInt64 × UInt64)}
    (hev : ∀ aspaceCap page mapped, mapEvent aspaceCap page mapped ev =
      if s.caps.token k = aspaceCap ∧ vaddr = page then new else mapped)
    (hnew : lookupEntry v'.tables (s.aspaces b).rootPhys vaddr = expectedEntry new)
    (hframe : ∀ m ∈ new, FrameOk m.1 ∧ (s.aspaces b).rootPhys ≠ 0) :
    SpaceInv (log ++ [ev]) { s with vmm := v' } := by
  apply h.vmm hkept
  · intro k' b' hk' hb' page hpage
    rw [lastMap_concat, hev]
    split
    · next hsame =>
      obtain ⟨htoken, rfl⟩ := hsame
      obtain rfl := CapTable.token_injective htoken
      obtain rfl := hb.unique hb'
      exact hnew
    · next hdiff =>
      rw [← h.mapped k' b' hk' hb' page hpage]
      apply hother _ page (.inl ⟨_, b', hb', rfl⟩)
      intro hsame
      obtain ⟨hroot, hpath, hpt⟩ := hsame
      -- One root means one token, and equal indices mean one page.
      obtain rfl := h.token_of_root hk hk' hb hb' hroot.symm
      exact hdiff ⟨rfl, (hpage.eq_of_indices (userPage_of_validate hvalid) hpath hpt).symm⟩
  · intro aspaceCap page paddr flags hlast
    rw [lastMap_concat, hev] at hlast
    split at hlast
    · next hsame =>
      obtain ⟨rfl, rfl⟩ := hsame
      obtain ⟨hp, hroot⟩ := hframe _ hlast
      exact .inr ⟨hvalid, hp, k, b, hk, rfl, hb, hroot⟩
    · exact .inl hlast

/-- What mapping or unmapping the page `vaddr` of a space can do. -/
structure PageOutcome (s : SpaceWorld) (aspaceCap vaddr : UInt64) (new : Option (UInt64 × UInt64))
    (r : Except Err Unit) (v' : Vmm) : Prop where
  kept : VmmKept s.vmm v' (SpaceRoot s)
  failed : ∀ e, r = .error e → SameLookups s.vmm v' (SpaceRoot s)
  done : r = .ok () → ∃ k b, IsSpaceCap s k ∧ aspaceCap = s.caps.token k ∧
    IsSpace s (s.caps.entry k).objectId b ∧ (s.aspaces b).rootPhys ≠ 0 ∧
    validateUserPage vaddr = .ok () ∧ (∀ m ∈ new, FrameOk m.1) ∧
    lookupEntry v'.tables (s.aspaces b).rootPhys vaddr = expectedEntry new ∧
    OtherLookups s.vmm v' (SpaceRoot s) (s.aspaces b).rootPhys vaddr

theorem SpaceInv.refused {log : SpaceLog} {s : SpaceWorld} (h : SpaceInv log s)
    (aspaceCap vaddr : UInt64) (new : Option (UInt64 × UInt64)) (e : Err) :
    PageOutcome s aspaceCap vaddr new (.error e) s.vmm where
  kept := ⟨rfl, rfl, h.trees⟩
  failed := fun _ _ _ _ _ => rfl
  done := fun hok => by cases hok

theorem SpaceInv.map_outcome {log : SpaceLog} {s : SpaceWorld} (h : SpaceInv log s)
    {aspaceCap vaddr paddr flags : UInt64} {pages : PageSupply} (hlt : paddr.toNat < 2 ^ 52)
    (hpages : PagesFresh s.vmm.tables (SpaceRoot s) s.vmm.activeCr3Phys pages) :
    PageOutcome s aspaceCap vaddr (some (paddr, flags))
      (addressSpaceMap s.objects s.caps s.aspaces s.vmm pages aspaceCap vaddr paddr flags).1
      (addressSpaceMap s.objects s.caps s.aspaces s.vmm pages aspaceCap vaddr paddr flags).2 := by
  unfold addressSpaceMap
  split
  · exact h.refused _ _ _ _
  · next b hl =>
    split
    · exact h.refused _ _ _ _
    · next hvalid =>
      split
      · exact h.refused _ _ _ _
      · next halign =>
        obtain ⟨k, hk, rfl, hb, hroot⟩ := lookupAspace_eq_ok h hl
        have hp : FrameOk paddr := by
          rw [Bool.not_eq_false] at halign
          exact ⟨(isPageAligned_iff paddr).mp halign, hlt⟩
        -- The checks have passed; only the tables can still refuse the page.
        rcases vmmMapPageInRoot_cases h.initialized h.trees ⟨_, b, hb, rfl⟩
            ⟨hroot, (h.record _ b hb).2⟩ (userPage_of_validate hvalid) paddr (user_flag_set flags)
            hpages with
          ⟨e, v', heq, hkept, hsame⟩ | ⟨v', heq, hkept, _, hentry, hother⟩
        · rw [heq]
          exact ⟨hkept, fun _ _ => hsame, fun hok => by cases hok⟩
        · rw [heq]
          refine ⟨hkept, fun e he => (by cases he), fun _ => ?_⟩
          rw [if_neg (leafEntry_bits hp flags).2.1] at hentry
          refine ⟨k, b, hk, rfl, hb, hroot, hvalid, ?_, hentry, hother⟩
          intro m hm
          obtain rfl := Option.mem_some_iff.mp hm
          exact hp

theorem SpaceInv.unmap_outcome {log : SpaceLog} {s : SpaceWorld} (h : SpaceInv log s)
    (aspaceCap vaddr : UInt64) :
    PageOutcome s aspaceCap vaddr none
      (addressSpaceUnmap s.objects s.caps s.aspaces s.vmm aspaceCap vaddr).1
      (addressSpaceUnmap s.objects s.caps s.aspaces s.vmm aspaceCap vaddr).2 := by
  unfold addressSpaceUnmap
  split
  · exact h.refused _ _ _ _
  · next b hl =>
    split
    · exact h.refused _ _ _ _
    · next hvalid =>
      obtain ⟨k, hk, rfl, hb, hroot⟩ := lookupAspace_eq_ok h hl
      rcases vmmUnmapPageInRoot_cases h.initialized h.trees ⟨_, b, hb, rfl⟩
          ⟨hroot, (h.record _ b hb).2⟩ (userPage_of_validate hvalid) with
        ⟨e, v', heq, hkept, hsame⟩ | ⟨v', heq, hkept, hentry, hother⟩
      · rw [heq]
        exact ⟨hkept, fun _ _ => hsame, fun hok => by cases hok⟩
      · rw [heq]
        refine ⟨hkept, fun e he => (by cases he), fun _ => ?_⟩
        exact ⟨k, b, hk, rfl, hb, hroot, hvalid, fun m hm => (by cases hm), hentry, hother⟩

/-- The step lemma for mappings and unmappings. -/
theorem SpaceInv.outcome {log : SpaceLog} {s : SpaceWorld} (h : SpaceInv log s)
    {aspaceCap vaddr : UInt64} {new : Option (UInt64 × UInt64)} {r : Except Err Unit} {v' : Vmm}
    (hout : PageOutcome s aspaceCap vaddr new r v') {call : SpaceCall}
    (hcall : ∀ cap page mapped, mapEvent cap page mapped (call, .status (.ok ())) =
      if aspaceCap = cap ∧ vaddr = page then new else mapped) :
    SpaceInv (log ++ [(call, .status r)]) { s with vmm := v' } := by
  cases r with
  | error e => exact (h.grown hout.kept (hout.failed e rfl)).event (mapEvent_error call e)
  | ok u =>
    obtain ⟨k, b, hk, rfl, hb, hroot, hvalid, hframe, hentry, hother⟩ := hout.done rfl
    exact h.changed hk hb hvalid hout.kept hother hcall hentry fun m hm => ⟨hframe m hm, hroot⟩

/-! ### Creation -/

/-- Writing a record in a block that holds none. -/
theorem SpaceInv.storage {log : SpaceLog} {s : SpaceWorld} (h : SpaceInv log s) {b : Nat}
    (hb : ∀ id, ¬ IsSpace s id b) (record : AddressSpace) :
    SpaceInv log { s with aspaces := Function.update s.aspaces b record } := by
  -- No address space is in this record, so none of them changes.
  have hkeep : ∀ id b', IsSpace s id b' → Function.update s.aspaces b record b' = s.aspaces b' := by
    intro id b' hb'
    apply Function.update_of_ne
    intro heq
    rw [heq] at hb'
    exact hb id hb'
  have hroots : SpaceRoot { s with aspaces := Function.update s.aspaces b record } = SpaceRoot s := by
    funext r
    apply propext
    constructor
    · intro hr
      obtain ⟨id, b', hb', hr⟩ := hr
      exact ⟨id, b', hb', (congrArg AddressSpace.rootPhys (hkeep id b' hb')).symm.trans hr⟩
    · intro hr
      obtain ⟨id, b', hb', hr⟩ := hr
      exact ⟨id, b', hb', (congrArg AddressSpace.rootPhys (hkeep id b' hb')).trans hr⟩
  refine ⟨h.wf, h.initialized, ?_, ?_, ?_, h.caps, ?_, ?_⟩
  · rw [hroots]
    exact h.trees
  · intro id b' hb'
    dsimp only
    rw [hkeep id b' hb']
    exact h.record id b' hb'
  · intro id b' id' b'' hb' hb'' heq
    dsimp only at heq
    rw [hkeep id b' hb', hkeep id' b'' hb''] at heq
    exact h.roots id b' id' b'' hb' hb'' heq
  · intro k b' hk hb' page hpage
    dsimp only
    rw [hkeep _ b' hb']
    exact h.mapped k b' hk hb' page hpage
  · intro aspaceCap page paddr flags hlast
    obtain ⟨hvalid, hp, k, b', hk, htoken, hb', hroot⟩ := h.silent aspaceCap page paddr flags hlast
    refine ⟨hvalid, hp, k, b', hk, htoken, hb', ?_⟩
    dsimp only
    rw [hkeep _ b' hb']
    exact hroot

section creation

variable {log : SpaceLog} {s : SpaceWorld} {b : Nat} {f objectId : UInt64} {o' : ObjectTable}

/-- After a new address-space object, the spaces are the old ones and it. -/
theorem isSpace_objectCreate {aspaces : AddressSpaces} {v' : Vmm} (hwf : s.objects.Wf)
    (hc : objectCreate s.objects ObjType.addressSpace bootCore 0 (.addressSpace b) =
      (.ok objectId, o')) {id : UInt64} {b' : Nat} :
    IsSpace ⟨o', s.caps, aspaces, v'⟩ id b' ↔ IsSpace s id b' ∨ (id = objectId ∧ b' = b) := by
  obtain ⟨g, hnew⟩ := objectLookup_of_objectCreate hwf hc
  constructor
  · intro hb'
    obtain ⟨object, hob, htype, hpay⟩ := hb'
    rcases objectLookup_objectCreate_cases hwf hc hob with rfl | hold
    · obtain rfl := Except.ok.inj (hob.symm.trans hnew)
      exact .inr ⟨rfl, (Payload.addressSpace.inj hpay).symm⟩
    · exact .inl ⟨object, hold, htype, hpay⟩
  · intro hb'
    rcases hb' with hb' | ⟨rfl, rfl⟩
    · obtain ⟨object, hob, htype, hpay⟩ := hb'
      have hkeep := objectLookup_objectCreate hwf hob ObjType.addressSpace bootCore 0 (.addressSpace b)
      rw [hc] at hkeep
      exact ⟨object, hkeep, htype, hpay⟩
    · exact ⟨_, hnew, rfl, rfl⟩

/-- A new address-space object over a fresh root, before a token is minted. -/
theorem SpaceInv.newSpace (h : SpaceInv log s) (hb : ∀ id, ¬ IsSpace s id b) {v' : Vmm}
    (hfresh : FreshTable s.vmm.tables (SpaceRoot s) s.vmm.activeCr3Phys f)
    (hkept : VmmKept s.vmm v' (fun r => SpaceRoot s r ∨ r = f))
    (hsame : SameLookups s.vmm v' (SpaceRoot s))
    (hc : objectCreate s.objects ObjType.addressSpace bootCore 0 (.addressSpace b) =
      (.ok objectId, o')) :
    SpaceInv log
      ⟨o', s.caps, Function.update s.aspaces b ⟨objectId, f, bootCore, 0⟩, v'⟩ := by
  have hiff : ∀ {id b'}, IsSpace ⟨o', s.caps, Function.update s.aspaces b
      ⟨objectId, f, bootCore, 0⟩, v'⟩ id b' ↔ IsSpace s id b' ∨ (id = objectId ∧ b' = b) :=
    isSpace_objectCreate h.wf.objects hc
  have hkeep : ∀ id b', IsSpace s id b' →
      Function.update s.aspaces b ⟨objectId, f, bootCore, 0⟩ b' = s.aspaces b' := by
    intro id b' hb'
    apply Function.update_of_ne
    intro heq
    rw [heq] at hb'
    exact hb id hb'
  have hnewroot : ∀ id b', IsSpace s id b' → (s.aspaces b').rootPhys ≠ f := by
    intro id b' hb' heq
    exact hfresh.unreached f [] (.inl ⟨id, b', hb', heq⟩) (Nat.zero_le _) rfl
  refine ⟨?_, hkept.initialized.trans h.initialized, ?_, ?_, ?_, ?_, ?_, ?_⟩
  · have hwf := tablesWf_objectCreate h.wf ObjType.addressSpace bootCore 0 (.addressSpace b)
    rw [hc] at hwf
    exact hwf
  · apply hkept.wf.mono
    intro r hr
    obtain ⟨id, b', hb', hr⟩ := hr
    dsimp only at hr
    rcases hiff.mp hb' with hold | ⟨_, rfl⟩
    · rw [hkeep id b' hold] at hr
      exact .inl ⟨id, b', hold, hr⟩
    · rw [Function.update_self] at hr
      exact .inr hr.symm
  · intro id b' hb'
    dsimp only
    rcases hiff.mp hb' with hold | ⟨rfl, rfl⟩
    · rw [hkeep id b' hold]
      exact h.record id b' hold
    · rw [Function.update_self]
      exact ⟨rfl, hfresh.ok.1⟩
  · intro id₁ b₁ id₂ b₂ hb₁ hb₂ heq
    dsimp only at heq
    rcases hiff.mp hb₁ with hold₁ | ⟨rfl, rfl⟩
    · rw [hkeep id₁ b₁ hold₁] at heq
      rcases hiff.mp hb₂ with hold₂ | ⟨rfl, rfl⟩
      · rw [hkeep id₂ b₂ hold₂] at heq
        exact h.roots id₁ b₁ id₂ b₂ hold₁ hold₂ heq
      · rw [Function.update_self] at heq
        exact absurd heq (hnewroot id₁ b₁ hold₁)
    · rw [Function.update_self] at heq
      rcases hiff.mp hb₂ with hold₂ | ⟨rfl, rfl⟩
      · rw [hkeep id₂ b₂ hold₂] at heq
        exact absurd heq.symm (hnewroot id₂ b₂ hold₂)
      · rfl
  · intro k hk
    obtain ⟨hrights, hsole, b', hb'⟩ := h.caps k hk
    exact ⟨hrights, hsole, b', hiff.mpr (.inl hb')⟩
  · intro k b' hk hb' page hpage
    obtain ⟨_, _, b₀, hb₀⟩ := h.caps k hk
    -- The object of a token existed before, so its block is the old one.
    obtain rfl := hb'.unique (hiff.mpr (.inl hb₀))
    dsimp only
    rw [hkeep _ _ hb₀, ← h.mapped k _ hk hb₀ page hpage]
    exact hsame _ page (.inl ⟨_, _, hb₀, rfl⟩)
  · intro aspaceCap page paddr flags hlast
    obtain ⟨hvalid, hp, k, b', hk, htoken, hb', hroot⟩ := h.silent aspaceCap page paddr flags hlast
    refine ⟨hvalid, hp, k, b', hk, htoken, hiff.mpr (.inl hb'), ?_⟩
    dsimp only
    rw [hkeep _ b' hb']
    exact hroot

/-- Minting the token of a space that has none yet and maps no page. -/
theorem SpaceInv.mintSpace (h : SpaceInv log s) (hspace : IsSpace s objectId b)
    (hnone : ∀ j, s.caps.occupied j = true → (s.caps.entry j).objectId ≠ objectId)
    (hempty : ∀ virt : UInt64, virt.toNat < 2 ^ 47 →
      lookupEntry s.vmm.tables (s.aspaces b).rootPhys virt = .error .noent)
    {i : Fin maxCaps} {object : Object} (hob : objectLookup s.objects objectId = .ok object)
    (hfree : s.caps.occupied i = false) :
    SpaceInv log { s with caps := s.caps.mintSlot i object spaceRights } := by
  obtain ⟨object', hob', htype, hpay⟩ := hspace
  obtain rfl := Except.ok.inj (hob'.symm.trans hob)
  have hid : object'.id = objectId := by
    obtain ⟨_, _, _, hid⟩ := (objectLookup_eq_ok h.wf.objects).mp hob
    exact hid
  have hold : ∀ k, k ≠ i → IsSpaceCap { s with caps := s.caps.mintSlot i object' spaceRights } k →
      IsSpaceCap s k := by
    intro k hki hk
    obtain ⟨hocc, htype⟩ := hk
    rw [CapTable.mintSlot_occupied_ne _ _ _ _ hki] at hocc
    rw [CapTable.mintSlot_entry_ne _ _ _ _ hki] at htype
    exact ⟨hocc, htype⟩
  refine ⟨tablesWf_mintSlot h.wf i (by decide) hob, h.initialized, h.trees, h.record, h.roots,
    ?_, ?_, ?_⟩
  · intro k hk
    dsimp only
    by_cases hki : k = i
    · subst hki
      rw [CapTable.mintSlot_entry_self]
      have hsole := CapTable.sole_mintSlot_of_none (hid ▸ hnone) k spaceRights
      exact ⟨rfl, hsole, b, object', (congrArg _ hid).trans hob, htype, hpay⟩
    · have hk' := hold k hki hk
      obtain ⟨hrights, hsole, hb'⟩ := h.caps k hk'
      rw [CapTable.mintSlot_entry_ne _ _ _ _ hki]
      refine ⟨hrights, hsole.mintSlot hki ?_ _, hb'⟩
      rw [hid]
      exact (hnone k hk'.1).symm
  · intro k b' hk hb' page hpage
    dsimp only at hb' ⊢
    by_cases hki : k = i
    · subst hki
      rw [CapTable.mintSlot_entry_self] at hb'
      obtain rfl := hb'.unique (show IsSpace s _ b from
        ⟨object', (congrArg _ hid).trans hob, htype, hpay⟩)
      rw [hempty page hpage.2]
      -- The new token is in no mapping of the history: its slot was free.
      cases hlast : lastMap log ((s.caps.mintSlot k object' spaceRights).token k) page with
      | none => rfl
      | some m =>
        obtain ⟨_, _, k', _, hk', htoken, _⟩ := h.silent _ _ _ _ hlast
        obtain rfl := CapTable.token_injective htoken
        have hocc := hk'.1
        rw [hfree] at hocc
        cases hocc
    · rw [CapTable.mintSlot_entry_ne _ _ _ _ hki] at hb'
      rw [CapTable.mintSlot_token_ne _ _ _ _ hki]
      exact h.mapped k b' (hold k hki hk) hb' page hpage
  · intro aspaceCap page paddr flags hlast
    obtain ⟨hvalid, hp, k, b', hk, htoken, hb', hroot⟩ := h.silent aspaceCap page paddr flags hlast
    have hki : k ≠ i := by
      intro heq
      have hocc := hk.1
      rw [heq, hfree] at hocc
      cases hocc
    refine ⟨hvalid, hp, k, b', ⟨?_, ?_⟩, ?_, ?_, hroot⟩
    · exact (CapTable.mintSlot_occupied_ne _ _ _ _ hki).trans hk.1
    · dsimp only
      rw [CapTable.mintSlot_entry_ne _ _ _ _ hki]
      exact hk.2
    · exact htoken.trans (CapTable.mintSlot_token_ne _ _ _ _ hki).symm
    · dsimp only
      rw [CapTable.mintSlot_entry_ne _ _ _ _ hki]
      exact hb'

theorem SpaceInv.create (h : SpaceInv log s) {storage : Option Nat} {pages : PageSupply}
    (hguard : SpaceGuard s (.create storage pages)) :
    SpaceInv (log ++ [(.create storage pages, (spaceStep s (.create storage pages)).1)])
      (spaceStep s (.create storage pages)).2 := by
  apply SpaceInv.event _ (fun _ _ _ => rfl)
  obtain ⟨hstorage, hpages⟩ := hguard
  unfold spaceStep addressSpaceCreate
  cases storage with
  | none => exact h
  | some b =>
    have hb := hstorage b rfl
    -- The record is cleared first, whatever fails after it.
    have hzero := h.storage hb ⟨0, 0, 0, 0⟩
    rcases vmmCreateRoot_cases h.initialized h.trees hpages with
      ⟨e, heq⟩ | ⟨f, v', heq, hfresh, hkept, hsame, hempty⟩
    · simp only [heq]
      exact hzero
    simp only [heq]
    rcases objectCreate_cases s.objects ObjType.addressSpace bootCore 0 (.addressSpace b) with
      ⟨e, hc⟩ | ⟨_, objectId, _, _, _, hc⟩
    · simp only [hc]
      have hkept' : VmmKept s.vmm v' (SpaceRoot s) :=
        ⟨hkept.active, hkept.initialized, hkept.trees.mono fun r hr => .inl hr⟩
      exact (h.grown hkept' hsame).storage hb ⟨0, 0, 0, 0⟩
    obtain ⟨o', hc⟩ : ∃ o', objectCreate s.objects ObjType.addressSpace bootCore 0 (.addressSpace b) =
        (.ok objectId, o') := ⟨_, hc⟩
    have hnew := h.newSpace hb hfresh hkept hsame hc
    simp only [hc, Function.update_idem]
    rcases capCreate_cases o' s.caps objectId spaceRights with
      ⟨e, hcap⟩ | ⟨i, object, _, hob, hfree, hcap⟩
    · simp only [hcap]
      exact hnew
    · simp only [hcap]
      -- The object is new, so no capability is for it yet.
      have hnone : ∀ j, s.caps.occupied j = true → (s.caps.entry j).objectId ≠ objectId :=
        fun j hj => h.wf.objectId_ne (objectLookup_fresh h.wf.objects hc) hj
      apply hnew.mintSpace ((isSpace_objectCreate h.wf.objects hc).mpr (.inr ⟨rfl, rfl⟩)) hnone _
        hob hfree
      simpa only [Function.update_self] using hempty

end creation

/-- The step lemma. -/
theorem spaceInv_step {log : SpaceLog} {s : SpaceWorld} (h : SpaceInv log s) (call : SpaceCall)
    (hguard : SpaceGuard s call) :
    SpaceInv (log ++ [(call, (spaceStep s call).1)]) (spaceStep s call).2 := by
  cases call with
  | create storage pages => exact h.create hguard
  | map aspaceCap vaddr paddr flags pages =>
    exact h.outcome (h.map_outcome hguard.1 hguard.2) fun _ _ _ => rfl
  | unmap aspaceCap vaddr => exact h.outcome (h.unmap_outcome aspaceCap vaddr) fun _ _ _ => rfl

/-- The run lemma. -/
theorem spaceInv_run {log : SpaceLog} {s : SpaceWorld}
    (h : spaceSystem.RunWhen SpaceGuard log s) : SpaceInv log s := by
  induction h with
  | init hinit => exact spaceInv_init hinit
  | step call _ hguard ih => exact spaceInv_step ih call hguard

/-! ## The refinement theorem -/

/-- The space and the page that a mapping or an unmapping is about. -/
def SpaceCall.target : SpaceCall → Option (UInt64 × UInt64)
  | .create _ _ => none
  | .map aspaceCap vaddr _ _ _ => some (aspaceCap, vaddr)
  | .unmap aspaceCap vaddr => some (aspaceCap, vaddr)

/-- What a call with a target does, as an outcome. -/
theorem SpaceInv.target_outcome {log : SpaceLog} {s : SpaceWorld} (h : SpaceInv log s)
    {call : SpaceCall} {aspaceCap vaddr : UInt64} (htarget : call.target = some (aspaceCap, vaddr))
    (hguard : SpaceGuard s call) :
    ∃ new r v', spaceStep s call = (.status r, { s with vmm := v' }) ∧
      PageOutcome s aspaceCap vaddr new r v' := by
  cases call with
  | create storage pages => cases htarget
  | map cap page paddr flags pages =>
    obtain ⟨rfl, rfl⟩ := Prod.mk.inj (Option.some.inj htarget)
    exact ⟨_, _, _, rfl, h.map_outcome hguard.1 hguard.2⟩
  | unmap cap page =>
    obtain ⟨rfl, rfl⟩ := Prod.mk.inj (Option.some.inj htarget)
    exact ⟨_, _, _, rfl, h.unmap_outcome cap page⟩

/-- A translation is kept when the lookup it makes is. -/
theorem SpaceInv.translate_kept {log : SpaceLog} {s : SpaceWorld} (h : SpaceInv log s) {v' : Vmm}
    (hkept : VmmKept s.vmm v' (SpaceRoot s)) {cap virt : UInt64}
    (hl : ∀ k b, IsSpaceCap s k → cap = s.caps.token k → IsSpace s (s.caps.entry k).objectId b →
      validateUserPage (virt &&& ~~~0xfff) = .ok () →
      lookupEntry v'.tables (s.aspaces b).rootPhys virt =
        lookupEntry s.vmm.tables (s.aspaces b).rootPhys virt) :
    translate { s with vmm := v' } cap virt = translate s cap virt := by
  unfold translate addressSpaceTranslate
  dsimp only
  cases hlookup : lookupAspace s.objects s.caps s.aspaces cap Right.read with
  | error e => rfl
  | ok b =>
    dsimp only
    cases hvalid : validateUserPage (virt &&& ~~~0xfff) with
    | error e => rfl
    | ok u =>
      obtain ⟨k, hk, htoken, hb, _⟩ := lookupAspace_eq_ok h hlookup
      exact vmmVirtToPhysInRoot_congr hkept.initialized (hl k b hk htoken hb hvalid)

/-- A failed call changes no translation, through a token or in a root. -/
theorem SpaceInv.frame_failed {log : SpaceLog} {s : SpaceWorld} (h : SpaceInv log s) {v' : Vmm}
    (hkept : VmmKept s.vmm v' (SpaceRoot s)) (hsame : SameLookups s.vmm v' (SpaceRoot s)) :
    (∀ cap virt, translate { s with vmm := v' } cap virt = translate s cap virt) ∧
      ∀ r virt, SpaceRoot s r ∨ r = s.vmm.activeCr3Phys →
        vmmVirtToPhysInRoot v' r virt = vmmVirtToPhysInRoot s.vmm r virt := by
  constructor
  · intro cap virt
    apply h.translate_kept hkept
    intro k b _ _ hb _
    exact hsame _ virt (.inl ⟨_, b, hb, rfl⟩)
  · intro r virt hr
    exact vmmVirtToPhysInRoot_congr hkept.initialized (hsame r virt hr)

/-- A successful call changes the translations of its page only. -/
theorem SpaceInv.frame_done {log : SpaceLog} {s : SpaceWorld} (h : SpaceInv log s)
    {aspaceCap vaddr : UInt64} {new : Option (UInt64 × UInt64)} {v' : Vmm}
    (hout : PageOutcome s aspaceCap vaddr new (.ok ()) v') :
    (∀ cap virt, ¬ (cap = aspaceCap ∧ virt &&& ~~~0xfff = vaddr) →
        translate { s with vmm := v' } cap virt = translate s cap virt) ∧
      ∃ b, lookupAspace s.objects s.caps s.aspaces aspaceCap Right.read = .ok b ∧
        ∀ r virt, SpaceRoot s r ∨ r = s.vmm.activeCr3Phys → r ≠ (s.aspaces b).rootPhys →
          vmmVirtToPhysInRoot v' r virt = vmmVirtToPhysInRoot s.vmm r virt := by
  obtain ⟨k, b, hk, rfl, hb, hroot, hvalid, _, _, hother⟩ := hout.done rfl
  refine ⟨?_, b, lookupAspace_of_cap h hk hb hroot _ (by decide) (by decide), ?_⟩
  · intro cap virt hne
    apply h.translate_kept hout.kept
    intro k' b' hk' htoken hb' hvalid'
    rw [← lookupEntry_pageOf v'.tables, ← lookupEntry_pageOf s.vmm.tables]
    apply hother _ _ (.inl ⟨_, b', hb', rfl⟩)
    intro hsame
    obtain ⟨hroot', hpath, hpt⟩ := hsame
    obtain rfl := h.token_of_root hk' hk hb' hb hroot'
    have hpage := userPage_of_validate hvalid
    exact hne ⟨htoken, (userPage_of_validate hvalid').eq_of_indices hpage hpath hpt⟩
  · intro r virt hr hne
    apply vmmVirtToPhysInRoot_congr hout.kept.initialized
    apply hother r virt hr
    intro hsame
    exact hne hsame.1

/-- The processor grants what the translation reports. -/
theorem SpaceInv.hw_translate {log : SpaceLog} {s : SpaceWorld} (h : SpaceInv log s)
    {cap virt phys f : UInt64} (htr : translate s cap virt = .ok (phys, f)) :
    ∃ b, lookupAspace s.objects s.caps s.aspaces cap Right.read = .ok b ∧
      hwTranslate s.vmm.tables (s.aspaces b).rootPhys virt =
        some ⟨phys, f &&& vmmMapUser ≠ 0, f &&& vmmMapWrite ≠ 0⟩ := by
  obtain ⟨paddr, flags, hlast, rfl, rfl⟩ := (h.translate_iff cap virt phys f).mp htr
  obtain ⟨hvalid, hp, k, b, hk, rfl, hb, hroot⟩ := h.silent _ _ _ _ hlast
  refine ⟨b, lookupAspace_of_cap h hk hb hroot _ (by decide) (by decide), ?_⟩
  have hpage := userPage_of_validate hvalid
  have hlt : virt.toNat < 2 ^ 47 := by
    have hlt := hpage.2
    rw [toNat_pageOf] at hlt
    omega
  have hentry := h.mapped k b hk hb _ hpage
  rw [lookupEntry_pageOf, hlast] at hentry
  rw [h.trees.hwTranslate ⟨_, b, hb, rfl⟩ hlt hentry]
  obtain ⟨haddr, _, _, huser, hwrite⟩ := leafEntry_bits hp flags
  rw [haddr, or_offset_eq_add hp]
  have hf : ∀ w : UInt64, w = 0 ∨ w = 1 → ((vmmMapUser ||| w) &&& vmmMapUser ≠ 0) ∧
      (vmmMapUser ||| w) &&& vmmMapWrite = w := by
    intro w hw
    rcases hw with rfl | rfl
    · decide
    · decide
  obtain ⟨hfu, hfw⟩ := hf _ (and_vmmMapWrite_cases flags)
  rw [hfw, decide_eq_true huser, decide_eq_true hfu]
  simp only [hwrite]

/-- **Address-space refinement.**  In every state of every run, a translation
    succeeds exactly when the last successful mapping or unmapping of the page
    was a mapping, and reports it; the processor's walk grants the same access.
    A mapping or unmapping that fails changes no translation anywhere; one that
    succeeds changes its page of its space only, and nothing in another root. -/
theorem addressSpace_refines {log : SpaceLog} {s : SpaceWorld}
    (hrun : spaceSystem.RunWhen SpaceGuard log s) :
    (∀ cap virt phys f, translate s cap virt = .ok (phys, f) ↔
      ∃ paddr flags, lastMap log cap (virt &&& ~~~0xfff) = some (paddr, flags) ∧
        phys = paddr + virt % 4096 ∧ f = vmmMapUser ||| flags &&& vmmMapWrite) ∧
    (∀ cap virt phys f, translate s cap virt = .ok (phys, f) →
      ∃ b, lookupAspace s.objects s.caps s.aspaces cap Right.read = .ok b ∧
        hwTranslate s.vmm.tables (s.aspaces b).rootPhys virt =
          some ⟨phys, f &&& vmmMapUser ≠ 0, f &&& vmmMapWrite ≠ 0⟩) ∧
    ∀ call aspaceCap vaddr, call.target = some (aspaceCap, vaddr) → SpaceGuard s call →
      (∀ e, (spaceStep s call).1 = .status (.error e) →
        (∀ cap virt, translate (spaceStep s call).2 cap virt = translate s cap virt) ∧
        ∀ r virt, SpaceRoot s r ∨ r = s.vmm.activeCr3Phys →
          vmmVirtToPhysInRoot (spaceStep s call).2.vmm r virt = vmmVirtToPhysInRoot s.vmm r virt) ∧
      ((spaceStep s call).1 = .status (.ok ()) →
        (∀ cap virt, ¬ (cap = aspaceCap ∧ virt &&& ~~~0xfff = vaddr) →
          translate (spaceStep s call).2 cap virt = translate s cap virt) ∧
        ∃ b, lookupAspace s.objects s.caps s.aspaces aspaceCap Right.read = .ok b ∧
          ∀ r virt, SpaceRoot s r ∨ r = s.vmm.activeCr3Phys → r ≠ (s.aspaces b).rootPhys →
            vmmVirtToPhysInRoot (spaceStep s call).2.vmm r virt =
              vmmVirtToPhysInRoot s.vmm r virt) := by
  have h := spaceInv_run hrun
  refine ⟨h.translate_iff, fun cap virt phys f htr => h.hw_translate htr, ?_⟩
  intro call aspaceCap vaddr htarget hguard
  obtain ⟨new, r, v', heq, hout⟩ := h.target_outcome htarget hguard
  rw [heq]
  constructor
  · intro e he
    obtain rfl := SpaceAnswer.status.inj he
    exact h.frame_failed hout.kept (hout.failed e rfl)
  · intro hok
    obtain rfl := SpaceAnswer.status.inj hok
    exact h.frame_done hout

/-- Zeroed tables and no address space. -/
def SpaceWorld.zero : SpaceWorld :=
  ⟨.zero, .zero, fun _ => ⟨0, 0, 0, 0⟩, ⟨fun _ _ => 0, 0x1000, true⟩⟩

theorem freshTable_of_zero {tables : PageTables} (hzero : ∀ t i, tables t i = 0)
    {roots : UInt64 → Prop} {boot f : UInt64} (hf : FrameOk f)
    (hroots : ∀ r, roots r ∨ r = boot → r ≠ f) :
    FreshTable tables roots boot f := by
  refine ⟨hf, ?_⟩
  intro r q hr _ hw
  cases q with
  | nil => exact hroots r hr (Option.some.inj hw)
  | cons i q => simp [Radix.walk, childOf, hzero] at hw

theorem spaceStep_create_zero :
    (∀ t i, (spaceStep .zero (.create (some 0) [.ok 0x2000])).2.vmm.tables t i = 0) ∧
    (spaceStep .zero (.create (some 0) [.ok 0x2000])).2.vmm.activeCr3Phys = 0x1000 ∧
    ∀ b, ((spaceStep .zero (.create (some 0) [.ok 0x2000])).2.aspaces b).rootPhys = 0 ∨
      ((spaceStep .zero (.create (some 0) [.ok 0x2000])).2.aspaces b).rootPhys = 0x2000 := by
  have hroot : ∃ tables, vmmCreateRoot SpaceWorld.zero.vmm [.ok 0x2000] =
      (.ok 0x2000, ⟨tables, 0x1000, true⟩) ∧ ∀ t i, tables t i = 0 := by
    refine ⟨_, rfl, ?_⟩
    intro t i
    simp only [SpaceWorld.zero, Function.update_apply]
    split
    · simp
    · rfl
  obtain ⟨tables, heq, hzero⟩ := hroot
  have hrecord : ∀ b : Nat, ∀ record : AddressSpace, record.rootPhys = 0 ∨ record.rootPhys = 0x2000 →
      (Function.update SpaceWorld.zero.aspaces 0 record b).rootPhys = 0 ∨
        (Function.update SpaceWorld.zero.aspaces 0 record b).rootPhys = 0x2000 := by
    intro b record h
    by_cases hb : b = 0
    · rw [hb, Function.update_self]
      exact h
    · rw [Function.update_of_ne hb]
      exact .inl rfl
  unfold spaceStep addressSpaceCreate
  simp only [heq, Function.update_idem]
  split
  · exact ⟨hzero, rfl, fun b => hrecord b _ (.inl rfl)⟩
  · split
    · exact ⟨hzero, rfl, fun b => hrecord b _ (.inr rfl)⟩
    · exact ⟨hzero, rfl, fun b => hrecord b _ (.inr rfl)⟩

/-- The theorem after a creation and a mapping on zeroed tables. -/
theorem addressSpace_refines_first :
    ∃ log s, spaceSystem.RunWhen SpaceGuard log s ∧
      translate s 0x100000000 0x100123 = .ok (0x5123, vmmMapUser ||| vmmMapWrite) := by
  have hinit : spaceSystem.init .zero := by
    refine ⟨tablesWf_zero, rfl, ?_⟩
    intro id object hob
    obtain ⟨i, rfl, htype, _⟩ := (objectLookup_eq_ok ObjectTable.wf_zero).mp hob
    exact absurd rfl htype
  have hspace : ∀ id b, ¬ IsSpace .zero id b := by
    intro id b hb
    obtain ⟨object, hob, htype, _⟩ := hb
    exact hinit.2.2 id object hob htype
  have hcreate : SpaceGuard .zero (.create (some 0) [.ok 0x2000]) := by
    refine ⟨fun b _ id => hspace id b, by decide, ?_⟩
    intro f hf
    have hf : f = 0x2000 := by simpa [Except.toOption] using hf
    rw [hf]
    refine freshTable_of_zero (fun _ _ => rfl) (by decide) ?_
    intro r hr
    rcases hr with ⟨id, b, hb, _⟩ | rfl
    · exact absurd hb (hspace id b)
    · decide
  obtain ⟨hzero, hactive, haspaces⟩ := spaceStep_create_zero
  have hmap : SpaceGuard (spaceStep .zero (.create (some 0) [.ok 0x2000])).2
      (.map 0x100000000 0x100000 0x5000 1 [.ok 0x3000, .ok 0x4000, .ok 0x6000]) := by
    refine ⟨by decide, by decide, ?_⟩
    intro f hf
    have hf : f = 0x3000 ∨ f = 0x4000 ∨ f = 0x6000 := by simpa [Except.toOption] using hf
    refine freshTable_of_zero hzero ?_ ?_
    · rcases hf with rfl | rfl | rfl
      · decide
      · decide
      · decide
    · intro r hr
      have hr : r = 0 ∨ r = 0x2000 ∨ r = 0x1000 := by
        rcases hr with ⟨_, b, _, rfl⟩ | rfl
        · rcases haspaces b with h0 | h0
          · exact .inl h0
          · exact .inr (.inl h0)
        · exact .inr (.inr hactive)
      rcases hf with rfl | rfl | rfl <;> rcases hr with rfl | rfl | rfl <;> decide
  -- A space is created and one page mapped in it.
  have hrun := (System.RunWhen.init hinit).step _ hcreate |>.step _ hmap
  refine ⟨_, _, hrun, ((addressSpace_refines hrun).1 _ _ _ _).mpr ⟨0x5000, 1, ?_, ?_, ?_⟩⟩
  · decide +kernel
  · decide
  · decide

end Scdk
