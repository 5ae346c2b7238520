import Scdk.Arch.FlatRun
import Scdk.Mm.AddressSpaceRefinement
import Scdk.Mm.UserSpace

/-! # The image in user memory

    `scdk_usermode_run_flat_image` copies the image to pages of its own, maps them in
    the address space of the task, and enters user mode.

    * `fillPage_inside`, `fillPage_outside`: what one page holds,
    * `RunMemory`: what the page allocator has to answer,
    * `PagesIn`: the state with so many pages mapped; `PagesIn.next`: one page,
    * `ImageMapped`: what user mode sees of the image,
    * `usermodeRunFlatImage_enters`: with memory, the program is entered where its
      image is mapped. -/

namespace Scdk

open Radix

variable {δ : Type}

/-! ## One page -/

/-- An address inside the page that was filled. -/
theorem fillPage_inside {phys addr : UInt64} (hphys : FrameOk phys)
    (hpage : addr.toNat / 4096 = phys.toNat / 4096) (frames : Frames) (bytes : List UInt8) :
    fillPage frames phys bytes addr = (bytes[addr.toNat % 4096]?).getD 0 := by
  have halign := hphys.1
  have hsub : (addr - phys).toNat = addr.toNat % 4096 := by
    rw [UInt64.toNat_sub_of_le _ _ (UInt64.le_iff_toNat_le.mpr (by omega))]
    omega
  have hsize : pageSize = 4096 := rfl
  unfold fillPage
  rw [hsub, if_pos (by omega)]

theorem fillPage_outside {phys addr : UInt64} (hphys : FrameOk phys)
    (hpage : addr.toNat / 4096 ≠ phys.toNat / 4096) (frames : Frames) (bytes : List UInt8) :
    fillPage frames phys bytes addr = frames addr := by
  have halign := hphys.1
  have hlow := hphys.2
  have hsize : pageSize = 4096 := rfl
  have hfar : ¬ (addr - phys).toNat < pageSize := by
    have haddr := addr.toNat_lt
    rw [UInt64.toNat_sub, hsize]
    omega
  unfold fillPage
  rw [if_neg hfar]

/-- One of the bytes from a virtual address on. -/
theorem userBytes_getElem (v : Vmm) (frames : Frames) (virt : UInt64) (n j : Nat) :
    (userBytes v frames virt n)[j]? =
      if j < n then some (userByte v frames (virt + UInt64.ofNat j)) else none := by
  unfold userBytes
  by_cases hj : j < n
  · rw [if_pos hj]
    simp [hj]
  · rw [if_neg hj]
    simp [hj]

/-! ## Memory -/

/-- The answers for page `i`: those for the pages of the image, and behind them the one
    for the user stack. -/
def RunAnswers.page (a : RunAnswers) (n i : Nat) : Except Err UInt64 × PageSupply :=
  if i < n then a.code i else a.userStack

/-- The page allocator has the pages of a run: `frame i` for page `i`, and pages for
    tables, each once, none of them in use. -/
structure RunMemory (a : RunAnswers) (n : Nat) (frame : Nat → UInt64) (tables : PageTables)
    (roots : UInt64 → Prop) : Prop where
  answer : ∀ i ≤ n, (a.page n i).1 = .ok (frame i)
  frames : ∀ i ≤ n, FrameOk (frame i)
  apart : ∀ i ≤ n, ∀ j ≤ n, frame i = frame j → i = j
  supply : ∀ i ≤ n, Supplies 3 (a.page n i).2
  fresh : ∀ i ≤ n, SupplyFresh tables roots AllPaths (a.page n i).2
  once : ∀ i ≤ n, ∀ j ≤ n, i ≠ j → ∀ g ∈ (a.page n i).2.frames, g ∉ (a.page n j).2.frames

/-- The virtual address of page `i` of a run of `n` pages: the pages of the image, and
    behind them that of the user stack. -/
def FlatImage.pageVirt (f : FlatImage) (n i : Nat) : UInt64 :=
  if i < n then f.entry + UInt64.ofNat (i * pageSize) else userTestStackTop - 4096

/-- The bytes of the image. -/
def FlatImage.bytes (f : FlatImage) (k : Kernel δ) : List UInt8 :=
  userBytes k.vmm k.frames f.image f.imageSize.toNat

/-- The token of the address space in slot `b`, with all its rights. -/
def SpaceToken (k : Kernel (Host δ)) (aspace : UInt64) (b : Nat) : Prop :=
  lookupAspace k.objects k.caps k.devices.run.aspaces aspace spaceRights = .ok b

theorem SpaceToken.rights {k : Kernel (Host δ)} {aspace : UInt64} {b : Nat} (h : SpaceToken k aspace b)
    {rights : UInt64} (hne : rights ≠ 0) (hsub : spaceRights &&& rights = rights) :
    lookupAspace k.objects k.caps k.devices.run.aspaces aspace rights = .ok b :=
  lookupAspace_of_less h hne hsub

/-! ## Pages -/

/-- Everything that the mapping of an image of `n` pages needs: the token of an address
    space whose user half is made by `scdk_address_space_map`, with the pages of the run
    not mapped, memory for them, and an image elsewhere in the upper half. -/
structure ImageRoom (f : FlatImage) (a : RunAnswers) (n : Nat) (frame : Nat → UInt64)
    (roots : UInt64 → Prop) (b : Nat) (k : Kernel (Host δ)) : Prop where
  initialized : k.vmm.initialized = true
  active : roots k.vmm.activeCr3Phys
  token : SpaceToken k f.aspace b
  root : RootOk (k.devices.run.aspaces b).rootPhys
  space : UserSpace k.vmm.tables roots (k.devices.run.aspaces b).rootPhys
  memory : RunMemory a n frame k.vmm.tables roots
  pages : ∀ i ≤ n, validateUserPage (f.pageVirt n i) = .ok ()
  apart : ∀ i ≤ n, ∀ j ≤ n, f.pageVirt n i = f.pageVirt n j → i = j
  unmapped : ∀ i ≤ n,
    lookupEntry k.vmm.tables (k.devices.run.aspaces b).rootPhys (f.pageVirt n i) = .error .noent
  high : ∀ o < f.imageSize.toNat, 2 ^ 47 ≤ (f.image + UInt64.ofNat o).toNat % 2 ^ 48
  elsewhere : ∀ o < f.imageSize.toNat, ∀ phys flags,
    vmmVirtToPhys k.vmm (f.image + UInt64.ofNat o) = .ok (phys, flags) →
    ∀ i ≤ n, phys.toNat / 4096 ≠ (frame i).toNat / 4096

/-- The flags that page `i` of a run of `n` pages is mapped with. -/
def runFlags (n i : Nat) : UInt64 := if i < n then 0 else vmmMapWrite

/-- The bytes that page `i` of a run of `n` pages holds: the image, with zeros behind
    it, and zeros in the user stack. -/
def runByte (n : Nat) (data : List UInt8) (i j : Nat) : UInt8 :=
  if i < n then (data[i * 4096 + j]?).getD 0 else 0

/-- The state with the first `m` of the pages of a run of `n`. -/
structure PagesIn (f : FlatImage) (a : RunAnswers) (n : Nat) (frame : Nat → UInt64)
    (roots : UInt64 → Prop) (b : Nat) (k₀ : Kernel (Host δ)) (m : Nat) (k : Kernel (Host δ)) : Prop where
  rest : k = { k₀ with vmm := k.vmm, frames := k.frames }
  initialized : k.vmm.initialized = true
  active : k.vmm.activeCr3Phys = k₀.vmm.activeCr3Phys
  space : UserSpace k.vmm.tables roots (k₀.devices.run.aspaces b).rootPhys
  entry : ∀ i < m, lookupEntry k.vmm.tables (k₀.devices.run.aspaces b).rootPhys (f.pageVirt n i) =
    .ok (leafEntry (frame i) (runFlags n i ||| vmmMapUser))
  bytes : ∀ i < m, ∀ addr : UInt64, addr.toNat / 4096 = (frame i).toNat / 4096 →
    k.frames addr = runByte n (f.bytes k₀) i (addr.toNat % 4096)
  others : ∀ r x, roots r → (∀ i < m, ¬ (tablePath x = tablePath (f.pageVirt n i) ∧
    ptIndex x = ptIndex (f.pageVirt n i))) → lookupEntry k.vmm.tables r x = lookupEntry k₀.vmm.tables r x
  outside : ∀ addr : UInt64, (∀ i < m, addr.toNat / 4096 ≠ (frame i).toNat / 4096) →
    k.frames addr = k₀.frames addr
  fresh : ∀ g, (∀ i < m, g ∉ (a.page n i).2.frames) → FreshPage k₀.vmm.tables roots AllPaths g →
    FreshPage k.vmm.tables roots AllPaths g
  untouched : ∀ S, OwnTables k₀.vmm.tables S (k₀.devices.run.aspaces b).rootPhys →
    (∀ i < m, ∀ g ∈ (a.page n i).2.frames, ¬ S g) →
    Untouched S (k₀.devices.run.aspaces b).rootPhys k₀.vmm.tables k.vmm.tables

section pages

variable {f : FlatImage} {a : RunAnswers} {n m b : Nat} {frame : Nat → UInt64}
  {roots : UInt64 → Prop} {k₀ k : Kernel (Host δ)}

theorem ImageRoom.pagesIn (h : ImageRoom f a n frame roots b k₀) :
    PagesIn f a n frame roots b k₀ 0 k₀ where
  rest := rfl
  initialized := h.initialized
  active := rfl
  space := h.space
  entry := fun i hi => absurd hi (Nat.not_lt_zero i)
  bytes := fun i hi => absurd hi (Nat.not_lt_zero i)
  others := fun _ _ _ _ => rfl
  outside := fun _ _ => rfl
  fresh := fun _ _ hg => hg
  untouched := fun _ hown _ => hown.untouched

/-- The pages of a run have different indices. -/
theorem ImageRoom.indices (h : ImageRoom f a n frame roots b k₀) {i j : Nat} (hi : i ≤ n) (hj : j ≤ n)
    (hsame : tablePath (f.pageVirt n i) = tablePath (f.pageVirt n j) ∧
      ptIndex (f.pageVirt n i) = ptIndex (f.pageVirt n j)) : i = j := by
  have hpage := userPage_of_validate (h.pages i hi)
  have hpage' := userPage_of_validate (h.pages j hj)
  exact h.apart i hi j hj (hpage.eq_of_indices hpage' hsame.1 hsame.2)

/-- The image is read as before: its addresses are not those of the run, and its bytes
    are not in the pages of the run. -/
theorem PagesIn.image (h : PagesIn f a n frame roots b k₀ m k) (hroom : ImageRoom f a n frame roots b k₀)
    (hm : m ≤ n + 1) {o : Nat} (ho : o < f.imageSize.toNat) :
    userByte k.vmm k.frames (f.image + UInt64.ofNat o) =
      userByte k₀.vmm k₀.frames (f.image + UInt64.ofNat o) := by
  have hhigh := hroom.high o ho
  have htranslate : vmmVirtToPhys k.vmm (f.image + UInt64.ofNat o) =
      vmmVirtToPhys k₀.vmm (f.image + UInt64.ofNat o) := by
    unfold vmmVirtToPhys
    rw [h.active]
    apply vmmVirtToPhysInRoot_congr (h.initialized.trans hroom.initialized.symm)
    apply h.others _ _ hroom.active
    intro i hi hsame
    have hlow := (userPage_of_validate (hroom.pages i (by omega))).2
    have := indices_eq_iff.mp hsame
    omega
  unfold userByte
  rw [htranslate]
  cases hphys : vmmVirtToPhys k₀.vmm (f.image + UInt64.ofNat o) with
  | error e => rfl
  | ok p =>
    obtain ⟨phys, flags⟩ := p
    apply h.outside
    intro i hi
    exact hroom.elsewhere o ho phys flags hphys i (by omega)

/-- A page of the image holds its part of the bytes, and zeros behind them. -/
theorem PagesIn.pageBytes (h : PagesIn f a n frame roots b k₀ m k)
    (hroom : ImageRoom f a n frame roots b k₀) (hm : m ≤ n + 1) {i j : Nat} (hj : j < 4096) :
    ((f.pageBytes i k)[j]?).getD 0 = ((f.bytes k₀)[i * 4096 + j]?).getD 0 := by
  have hsize : pageSize = 4096 := rfl
  have haddr : f.image + UInt64.ofNat (i * 4096) + UInt64.ofNat j =
      f.image + UInt64.ofNat (i * 4096 + j) := by
    rw [UInt64.add_assoc, UInt64.ofNat_add]
  unfold FlatImage.pageBytes FlatImage.bytes
  dsimp only
  rw [userBytes_getElem, userBytes_getElem, hsize, haddr]
  by_cases ho : i * 4096 + j < f.imageSize.toNat
  · rw [if_pos (by omega), if_pos ho, h.image hroom hm ho]
  · rw [if_neg (by omega), if_neg ho]

/-- The pages for the tables of the next page are still fresh. -/
theorem PagesIn.supplyFresh (h : PagesIn f a n frame roots b k₀ m k)
    (hroom : ImageRoom f a n frame roots b k₀) (hm : m ≤ n) :
    SupplyFresh k.vmm.tables roots AllPaths (a.page n m).2 := by
  have hsupply := hroom.memory.fresh m hm
  refine ⟨hsupply.nodup, fun g hg => h.fresh g ?_ (hsupply.fresh g hg)⟩
  intro i hi hmem
  exact hroom.memory.once i (by omega) m hm (by omega) g hmem hg

/-- The next page is not mapped. -/
theorem PagesIn.noent (h : PagesIn f a n frame roots b k₀ m k)
    (hroom : ImageRoom f a n frame roots b k₀) (hm : m ≤ n) :
    lookupEntry k.vmm.tables (k₀.devices.run.aspaces b).rootPhys (f.pageVirt n m) = .error .noent := by
  rw [h.others _ _ hroom.space.root, hroom.unmapped m hm]
  intro i hi hsame
  have := hroom.indices hm (by omega) hsame
  omega

theorem runFlags_cases (n m : Nat) : runFlags n m = 0 ∨ runFlags n m = vmmMapWrite := by
  unfold runFlags
  split
  · exact .inl rfl
  · exact .inr rfl

/-- The token of the address space has the rights to map. -/
theorem mapRights_runFlags (n m : Nat) : mapRights (runFlags n m) ≠ 0 ∧
    spaceRights &&& mapRights (runFlags n m) = mapRights (runFlags n m) := by
  rcases runFlags_cases n m with hf | hf
  · rw [hf]
    decide
  · rw [hf]
    decide

/-- **One page.**  A page with its bytes is mapped behind those that are. -/
theorem PagesIn.next (h : PagesIn f a n frame roots b k₀ m k)
    (hroom : ImageRoom f a n frame roots b k₀) (hm : m ≤ n) {content : List UInt8}
    (hcontent : ∀ j < 4096, (content[j]?).getD 0 = runByte n (f.bytes k₀) m j) :
    ∃ k', K.addressSpaceMap f.aspace (f.pageVirt n m) (frame m) (runFlags n m) (a.page n m).2
        { k with frames := fillPage k.frames (frame m) content } = (.ok (), k') ∧
      PagesIn f a n frame roots b k₀ (m + 1) k' := by
  have hpage := userPage_of_validate (hroom.pages m hm)
  have hframe := hroom.memory.frames m hm
  obtain ⟨v', hmap, hmapped⟩ := h.space.map h.initialized hroom.root hpage hframe.1
    (runFlags_cases n m) (h.supplyFresh hroom hm) (hroom.memory.supply m hm) (h.noent hroom hm)
  -- The service finds the space by its token, and maps the page in its tables.
  have hrun : K.addressSpaceMap f.aspace (f.pageVirt n m) (frame m) (runFlags n m) (a.page n m).2
      { k with frames := fillPage k.frames (frame m) content } =
      (.ok (), { k with frames := fillPage k.frames (frame m) content, vmm := v' }) := by
    obtain ⟨hrights, hgranted⟩ := mapRights_runFlags n m
    have hlookup := hroom.token.rights hrights hgranted
    have hobjects : k.objects = k₀.objects ∧ k.caps = k₀.caps ∧ k.devices = k₀.devices := by
      rw [h.rest]
      exact ⟨rfl, rfl, rfl⟩
    unfold K.addressSpaceMap Scdk.addressSpaceMap
    dsimp only
    rw [hobjects.1, hobjects.2.1, hobjects.2.2, hlookup, hroom.pages m hm]
    dsimp only
    rw [if_neg (by simp [(isPageAligned_iff (frame m)).mpr hframe.1]), hmap]
  refine ⟨_, hrun, ?_, ?_, ?_, hmapped.space, ?_, ?_, ?_, ?_, ?_, ?_⟩
  · exact congrArg (fun k' : Kernel (Host δ) =>
      { k' with frames := fillPage k.frames (frame m) content, vmm := v' }) h.rest
  · exact hmapped.initialized.trans h.initialized
  · exact hmapped.active.trans h.active
  · intro i hi
    rcases Nat.lt_succ_iff_lt_or_eq.mp hi with hlt | rfl
    · rw [← h.entry i hlt]
      apply hmapped.others _ _ hroom.space.root (allPaths_tablePath _)
      intro hsame
      have := hroom.indices (by omega) hm hsame
      omega
    · exact hmapped.lookup
  · intro i hi addr haddr
    rcases Nat.lt_succ_iff_lt_or_eq.mp hi with hlt | rfl
    · -- an earlier page is another frame
      have hother : addr.toNat / 4096 ≠ (frame m).toNat / 4096 := by
        intro hsame
        have halign := (hroom.memory.frames i (by omega)).1
        have halign' := hframe.1
        have heq : frame i = frame m := UInt64.toNat_inj.mp (by omega)
        have := hroom.memory.apart i (by omega) m hm heq
        omega
      dsimp only
      rw [fillPage_outside hframe hother]
      exact h.bytes i hlt addr haddr
    · dsimp only
      rw [fillPage_inside hframe haddr]
      exact hcontent _ (Nat.mod_lt _ (by decide))
  · intro r x hr hne
    rw [hmapped.others r x hr (allPaths_tablePath x) (hne m (Nat.lt_succ_self m))]
    exact h.others r x hr fun i hi => hne i (Nat.lt_succ_of_lt hi)
  · intro addr hne
    dsimp only
    rw [fillPage_outside hframe (hne m (Nat.lt_succ_self m))]
    exact h.outside addr fun i hi => hne i (Nat.lt_succ_of_lt hi)
  · intro g hnot hg
    exact hmapped.fresh g (hnot m (Nat.lt_succ_self m))
      (h.fresh g (fun i hi => hnot i (Nat.lt_succ_of_lt hi)) hg)
  · intro S hown hout
    have huntouched := h.untouched S hown fun i hi => hout i (Nat.lt_succ_of_lt hi)
    exact huntouched.trans (hmapped.untouched S huntouched.own (hout m (Nat.lt_succ_self m)))

/-! ## The loops -/

/-- A round of the run: a page is taken, filled and mapped. -/
theorem PagesIn.round (h : PagesIn f a n frame roots b k₀ m k)
    (hroom : ImageRoom f a n frame roots b k₀) (hm : m ≤ n) {content : List UInt8}
    (hcontent : ∀ j < 4096, (content[j]?).getD 0 = runByte n (f.bytes k₀) m j) (l : RunLocals)
    (fill : UInt64 → K (Host δ) Unit)
    (hfill : fill (frame m) k = (.ok (), { k with frames := fillPage k.frames (frame m) content }))
    (rest : RunBody δ Unit) :
    ∃ k', PagesIn f a n frame roots b k₀ (m + 1) k' ∧ (do
      let phys ← .call (.ask fun _ => (a.page n m).1)
      .call (fill phys)
      .call (K.addressSpaceMap f.aspace (f.pageVirt n m) phys (runFlags n m) (a.page n m).2)
      rest : RunBody δ Unit) (k, l) = rest (k', l) := by
  obtain ⟨k', hmap, hnext⟩ := h.next hroom hm hcontent
  refine ⟨k', hnext, ?_⟩
  have hask : RunBody.call (.ask fun _ => (a.page n m).1) (k, l) = (.ok (frame m), (k, l)) := by
    unfold RunBody.call Effect.ask
    rw [hroom.memory.answer m hm]
  have hfilled : RunBody.call (fill (frame m)) (k, l) =
      (.ok (), ({ k with frames := fillPage k.frames (frame m) content }, l)) := by
    unfold RunBody.call
    rw [hfill]
  have hmapped : RunBody.call (K.addressSpaceMap f.aspace (f.pageVirt n m) (frame m) (runFlags n m)
      (a.page n m).2) ({ k with frames := fillPage k.frames (frame m) content }, l) =
      (.ok (), (k', l)) := by
    unfold RunBody.call
    rw [hmap]
  rw [Effect.bind_of_ok hask, Effect.bind_of_ok hfilled, Effect.bind_of_ok hmapped]

/-- **The pages of the image.** -/
theorem mapCodePages_run (hroom : ImageRoom f a n frame roots b k₀) : ∀ (left i : Nat)
    (k : Kernel (Host δ)) (l : RunLocals), i + left = n → PagesIn f a n frame roots b k₀ i k →
    ∃ k', mapCodePages f a i left (k, l) =
        (.ok (), (k', { l with mappedCodePages := l.mappedCodePages + left })) ∧
      PagesIn f a n frame roots b k₀ n k' := by
  intro left
  -- By induction on the pages that are left: those before `i` are mapped.
  induction left with
  | zero =>
    intro i k l hi h
    obtain rfl : i = n := by omega
    exact ⟨k, rfl, h⟩
  | succ left ih =>
    intro i k l hi h
    have hlt : i < n := by omega
    -- A code page is read only, and holds the bytes of the image.
    have hpage : a.page n i = a.code i := if_pos hlt
    have hvirt : f.pageVirt n i = f.entry + UInt64.ofNat (i * pageSize) := if_pos hlt
    have hflags : runFlags n i = 0 := if_pos hlt
    have hcontent : ∀ j < 4096, ((f.pageBytes i k)[j]?).getD 0 = runByte n (f.bytes k₀) i j := by
      intro j hj
      unfold runByte
      rw [if_pos hlt]
      exact h.pageBytes hroom (by omega) hj
    obtain ⟨k₁, hnext, hround⟩ := h.round hroom (Nat.le_of_lt hlt) hcontent l
      (fun phys k => K.fillPage phys (f.pageBytes i k) k) rfl (do
        .assign fun l => { l with mappedCodePages := l.mappedCodePages + 1 }
        mapCodePages f a (i + 1) left)
    rw [hpage, hvirt, hflags] at hround
    obtain ⟨k₂, hloop, hall⟩ := ih (i + 1) k₁
      { l with mappedCodePages := l.mappedCodePages + 1 } (by omega) hnext
    refine ⟨k₂, ?_, hall⟩
    rw [mapCodePages]
    refine hround.trans ?_
    have hassign : RunBody.assign (fun l => { l with mappedCodePages := l.mappedCodePages + 1 })
        (k₁, l) = (.ok (), (k₁, { l with mappedCodePages := l.mappedCodePages + 1 })) := rfl
    rw [Effect.bind_of_ok hassign, hloop, Nat.add_assoc, Nat.add_comm 1 left]

/-- The page of the user stack. -/
theorem mapUserStack_run (hroom : ImageRoom f a n frame roots b k₀)
    (h : PagesIn f a n frame roots b k₀ n k) (l : RunLocals) :
    ∃ k', mapUserStack f a (k, l) = (.ok (), (k', { l with stackMapped := true })) ∧
      PagesIn f a n frame roots b k₀ (n + 1) k' := by
  have hpage : a.page n n = a.userStack := if_neg (Nat.lt_irrefl n)
  have hvirt : f.pageVirt n n = userTestStackTop - 4096 := if_neg (Nat.lt_irrefl n)
  have hflags : runFlags n n = vmmMapWrite := if_neg (Nat.lt_irrefl n)
  have hcontent : ∀ j < 4096, (([] : List UInt8)[j]?).getD 0 = runByte n (f.bytes k₀) n j := by
    intro j _
    unfold runByte
    rw [if_neg (Nat.lt_irrefl n)]
    rfl
  obtain ⟨k₁, hnext, hround⟩ := h.round hroom (Nat.le_refl n) hcontent l
    (fun phys => K.fillPage phys []) rfl (.assign fun l => { l with stackMapped := true })
  rw [hpage, hvirt, hflags] at hround
  exact ⟨k₁, hround, hnext⟩

end pages

/-! ## Entering user mode -/

/-- From the return of the program to the label `cleanup`. -/
def afterUsermode (bootRoot : UInt64) : RunBody δ Unit := do
  let (k, _) ← Effect.get
  let status ← (RunBody.call (K.vmmActivateRoot bootRoot)).attempt
  .assign fun l => { l with bootRoot := none }
  .ask fun _ => status
  Effect.require (k.devices.run.usermodeInitialized = true ∧ k.syscall.userExited = true ∧
    k.syscall.endpointCallPassed = true) .busy

/-- From the return of the program in state `k` to that of the run. -/
def leaveUsermode (f : FlatImage) (saved : SyscallTaskState) (bootRoot : UInt64) (l : RunLocals)
    (k : Kernel (Host δ)) : Except Err Unit × Kernel (Host δ) :=
  let (status, k', locals) := afterUsermode bootRoot (k, l)
  (status, (runCleanup f saved locals k').2)

/-- The state in which the program is entered: all pages are mapped, and the address
    space is active. -/
structure Entered (f : FlatImage) (a : RunAnswers) (n : Nat) (frame : Nat → UInt64)
    (roots : UInt64 → Prop) (b : Nat) (k₀ : Kernel (Host δ)) (k : Kernel (Host δ)) : Prop where
  state : ∃ k₁, PagesIn f a n frame roots b k₀ (n + 1) k₁ ∧
    k = Kernel.enter { k₁ with
      vmm := { k₁.vmm with activeCr3Phys := (k₀.devices.run.aspaces b).rootPhys } } a

/-- What user mode sees of an image: its bytes from the entry on, with zeros behind them
    to the end of the page, all readable and none writable. -/
def ImageMapped (f : FlatImage) (data : List UInt8) (k : Kernel δ) : Prop :=
  ∀ o < 4096 * f.codePages.toNat, ∃ t,
    hwTranslate k.vmm.tables k.vmm.activeCr3Phys (f.entry + UInt64.ofNat o) = some t ∧
      t.user = true ∧ t.write = false ∧ k.frames t.phys = (data[o]?).getD 0

section entered

variable {f : FlatImage} {a : RunAnswers} {b : Nat} {frame : Nat → UInt64} {roots : UInt64 → Prop}
  {k₀ k : Kernel (Host δ)}

/-- An address of the image lies in one of its pages. -/
theorem FlatImage.pageVirt_add {n o : Nat} (halign : f.entry.toNat % 4096 = 0) (ho : o < 4096 * n)
    (hfit : f.entry.toNat + 4096 * n ≤ 2 ^ 47) :
    (f.entry + UInt64.ofNat o).toNat = f.entry.toNat + o ∧
      (f.pageVirt n (o / 4096)).toNat = f.entry.toNat + o / 4096 * 4096 := by
  have hsize : pageSize = 4096 := rfl
  have hlt : o / 4096 < n := by omega
  unfold FlatImage.pageVirt
  rw [if_pos hlt, hsize, UInt64.toNat_add, UInt64.toNat_add, UInt64.toNat_ofNat', UInt64.toNat_ofNat']
  omega

/-- **What the program sees** is the image. -/
theorem Entered.imageMapped (h : Entered f a f.codePages.toNat frame roots b k₀ k)
    (hroom : ImageRoom f a f.codePages.toNat frame roots b k₀) (halign : f.entry.toNat % 4096 = 0)
    (hfit : f.entry.toNat + 4096 * f.codePages.toNat ≤ 2 ^ 47) : ImageMapped f (f.bytes k₀) k := by
  obtain ⟨k₁, hpages, rfl⟩ := h.state
  intro o ho
  obtain ⟨haddr, hpage⟩ := f.pageVirt_add halign ho hfit
  set n := f.codePages.toNat with hn
  have hi : o / 4096 < n := by omega
  have hentry := hpages.entry (o / 4096) (by omega)
  have hflags : runFlags n (o / 4096) = 0 := if_pos hi
  rw [hflags] at hentry
  -- the address has the entry of its page
  have hlookup : lookupEntry k₁.vmm.tables (k₀.devices.run.aspaces b).rootPhys
      (f.entry + UInt64.ofNat o) = .ok (leafEntry (frame (o / 4096)) (0 ||| vmmMapUser)) := by
    have hsame : tablePath (f.entry + UInt64.ofNat o) = tablePath (f.pageVirt n (o / 4096)) ∧
        ptIndex (f.entry + UInt64.ofNat o) = ptIndex (f.pageVirt n (o / 4096)) := by
      rw [indices_eq_iff, haddr, hpage]
      omega
    unfold lookupEntry at hentry ⊢
    rw [hsame.1, hsame.2]
    exact hentry
  have hframe := hroom.memory.frames (o / 4096) (Nat.le_of_lt hi)
  obtain ⟨hphys, _, _, huser, hwrite⟩ := leafEntry_bits hframe 0
  obtain ⟨t, htranslate, htphys, htuser, htwrite⟩ :=
    hpages.space.tree.hwTranslate (by rw [haddr]; omega) hlookup
  refine ⟨t, htranslate, htuser.mpr huser, ?_, ?_⟩
  · by_contra hw
    exact hwrite.mp (htwrite.mp (by simpa using hw)) (by decide)
  · have hpos : t.phys.toNat = (frame (o / 4096)).toNat + o % 4096 := by
      have hlow : ((f.entry + UInt64.ofNat o) &&& 0xfff).toNat = o % 4096 := by
        have hmod : ((f.entry + UInt64.ofNat o) &&& 0xfff).toNat = (f.entry.toNat + o) % 2 ^ 12 := by
          rw [UInt64.toNat_and, haddr]
          exact Nat.and_two_pow_sub_one_eq_mod _ 12
        rw [hmod]
        omega
      rw [htphys, hphys, toNat_or_low hframe.1 (by rw [hlow]; omega), hlow]
    have halign' := hframe.1
    have hbytes := hpages.bytes (o / 4096) (by omega) t.phys (by omega)
    have hoffset : t.phys.toNat % 4096 = o % 4096 := by omega
    have hmul : o / 4096 * 4096 + o % 4096 = o := by omega
    unfold runByte at hbytes
    rw [if_pos hi, hoffset, hmul] at hbytes
    exact hbytes

variable {stack : StackPage}

theorem ImageRoom.congr {n : Nat} {k' : Kernel (Host δ)} (h : ImageRoom f a n frame roots b k)
    (hvmm : k'.vmm = k.vmm) (hobjects : k'.objects = k.objects) (hcaps : k'.caps = k.caps)
    (haspaces : k'.devices.run.aspaces = k.devices.run.aspaces) :
    ImageRoom f a n frame roots b k' where
  initialized := hvmm ▸ h.initialized
  active := hvmm ▸ h.active
  token := by
    unfold SpaceToken
    rw [hobjects, hcaps, haspaces]
    exact h.token
  root := haspaces ▸ h.root
  space := by
    rw [hvmm, haspaces]
    exact h.space
  memory := hvmm ▸ h.memory
  pages := h.pages
  apart := h.apart
  unmapped := by
    rw [hvmm, haspaces]
    exact h.unmapped
  high := h.high
  elsewhere := by
    rw [hvmm]
    exact h.elsewhere

theorem ImageRoom.onStack {n : Nat} (h : ImageRoom f a n frame roots b k) (stack : StackPage) :
    ImageRoom f a n frame roots b (k.onStack stack) := by
  apply h.congr
  all_goals simp only [Kernel.onStack]

theorem runInUsermode_eq (user : K (Host δ) Unit) (root : UInt64) (s : Kernel (Host δ) × RunLocals) :
    runInUsermode a user root s = afterUsermode root ((user (s.1.enter a)).2, s.2) := rfl

/-- **Entering.**  With the arguments checked and memory for the run, the program is
    entered where its image is mapped. -/
theorem usermodeRunFlatImage_enters (hcheck : (checkFlatImage f k).1 = .ok ())
    (hstack : a.stack = some stack) (hroom : ImageRoom f a f.codePages.toNat frame roots b k) :
    ∃ kᵤ, Entered f a f.codePages.toNat frame roots b (k.onStack stack) kᵤ ∧ ∀ user,
      usermodeRunFlatImage f a user k =
        leaveUsermode f (saveTaskState k) k.vmm.activeCr3Phys
          ⟨some k.vmm.activeCr3Phys, some stack, f.codePages.toNat, true⟩ (user kᵤ).2 := by
  have hroom' := hroom.onStack stack
  obtain ⟨k₁, hcode, hpages₁⟩ := mapCodePages_run hroom' f.codePages.toNat 0 (k.onStack stack)
    ⟨some k.vmm.activeCr3Phys, some stack, 0, false⟩ (Nat.zero_add _) hroom'.pagesIn
  obtain ⟨k₂, hmapped, hpages₂⟩ := mapUserStack_run hroom' hpages₁
    ⟨some k.vmm.activeCr3Phys, some stack, f.codePages.toNat, false⟩
  refine ⟨_, ⟨k₂, hpages₂, rfl⟩, fun user => ?_⟩
  -- The root of the program is activated.
  have hactivate : RunBody.call (K.addressSpaceActivate f.aspace)
      (k₂, ⟨some k.vmm.activeCr3Phys, some stack, f.codePages.toNat, true⟩) =
      (.ok (), ({ k₂ with vmm := { k₂.vmm with
        activeCr3Phys := ((k.onStack stack).devices.run.aspaces b).rootPhys } },
        ⟨some k.vmm.activeCr3Phys, some stack, f.codePages.toNat, true⟩)) := by
    have hlookup := hroom'.token.rights (by decide : Right.read ≠ 0) (by decide)
    have hsame : k₂.objects = (k.onStack stack).objects ∧ k₂.caps = (k.onStack stack).caps ∧
        k₂.devices = (k.onStack stack).devices := by
      rw [hpages₂.rest]
      exact ⟨rfl, rfl, rfl⟩
    unfold RunBody.call K.addressSpaceActivate Scdk.addressSpaceActivate Scdk.vmmActivateRoot
    dsimp only
    rw [hsame.1, hsame.2.1, hsame.2.2, hlookup]
    dsimp only
    rw [validateRoot_ok hpages₂.initialized hroom'.root]
  have hrootRun : RunBody.call K.vmmCurrentRoot (k, ⟨none, none, 0, false⟩) =
      (.ok k.vmm.activeCr3Phys, (k, ⟨none, none, 0, false⟩)) := by
    have hinit : ¬ k.vmm.initialized = false := by
      rw [hroom.initialized]
      decide
    show (if k.vmm.initialized = false then _ else _, (k, _)) = _
    rw [if_neg hinit]
  -- Up to the return from user mode, the run succeeds step by step.
  have hbody : runBody f a user (k, ⟨none, none, 0, false⟩) = (do
      mapCodePages f a 0 f.codePages.toNat
      mapUserStack f a
      .call (K.addressSpaceActivate f.aspace)
      runInUsermode a user k.vmm.activeCr3Phys : RunBody δ Unit)
        (k.onStack stack, ⟨some k.vmm.activeCr3Phys, some stack, 0, false⟩) := by
    unfold runBody
    rw [Effect.bind_of_ok hrootRun, hstack]
    exact runOnStack_start f a user k.vmm.activeCr3Phys stack
      (k, ⟨some k.vmm.activeCr3Phys, none, 0, false⟩)
  rw [Effect.bind_of_ok hcode, Nat.zero_add, Effect.bind_of_ok hmapped, Effect.bind_of_ok hactivate,
    runInUsermode_eq] at hbody
  rw [usermodeRunFlatImage_of_checked f a user hcheck]
  unfold runSaved
  rw [hbody]
  rfl

end entered

end Scdk
