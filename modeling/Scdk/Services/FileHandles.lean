import Scdk.Boot
import Scdk.Lib.Run
import Scdk.Services.Tmpfs

/-! # File handles

    A handle is the token that OPEN answers.  CLOSE marks the file slot as free, but
    the token stays live and its object goes on pointing to the slot, which the next
    OPEN takes for another file.

    * `FileCall`, `fileSystem`: messages to the service in any order, between other
      calls that make objects and tokens which are not files,
    * `OpenAs`: what the log of a run says about a token,
    * `HandlesOk`: the invariant; the service accepts a token exactly if the log has
      it open,
    * `handles_exact`: what READ and CLOSE answer after any run. -/

namespace Scdk

variable {δ : Type}

/-! ## Runs -/

/-- A message to the service, a change of the address space, and the functions that
    take slots of the tables and give them back. -/
inductive FileCall where
  | message (msg : Message) (payload : List UInt8)
  | context (v : Vmm) (frames : Frames)
  | objectCreate (type ownerCore flags : UInt32) (payload : Payload)
  | capCreate (objectId rights : UInt64)
  | capRevoke (cap : UInt64)

/-- The answer to a message is the message itself. -/
def fileStep (k : Kernel δ) : FileCall → Except Err Message × Kernel δ
  | .message msg payload =>
    let (r, k) := tmpfsEndpointHandler { k with msg := msg, payload := payload }
    (r.map fun _ => k.msg, k)
  | .context v frames => (.ok k.msg, { k with vmm := v, frames := frames })
  | .objectCreate type ownerCore flags payload =>
    let (r, objects) := objectCreate k.objects type ownerCore flags payload
    (r.map fun _ => k.msg, { k with objects := objects })
  | .capCreate objectId rights =>
    let (r, caps) := capCreate k.objects k.caps objectId rights
    (r.map fun _ => k.msg, { k with caps := caps })
  | .capRevoke cap =>
    let (r, caps) := capRevoke k.objects k.caps cap
    (r.map fun _ => k.msg, { k with caps := caps })

/-- Files are made by the service only, and no token of a file is revoked. -/
def FileGuard (k : Kernel δ) : FileCall → Prop
  | .objectCreate type _ _ _ => type ≠ ObjType.file
  | .capCreate objectId _ =>
    ∀ ob, objectLookup k.objects objectId = .ok ob → ob.type ≠ ObjType.file
  | .capRevoke cap =>
    ∀ entry, capLookup k.objects k.caps cap = .ok entry → entry.objectType ≠ ObjType.file
  | _ => True

/-- Before the first message: no file is open, and there is no file object. -/
structure FileStart (initrd : Initrd) (k : Kernel δ) : Prop where
  wf : TablesWf k.objects k.caps
  objects : ∀ id ob, objectLookup k.objects id = .ok ob → ob.type ≠ ObjType.file
  closed : ∀ i, (k.files i).isOpen = false
  initrd : k.initrd = initrd

def fileSystem (δ : Type) (initrd : Initrd) : System (Kernel δ) FileCall (Except Err Message) where
  init := FileStart initrd
  step := fileStep

/-! ## What a log says -/

/-- The calls of a run with their answers, oldest first. -/
abbrev FileLog : Type := List (FileCall × Except Err Message)

/-- A successful OPEN of the file `f` that answers the token `c`. -/
def Opens (initrd : Initrd) (e : FileCall × Except Err Message) (c : UInt64) (f : InitrdFile) : Prop :=
  ∃ msg payload msg', e = (.message msg payload, .ok msg') ∧ msg.type = Msg.openFile ∧
    initrd.resolves msg payload = .ok f ∧ msg'.arg0 = c

/-- A successful CLOSE of the token `c`. -/
def Closes (e : FileCall × Except Err Message) (c : UInt64) : Prop :=
  ∃ msg payload msg', e = (.message msg payload, .ok msg') ∧ msg.type = Msg.close ∧ msg.arg0 = c

/-- The token `c` was answered to an OPEN of the file `f`, and not closed since. -/
def OpenAs (initrd : Initrd) (log : FileLog) (c : UInt64) (f : InitrdFile) : Prop :=
  ∃ pre e post, log = pre ++ e :: post ∧ Opens initrd e c f ∧ ∀ e' ∈ post, ¬ Closes e' c

/-- The token `c` was answered to an OPEN. -/
def OpenedIn (initrd : Initrd) (log : FileLog) (c : UInt64) : Prop := ∃ e ∈ log, ∃ f, Opens initrd e c f

/-- The token `c` was closed. -/
def ClosedIn (log : FileLog) (c : UInt64) : Prop := ∃ e ∈ log, Closes e c

section log

variable {initrd : Initrd} {log : FileLog} {e : FileCall × Except Err Message} {c : UInt64}
  {f : InitrdFile}

theorem openAs_concat :
    OpenAs initrd (log ++ [e]) c f ↔ Opens initrd e c f ∨ (OpenAs initrd log c f ∧ ¬ Closes e c) := by
  constructor
  · rintro ⟨pre, e', post, hlog, hopens, hnot⟩
    rcases List.concat_eq_append_cons hlog with ⟨_, rfl, _⟩ | ⟨post', rfl, hlog'⟩
    · exact .inl hopens
    · refine .inr ⟨⟨pre, e', post', hlog', hopens, fun e'' h => hnot e'' ?_⟩, hnot e ?_⟩
      · exact List.mem_append_left _ h
      · exact List.mem_append_right _ (List.mem_singleton_self e)
  · rintro (hopens | ⟨⟨pre, e', post, rfl, hopens, hnot⟩, hlast⟩)
    · exact ⟨log, e, [], rfl, hopens, fun _ h => absurd h List.not_mem_nil⟩
    · refine ⟨pre, e', post ++ [e], by simp, hopens, ?_⟩
      intro e'' he
      rcases List.mem_append.mp he with hold | hnew
      · exact hnot e'' hold
      · rw [List.mem_singleton.mp hnew]
        exact hlast

theorem openedIn_concat :
    OpenedIn initrd (log ++ [e]) c ↔ OpenedIn initrd log c ∨ ∃ f, Opens initrd e c f := by
  simp only [OpenedIn, List.mem_append, List.mem_singleton, or_and_right, exists_or,
    exists_eq_left]

theorem closedIn_concat : ClosedIn (log ++ [e]) c ↔ ClosedIn log c ∨ Closes e c := by
  simp only [ClosedIn, List.mem_append, List.mem_singleton, or_and_right, exists_or,
    exists_eq_left]

theorem OpenAs.openedIn (h : OpenAs initrd log c f) : OpenedIn initrd log c := by
  obtain ⟨pre, e, post, rfl, hopens, _⟩ := h
  exact ⟨e, by simp, f, hopens⟩

end log

/-! ## Tokens of open files -/

/-- The token in slot `j` is for the open file in slot `i`. -/
structure IsHandle (k : Kernel δ) (j : Fin maxCaps) (i : Fin tmpfsMaxOpenFiles) : Prop where
  occupied : k.caps.occupied j = true
  grants : (k.caps.entry j).grants Right.read ObjType.file
  object : ∃ ob, objectLookup k.objects (k.caps.entry j).objectId = .ok ob ∧ ob.payload = .file i
  slot : (k.files i).objectId = (k.caps.entry j).objectId
  isOpen : (k.files i).isOpen = true

theorem tmpfsSlotForCap_eq_ok {k : Kernel δ} (h : TablesWf k.objects k.caps) {t : UInt64}
    {i : Fin tmpfsMaxOpenFiles} :
    tmpfsSlotForCap k t = .ok i ↔ ∃ j, t = k.caps.token j ∧ IsHandle k j i := by
  unfold tmpfsSlotForCap
  constructor
  · intro hslot
    split at hslot
    · cases hslot
    next entry hcheck =>
    obtain ⟨_, j, hocc, rfl, rfl, hgrants⟩ := (capCheck_eq_ok h).mp hcheck
    split at hslot
    · cases hslot
    next ob hob =>
    split at hslot
    · next i' hpayload =>
      split at hslot
      · cases hslot
      · next htests =>
        obtain rfl := Except.ok.inj hslot
        simp only [not_or, not_not, Bool.not_eq_false] at htests
        exact ⟨j, rfl, hocc, hgrants, ⟨ob, hob, hpayload⟩, htests.1, htests.2⟩
    · cases hslot
  · rintro ⟨j, rfl, hocc, hgrants, ⟨ob, hob, hpayload⟩, hslot, hopen⟩
    have hcheck : capCheck k.objects k.caps (k.caps.token j) Right.read ObjType.file =
        .ok (k.caps.entry j) := (capCheck_eq_ok h).mpr ⟨by decide, j, hocc, rfl, rfl, hgrants⟩
    simp only [hcheck, hob, hpayload, hslot, hopen]
    simp

/-! ## The invariant -/

/-- The tokens that the service accepts are those that the log has open, for the same
    files; a token that was answered once is live for ever, and the only one of its
    object. -/
structure HandlesOk (initrd : Initrd) (log : FileLog) (k : Kernel δ) : Prop where
  wf : TablesWf k.objects k.caps
  archive : k.initrd = initrd
  sole : ∀ j, k.caps.occupied j = true → (k.caps.entry j).objectType = ObjType.file → k.caps.Sole j
  accepts : ∀ c f, (∃ i, tmpfsSlotForCap k c = .ok i ∧ (k.files i).backing = f) ↔
    OpenAs initrd log c f
  live : ∀ c, OpenedIn initrd log c → ∃ j, k.caps.occupied j = true ∧ k.caps.token j = c ∧
    (k.caps.entry j).objectType = ObjType.file
  closed : ∀ c, ClosedIn log c → OpenedIn initrd log c ∧ ∀ f, ¬ OpenAs initrd log c f

/-- A step that the tokens of files do not notice. -/
structure FilesKept (k k' : Kernel δ) : Prop where
  wf : TablesWf k'.objects k'.caps
  archive : k'.initrd = k.initrd
  objects : ∀ id ob, objectLookup k.objects id = .ok ob → objectLookup k'.objects id = .ok ob
  old : ∀ j, k.caps.occupied j = true → (k.caps.entry j).objectType = ObjType.file →
    k.caps.SameSlot k'.caps j
  new : ∀ j, k'.caps.occupied j = true → (k'.caps.entry j).objectType = ObjType.file →
    k.caps.SameSlot k'.caps j
  files : ∀ i, k'.files i = k.files i ∨ (k.files i).isOpen = false ∧ (k'.files i).isOpen = false

section kept

variable {initrd : Initrd} {log : FileLog} {k k' : Kernel δ}

theorem CapEntry.grants_file {entry : CapEntry} (h : entry.grants Right.read ObjType.file) :
    entry.objectType = ObjType.file := by
  rcases h.1 with h0 | htype
  · cases h0
  · exact htype

/-- A token stays a handle if its slot, its object and its file are kept. -/
theorem IsHandle.carried {j : Fin maxCaps} {i : Fin tmpfsMaxOpenFiles} (hj : IsHandle k j i)
    (hsame : k.caps.SameSlot k'.caps j) (hfile : k'.files i = k.files i)
    (hobjects : ∀ id ob, objectLookup k.objects id = .ok ob → objectLookup k'.objects id = .ok ob) :
    IsHandle k' j i := by
  obtain ⟨ob, hob, hpayload⟩ := hj.object
  refine ⟨hsame.occupied.trans hj.occupied, ?_, ⟨ob, ?_, hpayload⟩, ?_, ?_⟩
  · rw [hsame.1]
    exact hj.grants
  · rw [hsame.1]
    exact hobjects _ ob hob
  · rw [hfile, hsame.1]
    exact hj.slot
  · rw [hfile]
    exact hj.isOpen

/-- It was one before, too: the object of its slot is the one that was kept. -/
theorem IsHandle.carriedBack {j : Fin maxCaps} {i : Fin tmpfsMaxOpenFiles} (hj : IsHandle k' j i)
    (hsame : k.caps.SameSlot k'.caps j) (hfile : k'.files i = k.files i)
    (hwf : TablesWf k.objects k.caps)
    (hobjects : ∀ id ob, objectLookup k.objects id = .ok ob → objectLookup k'.objects id = .ok ob) :
    IsHandle k j i := by
  have hocc : k.caps.occupied j = true := hsame.occupied ▸ hj.occupied
  obtain ⟨ob, hob, hpayload⟩ := hj.object
  obtain ⟨ob₀, hob₀, _⟩ := hwf.object j hocc
  rw [hsame.1] at hob
  obtain rfl := Except.ok.inj ((hobjects _ ob₀ hob₀).symm.trans hob)
  refine ⟨hocc, ?_, ⟨ob₀, hob₀, hpayload⟩, ?_, ?_⟩
  · rw [← hsame.1]
    exact hj.grants
  · rw [← hfile, ← hsame.1]
    exact hj.slot
  · rw [← hfile]
    exact hj.isOpen

theorem FilesKept.isHandle (h : FilesKept k k') {j : Fin maxCaps} {i : Fin tmpfsMaxOpenFiles}
    (hj : IsHandle k j i) : k'.caps.token j = k.caps.token j ∧ k'.files i = k.files i ∧ IsHandle k' j i := by
  have hsame := h.old j hj.occupied (CapEntry.grants_file hj.grants)
  have hfile : k'.files i = k.files i := by
    rcases h.files i with heq | ⟨hclosed, _⟩
    · exact heq
    · rw [hj.isOpen] at hclosed
      cases hclosed
  exact ⟨hsame.token, hfile, hj.carried hsame hfile h.objects⟩

theorem FilesKept.of_isHandle (h : FilesKept k k') (hwf : TablesWf k.objects k.caps) {j : Fin maxCaps}
    {i : Fin tmpfsMaxOpenFiles} (hj : IsHandle k' j i) : IsHandle k j i := by
  have hsame := h.new j hj.occupied (CapEntry.grants_file hj.grants)
  have hfile : k'.files i = k.files i := by
    rcases h.files i with heq | ⟨_, hclosed⟩
    · exact heq
    · rw [hj.isOpen] at hclosed
      cases hclosed
  exact hj.carriedBack hsame hfile hwf h.objects

/-- The service accepts the same tokens for the same files. -/
theorem FilesKept.slot_iff (h : FilesKept k k') (hwf : TablesWf k.objects k.caps) (c : UInt64)
    (f : InitrdFile) :
    (∃ i, tmpfsSlotForCap k' c = .ok i ∧ (k'.files i).backing = f) ↔
      ∃ i, tmpfsSlotForCap k c = .ok i ∧ (k.files i).backing = f := by
  simp only [tmpfsSlotForCap_eq_ok h.wf, tmpfsSlotForCap_eq_ok hwf]
  constructor
  · rintro ⟨i, ⟨j, rfl, hj⟩, hf⟩
    have hold := h.of_isHandle hwf hj
    obtain ⟨htoken, hfile, _⟩ := h.isHandle hold
    exact ⟨i, ⟨j, htoken, hold⟩, hfile ▸ hf⟩
  · rintro ⟨i, ⟨j, rfl, hj⟩, hf⟩
    obtain ⟨htoken, hfile, hnew⟩ := h.isHandle hj
    exact ⟨i, ⟨j, htoken.symm, hnew⟩, by rw [hfile]; exact hf⟩

/-- Such a step keeps the invariant, if the log does not say that a file was opened or
    closed. -/
theorem HandlesOk.kept (h : HandlesOk initrd log k) (hkept : FilesKept k k')
    {e : FileCall × Except Err Message} (hopens : ∀ c f, ¬ Opens initrd e c f)
    (hcloses : ∀ c, ¬ Closes e c) : HandlesOk initrd (log ++ [e]) k' := by
  refine ⟨hkept.wf, hkept.archive.trans h.archive, ?_, ?_, ?_, ?_⟩
  · intro j hocc htype j' hocc' hid
    have hsame := hkept.new j hocc htype
    have hocc₀ : k.caps.occupied j = true := hsame.occupied ▸ hocc
    -- The other token is for the same object, so it is for a file too.
    have htype' : (k'.caps.entry j').objectType = ObjType.file := by
      obtain ⟨ob, hob, _, _, hty⟩ := hkept.wf.object j hocc
      obtain ⟨ob', hob', _, _, hty'⟩ := hkept.wf.object j' hocc'
      rw [hid] at hob'
      obtain rfl := Except.ok.inj (hob.symm.trans hob')
      rw [← hty', hty, htype]
    have hsame' := hkept.new j' hocc' htype'
    have hid₀ : (k.caps.entry j').objectId = (k.caps.entry j).objectId := by
      rw [← hsame.1, ← hsame'.1]
      exact hid
    exact h.sole j hocc₀ (hsame.1 ▸ htype) j' (hsame'.occupied ▸ hocc') hid₀
  · intro c f
    rw [hkept.slot_iff h.wf, h.accepts, openAs_concat]
    simp [hopens, hcloses]
  · intro c hc
    rw [openedIn_concat] at hc
    obtain ⟨j, hocc, htoken, htype⟩ := h.live c (hc.resolve_right fun ⟨f, hf⟩ => hopens c f hf)
    have hsame := hkept.old j hocc htype
    exact ⟨j, hsame.occupied.trans hocc, hsame.token.trans htoken, by rw [hsame.1]; exact htype⟩
  · intro c hc
    rw [closedIn_concat] at hc
    obtain ⟨hopened, hnot⟩ := h.closed c (hc.resolve_right (hcloses c))
    refine ⟨openedIn_concat.mpr (.inl hopened), fun f hf => ?_⟩
    rcases openAs_concat.mp hf with hnew | ⟨hold, _⟩
    · exact hopens c f hnew
    · exact hnot f hold

end kept

/-! ## Opening -/

/-- A step that opens the file `f` in slot `i` and mints the token `t` for it. -/
structure FileOpened (k k' : Kernel δ) (t : UInt64) (f : InitrdFile) : Prop where
  made : ∃ i id ob j objects, (k.files i).isOpen = false ∧
    objectCreate k.objects ObjType.file bootCore 0 (.file i) = (.ok id, objects) ∧
    objectLookup objects id = .ok ob ∧ k.caps.occupied j = false ∧
    t = (k.caps.mintSlot j ob Right.read).token j ∧ k'.objects = objects ∧
    k'.caps = k.caps.mintSlot j ob Right.read ∧
    k'.files = Function.update k.files i ⟨id, t, f, true⟩
  archive : k'.initrd = k.initrd

section opened

variable {initrd : Initrd} {log : FileLog} {k k' : Kernel δ} {t : UInt64} {f : InitrdFile}

/-- What `tmpfs_handle_open` does: it opens a file, or the tokens of files do not
    notice. -/
theorem openFile_cases (hwf : TablesWf k.objects k.caps) {i : Fin tmpfsMaxOpenFiles}
    (hi : (k.files i).isOpen = false) (f : InitrdFile) :
    (∃ e, (k.openFile f i).1 = .error e ∧ FilesKept k (k.openFile f i).2) ∨
      ((k.openFile f i).1 = .ok () ∧
        FileOpened k (k.openFile f i).2 (k.openFile f i).2.msg.arg0 f) := by
  unfold Kernel.openFile
  rcases hc : objectCreate k.objects ObjType.file bootCore 0 (.file i) with ⟨_ | id, objects⟩
  · have hgrown := tablesGrown_objectCreate k.caps hc
    refine .inl ⟨_, rfl, hgrown.wf hwf, rfl, ?_, fun j _ _ => .refl _ j, fun j _ _ => .refl _ j,
      fun i' => .inl rfl⟩
    exact fun id ob hob => hgrown.lookup hwf hob
  · dsimp only
    rcases capCreate_cases objects k.caps id Right.read with
      ⟨e, hcap⟩ | ⟨j, ob, hr, hob, hfree, hcap⟩
    · rw [hcap]
      have hgrown : TablesGrown ObjType.file (.file i) k.objects k.caps objects k.caps := .object hc
      refine .inl ⟨e, rfl, hgrown.wf hwf, rfl, ?_, fun j _ _ => .refl _ j, fun j _ _ => .refl _ j, ?_⟩
      · exact fun id ob hob => hgrown.lookup hwf hob
      · intro i'
        by_cases hii : i' = i
        · right
          subst hii
          simp [hi]
        · left
          simp [hii]
    · rw [hcap]
      exact .inr ⟨rfl, ⟨i, id, ob, j, objects, hi, hc, hob, hfree, rfl, rfl, rfl, rfl⟩, rfl⟩

/-- The slot of the file, its object, and the slot of the token for it. -/
structure OpenedAt (k k' : Kernel δ) (t : UInt64) (f : InitrdFile) (i : Fin tmpfsMaxOpenFiles)
    (j : Fin maxCaps) (id : UInt64) (ob : Object) : Prop where
  isFree : (k.files i).isOpen = false
  created : objectCreate k.objects ObjType.file bootCore 0 (.file i) = (.ok id, k'.objects)
  object : objectLookup k'.objects id = .ok ob
  unused : k.caps.occupied j = false
  token : k'.caps.token j = t
  caps : k'.caps = k.caps.mintSlot j ob Right.read
  files : k'.files = Function.update k.files i ⟨id, t, f, true⟩

theorem FileOpened.openedAt (h : FileOpened k k' t f) : ∃ i j id ob, OpenedAt k k' t f i j id ob := by
  obtain ⟨⟨i, id, ob, j, objects, hi, hc, hob, hfree, ht, rfl, hcaps, hfiles⟩, _⟩ := h
  exact ⟨i, j, id, ob, hi, hc, hob, hfree, by rw [hcaps, ht], hcaps, hfiles⟩

namespace OpenedAt

variable {i i' : Fin tmpfsMaxOpenFiles} {j j' : Fin maxCaps} {id : UInt64} {ob : Object}

theorem grown (h : OpenedAt k k' t f i j id ob) :
    TablesGrown ObjType.file (.file i) k.objects k.caps k'.objects k'.caps := by
  rw [h.caps]
  exact .token h.created h.object (by decide) h.unused

theorem object_eq (h : OpenedAt k k' t f i j id ob) (hwf : TablesWf k.objects k.caps) :
    ∃ generation, ob = ⟨id, ObjType.file, generation, bootCore, 0, .file i⟩ := by
  obtain ⟨generation, hnew⟩ := objectLookup_of_objectCreate hwf.objects h.created
  exact ⟨generation, Except.ok.inj (h.object.symm.trans hnew)⟩

theorem file_self (h : OpenedAt k k' t f i j id ob) : k'.files i = ⟨id, t, f, true⟩ := by
  rw [h.files, Function.update_self]

theorem file_of_ne (h : OpenedAt k k' t f i j id ob) (hii : i' ≠ i) : k'.files i' = k.files i' := by
  rw [h.files, Function.update_of_ne hii]

/-- The new token was not live before. -/
theorem dead (h : OpenedAt k k' t f i j id ob) (hocc : k.caps.occupied j' = true) :
    k.caps.token j' ≠ t := by
  intro heq
  rw [← h.token, h.caps] at heq
  obtain rfl := CapTable.token_injective heq
  rw [h.unused] at hocc
  cases hocc

theorem isHandle (h : OpenedAt k k' t f i j id ob) (hwf : TablesWf k.objects k.caps) :
    IsHandle k' j i := by
  have hwf' := h.grown.wf hwf
  obtain ⟨generation, rfl⟩ := h.object_eq hwf
  refine ⟨?_, ?_, ⟨⟨id, ObjType.file, generation, bootCore, 0, .file i⟩, ?_, rfl⟩, ?_, ?_⟩
  · rw [h.caps]
    exact CapTable.mintSlot_occupied_self hwf'.objects k.caps j Right.read h.object
  · rw [h.caps, CapTable.mintSlot_entry_self]
    exact ⟨.inr rfl, by simp⟩
  · rw [h.caps, CapTable.mintSlot_entry_self]
    exact h.object
  · rw [h.caps, CapTable.mintSlot_entry_self, h.file_self]
  · rw [h.file_self]

/-- The old tokens are as before. -/
theorem kept (h : OpenedAt k k' t f i j id ob) (hwf : TablesWf k.objects k.caps)
    (hj : IsHandle k j' i') :
    k'.caps.token j' = k.caps.token j' ∧ k'.files i' = k.files i' ∧ IsHandle k' j' i' := by
  have hsame := h.grown.sameSlot hj.occupied
  have hii : i' ≠ i := by
    rintro rfl
    have hfree := h.isFree
    rw [hj.isOpen] at hfree
    cases hfree
  have hfile := h.file_of_ne hii
  exact ⟨hsame.token, hfile, hj.carried hsame hfile fun _ _ hob => h.grown.lookup hwf hob⟩

/-- Only one token is new. -/
theorem back (h : OpenedAt k k' t f i j id ob) (hwf : TablesWf k.objects k.caps)
    (hj : IsHandle k' j' i') : (j' = j ∧ i' = i) ∨ IsHandle k j' i' := by
  obtain ⟨ob', hob', hpayload⟩ := hj.object
  by_cases hjj : j' = j
  · left
    refine ⟨hjj, ?_⟩
    obtain ⟨generation, rfl⟩ := h.object_eq hwf
    rw [hjj, h.caps, CapTable.mintSlot_entry_self, h.object] at hob'
    obtain rfl := Except.ok.inj hob'
    exact (Payload.file.inj hpayload).symm
  · right
    have hsame : k.caps.SameSlot k'.caps j' := by
      rw [h.caps]
      exact CapTable.sameSlot_mintSlot hjj _ _
    have hocc : k.caps.occupied j' = true := hsame.occupied ▸ hj.occupied
    have hii : i' ≠ i := by
      rintro rfl
      have hslot := hj.slot
      rw [h.file_self, hsame.1] at hslot
      exact hwf.objectId_ne (objectLookup_fresh hwf.objects h.created) hocc hslot.symm
    exact hj.carriedBack hsame (h.file_of_ne hii) hwf fun _ _ hob => h.grown.lookup hwf hob

/-- The tokens of files stay the only ones of their objects. -/
theorem sole (h : OpenedAt k k' t f i j id ob) (hwf : TablesWf k.objects k.caps)
    (hsole : ∀ j, k.caps.occupied j = true → (k.caps.entry j).objectType = ObjType.file →
      k.caps.Sole j) (hocc : k'.caps.occupied j' = true)
    (htype : (k'.caps.entry j').objectType = ObjType.file) : k'.caps.Sole j' := by
  have hfresh := objectLookup_fresh hwf.objects h.created
  obtain ⟨generation, rfl⟩ := h.object_eq hwf
  rw [h.caps] at hocc htype ⊢
  by_cases hjj : j' = j
  · rw [hjj]
    exact CapTable.sole_mintSlot_self hwf hfresh j Right.read
  · rw [CapTable.mintSlot_occupied_ne _ _ _ _ hjj] at hocc
    rw [CapTable.mintSlot_entry_ne _ _ _ _ hjj] at htype
    apply (hsole j' hocc htype).mintSlot hjj
    exact (hwf.objectId_ne hfresh hocc).symm

/-- What the service accepts, after and before. -/
theorem accepts_iff (h : OpenedAt k k' t f i j id ob) (hwf : TablesWf k.objects k.caps) (c : UInt64)
    (g : InitrdFile) : (∃ i, tmpfsSlotForCap k' c = .ok i ∧ (k'.files i).backing = g) ↔
      (c = t ∧ g = f) ∨ ∃ i, tmpfsSlotForCap k c = .ok i ∧ (k.files i).backing = g := by
  simp only [tmpfsSlotForCap_eq_ok (h.grown.wf hwf), tmpfsSlotForCap_eq_ok hwf]
  constructor
  · rintro ⟨i', ⟨j', rfl, hj⟩, hg⟩
    rcases h.back hwf hj with ⟨rfl, rfl⟩ | hj
    · rw [h.file_self] at hg
      exact .inl ⟨h.token, hg.symm⟩
    · obtain ⟨htok, hfile, _⟩ := h.kept hwf hj
      exact .inr ⟨i', ⟨j', htok, hj⟩, hfile ▸ hg⟩
  · rintro (⟨rfl, rfl⟩ | ⟨i', ⟨j', rfl, hj⟩, hg⟩)
    · exact ⟨i, ⟨j, h.token.symm, h.isHandle hwf⟩, by rw [h.file_self]⟩
    · obtain ⟨htok, hfile, hj'⟩ := h.kept hwf hj
      exact ⟨i', ⟨j', htok.symm, hj'⟩, by rw [hfile]; exact hg⟩

end OpenedAt

/-- Opening keeps the invariant. -/
theorem HandlesOk.opened (h : HandlesOk initrd log k) (hopened : FileOpened k k' t f)
    {e : FileCall × Except Err Message} (hopens : ∀ c g, Opens initrd e c g ↔ c = t ∧ g = f)
    (hcloses : ∀ c, ¬ Closes e c) : HandlesOk initrd (log ++ [e]) k' := by
  obtain ⟨i, j, id, ob, hat⟩ := hopened.openedAt
  refine ⟨hat.grown.wf h.wf, hopened.archive.trans h.archive, fun j' => hat.sole h.wf h.sole, ?_, ?_,
    ?_⟩
  · intro c g
    rw [openAs_concat, hopens, ← h.accepts, hat.accepts_iff h.wf]
    simp only [hcloses, not_false_eq_true, and_true]
  · intro c hc
    rcases openedIn_concat.mp hc with hc | ⟨g, hg⟩
    · obtain ⟨j', hocc, htok, htype⟩ := h.live c hc
      have hsame := hat.grown.sameSlot hocc
      exact ⟨j', hsame.occupied.trans hocc, hsame.token.trans htok, by rw [hsame.1]; exact htype⟩
    · obtain ⟨rfl, _⟩ := (hopens c g).mp hg
      have hhandle := hat.isHandle h.wf
      exact ⟨j, hhandle.occupied, hat.token, CapEntry.grants_file hhandle.grants⟩
  · intro c hc
    obtain ⟨hin, hnot⟩ := h.closed c ((closedIn_concat.mp hc).resolve_right (hcloses c))
    refine ⟨openedIn_concat.mpr (.inl hin), fun g hg => ?_⟩
    rcases openAs_concat.mp hg with hg | ⟨hg, _⟩
    · -- The token would have been minted while it was live.
      obtain ⟨rfl, _⟩ := (hopens c g).mp hg
      obtain ⟨j', hocc, htok, _⟩ := h.live c hin
      exact hat.dead hocc htok
    · exact hnot g hg

end opened

/-! ## Closing -/

/-- The state after slot `i` was marked as free. -/
def Kernel.closeFile (k : Kernel δ) (i : Fin tmpfsMaxOpenFiles) : Kernel δ :=
  { k with files := Function.update k.files i { k.files i with isOpen := false } }

section closed

variable {initrd : Initrd} {log : FileLog} {k : Kernel δ} {t : UInt64} {i : Fin tmpfsMaxOpenFiles}

theorem isHandle_closeFile {j : Fin maxCaps} {i' : Fin tmpfsMaxOpenFiles} :
    IsHandle (k.closeFile i) j i' ↔ IsHandle k j i' ∧ i' ≠ i := by
  constructor
  · intro hj
    have hii : i' ≠ i := by
      rintro rfl
      have hopen := hj.isOpen
      simp [Kernel.closeFile] at hopen
    have hfile : (k.closeFile i).files i' = k.files i' := Function.update_of_ne hii _ _
    exact ⟨⟨hj.occupied, hj.grants, hj.object, hfile ▸ hj.slot, hfile ▸ hj.isOpen⟩, hii⟩
  · rintro ⟨hj, hii⟩
    have hfile : (k.closeFile i).files i' = k.files i' := Function.update_of_ne hii _ _
    exact ⟨hj.occupied, hj.grants, hj.object, by rw [hfile]; exact hj.slot,
      by rw [hfile]; exact hj.isOpen⟩

/-- Closing keeps the invariant. -/
theorem HandlesOk.closeFile (h : HandlesOk initrd log k) (hslot : tmpfsSlotForCap k t = .ok i)
    {e : FileCall × Except Err Message} (hopens : ∀ c g, ¬ Opens initrd e c g)
    (hcloses : ∀ c, Closes e c ↔ c = t) : HandlesOk initrd (log ++ [e]) (k.closeFile i) := by
  obtain ⟨j, rfl, hj⟩ := (tmpfsSlotForCap_eq_ok h.wf).mp hslot
  refine ⟨h.wf, h.archive, h.sole, ?_, ?_, ?_⟩
  · intro c g
    rw [openAs_concat, hcloses, ← h.accepts]
    have hwf' : TablesWf (k.closeFile i).objects (k.closeFile i).caps := h.wf
    simp only [tmpfsSlotForCap_eq_ok hwf', tmpfsSlotForCap_eq_ok h.wf, isHandle_closeFile, hopens,
      false_or]
    constructor
    · rintro ⟨i', ⟨j', rfl, hj', hii⟩, hg⟩
      have hfile : (k.closeFile i).files i' = k.files i' := Function.update_of_ne hii _ _
      refine ⟨⟨i', ⟨j', rfl, hj'⟩, hfile ▸ hg⟩, fun heq => hii ?_⟩
      -- One token is for one file slot.
      obtain rfl := CapTable.token_injective heq
      exact Except.ok.inj (((tmpfsSlotForCap_eq_ok h.wf).mpr ⟨j', rfl, hj'⟩).symm.trans hslot)
    · rintro ⟨⟨i', ⟨j', rfl, hj'⟩, hg⟩, hne⟩
      have hii : i' ≠ i := by
        rintro rfl
        -- Two tokens of one file slot are for one object, which has one token.
        have hid : (k.caps.entry j').objectId = (k.caps.entry j).objectId :=
          hj'.slot.symm.trans hj.slot
        have hjj := h.sole j hj.occupied (CapEntry.grants_file hj.grants) j' hj'.occupied hid
        exact hne (by rw [hjj])
      have hfile : (k.closeFile i).files i' = k.files i' := Function.update_of_ne hii _ _
      exact ⟨i', ⟨j', rfl, hj', hii⟩, by rw [hfile]; exact hg⟩
  · intro c hc
    exact h.live c ((openedIn_concat.mp hc).resolve_right fun ⟨g, hg⟩ => hopens c g hg)
  · intro c hc
    rcases closedIn_concat.mp hc with hold | hnew
    · obtain ⟨hin, hnot⟩ := h.closed c hold
      refine ⟨openedIn_concat.mpr (.inl hin), fun g hg => ?_⟩
      rcases openAs_concat.mp hg with hg | ⟨hg, _⟩
      · exact hopens c g hg
      · exact hnot g hg
    · obtain rfl := (hcloses c).mp hnew
      have hopen := (h.accepts _ (k.files i).backing).mp ⟨i, hslot, rfl⟩
      refine ⟨openedIn_concat.mpr (.inl hopen.openedIn), fun g hg => ?_⟩
      rcases openAs_concat.mp hg with hg | ⟨_, hnot⟩
      · exact hopens _ g hg
      · exact hnot hnew

end closed

/-! ## Steps -/

/-- The tables and the files are the same. -/
structure SameFiles (k k' : Kernel δ) : Prop where
  objects : k'.objects = k.objects
  caps : k'.caps = k.caps
  files : k'.files = k.files
  archive : k'.initrd = k.initrd

instance : IsPreorder (Kernel δ) SameFiles where
  refl := fun _ => ⟨rfl, rfl, rfl, rfl⟩
  trans := fun _ _ _ h h' => ⟨h'.objects.trans h.objects, h'.caps.trans h.caps,
    h'.files.trans h.files, h'.archive.trans h.archive⟩

theorem SameFiles.kept {k k' : Kernel δ} (h : SameFiles k k') (hwf : TablesWf k.objects k.caps) :
    FilesKept k k' := by
  refine ⟨?_, h.archive, ?_, ?_, ?_, fun i => .inl (congrFun h.files i)⟩
  · rw [h.objects, h.caps]
    exact hwf
  · rw [h.objects]
    exact fun _ _ hob => hob
  · rw [h.caps]
    exact fun j _ _ => .refl _ j
  · rw [h.caps]
    exact fun j _ _ => .refl _ j

theorem sameFiles_tmpfsHandleStat : Effect.Within SameFiles (tmpfsHandleStat : K δ Unit) := by
  refine .bind (Effect.within_ask _) fun path => ?_
  refine .bind (Effect.within_ask _) fun answer => ?_
  exact Effect.within_modify fun _ => ⟨rfl, rfl, rfl, rfl⟩

theorem sameFiles_tmpfsHandleListdir : Effect.Within SameFiles (tmpfsHandleListdir : K δ Unit) := by
  refine .bind (Effect.within_ask _) fun msg => ?_
  refine .bind (Effect.within_require _ _) fun _ => ?_
  refine .bind (Effect.within_ask _) fun path => ?_
  refine .bind (Effect.within_ask _) fun queryLen => ?_
  refine .bind Effect.within_get fun k => ?_
  refine .bind (Effect.within_modify fun _ => ⟨rfl, rfl, rfl, rfl⟩) fun _ => ?_
  refine .bind (Effect.within_modify fun _ => ⟨rfl, rfl, rfl, rfl⟩) fun _ => ?_
  refine .bind (Effect.within_modify fun _ => ⟨rfl, rfl, rfl, rfl⟩) fun _ => ?_
  refine .bind (Effect.within_ask _) fun _ => ?_
  exact Effect.within_modify fun _ => ⟨rfl, rfl, rfl, rfl⟩

theorem sameFiles_readFile (k : Kernel δ) (f : InitrdFile) : SameFiles k (k.readFile f).2 := by
  unfold Kernel.readFile
  split
  · exact ⟨rfl, rfl, rfl, rfl⟩
  split
  · exact ⟨rfl, rfl, rfl, rfl⟩
  · exact ⟨rfl, rfl, rfl, rfl⟩

theorem tmpfsEndpointHandler_run (k : Kernel δ) :
    (tmpfsEndpointHandler : K δ Unit) k =
      if k.msg.type = Msg.openFile then tmpfsHandleOpen k
      else if k.msg.type = Msg.stat then tmpfsHandleStat k
      else if k.msg.type = Msg.listdir then tmpfsHandleListdir k
      else if k.msg.type = Msg.read then tmpfsHandleRead k
      else if k.msg.type = Msg.close then tmpfsHandleClose k
      else (.error .notsup, k) := by
  unfold tmpfsEndpointHandler
  rw [Effect.bind_of_ok (show K.msg k = (.ok k.msg, k) from rfl)]
  split_ifs <;> rfl

section types

variable {k : Kernel δ}

theorem tmpfsEndpointHandler_open (h : k.msg.type = Msg.openFile) :
    (tmpfsEndpointHandler : K δ Unit) k = tmpfsHandleOpen k := by
  rw [tmpfsEndpointHandler_run, if_pos h]

theorem tmpfsEndpointHandler_read (h : k.msg.type = Msg.read) :
    (tmpfsEndpointHandler : K δ Unit) k = tmpfsHandleRead k := by
  rw [tmpfsEndpointHandler_run, h]
  rfl

theorem tmpfsEndpointHandler_close (h : k.msg.type = Msg.close) :
    (tmpfsEndpointHandler : K δ Unit) k = tmpfsHandleClose k := by
  rw [tmpfsEndpointHandler_run, h]
  rfl

end types

section step

variable {initrd : Initrd} {log : FileLog} {k : Kernel δ}

/-- The log after a message. -/
abbrev afterMessage (log : FileLog) (msg : Message) (payload : List UInt8)
    (x : Except Err Unit × Kernel δ) : FileLog :=
  log ++ [(.message msg payload, x.1.map fun _ => x.2.msg)]

/-- A message that opens and closes no file. -/
theorem HandlesOk.silent {msg : Message} {payload : List UInt8} {x : Except Err Unit × Kernel δ}
    (h : HandlesOk initrd log k) (hkept : FilesKept k x.2)
    (hsilent : (∃ e, x.1 = .error e) ∨ (msg.type ≠ Msg.openFile ∧ msg.type ≠ Msg.close)) :
    HandlesOk initrd (afterMessage log msg payload x) x.2 := by
  apply h.kept hkept
  · rintro c f ⟨msg', payload', answer, heq, htype, _⟩
    obtain ⟨hcall, hanswer⟩ := Prod.mk.inj heq
    obtain ⟨rfl, rfl⟩ := FileCall.message.inj hcall
    rcases hsilent with ⟨e, he⟩ | ⟨hopen, _⟩
    · rw [he] at hanswer
      cases hanswer
    · exact hopen htype
  · rintro c ⟨msg', payload', answer, heq, htype, _⟩
    obtain ⟨hcall, hanswer⟩ := Prod.mk.inj heq
    obtain ⟨rfl, rfl⟩ := FileCall.message.inj hcall
    rcases hsilent with ⟨e, he⟩ | ⟨_, hclose⟩
    · rw [he] at hanswer
      cases hanswer
    · exact hclose htype

theorem HandlesOk.openMessage (h : HandlesOk initrd log k) (htype : k.msg.type = Msg.openFile) :
    HandlesOk initrd (afterMessage log k.msg k.payload (tmpfsHandleOpen k)) (tmpfsHandleOpen k).2 := by
  have hrefl : FilesKept k k := (refl k : SameFiles k k).kept h.wf
  rw [tmpfsHandleOpen_run]
  cases hf : k.initrd.resolves k.msg k.payload with
  | error e => exact h.silent hrefl (.inl ⟨e, rfl⟩)
  | ok f =>
    dsimp only
    split
    · exact h.silent hrefl (.inl ⟨.nomem, rfl⟩)
    · next i hsome =>
      have hi : (k.files i).isOpen = false := by simpa using (Slots.firstSlot_eq_some hsome).1
      rcases openFile_cases h.wf hi f with ⟨e, he, hkept⟩ | ⟨hok, hopened⟩
      · exact h.silent hkept (.inl ⟨e, he⟩)
      · apply h.opened hopened
        · intro c g
          constructor
          · rintro ⟨msg', payload', answer, heq, _, hg, rfl⟩
            obtain ⟨hcall, hanswer⟩ := Prod.mk.inj heq
            obtain ⟨rfl, rfl⟩ := FileCall.message.inj hcall
            rw [hok] at hanswer
            rw [← h.archive, hf] at hg
            exact ⟨congrArg Message.arg0 (Except.ok.inj hanswer).symm, (Except.ok.inj hg).symm⟩
          · rintro ⟨rfl, rfl⟩
            refine ⟨k.msg, k.payload, _, by rw [hok]; rfl, htype, ?_, rfl⟩
            rw [← h.archive]
            exact hf
        · rintro c ⟨msg', payload', answer, heq, hclose, _⟩
          obtain ⟨rfl, rfl⟩ := FileCall.message.inj (Prod.mk.inj heq).1
          rw [htype] at hclose
          cases hclose

theorem HandlesOk.closeMessage (h : HandlesOk initrd log k) (htype : k.msg.type = Msg.close) :
    HandlesOk initrd (afterMessage log k.msg k.payload (tmpfsHandleClose k))
      (tmpfsHandleClose k).2 := by
  rw [tmpfsHandleClose_run]
  cases hslot : tmpfsSlotForCap k k.msg.arg0 with
  | error e => exact h.silent ((refl k : SameFiles k k).kept h.wf) (.inl ⟨e, rfl⟩)
  | ok i =>
    apply h.closeFile hslot
    · rintro c f ⟨msg', payload', answer, heq, hopen, _⟩
      obtain ⟨rfl, rfl⟩ := FileCall.message.inj (Prod.mk.inj heq).1
      rw [htype] at hopen
      cases hopen
    · intro c
      constructor
      · rintro ⟨msg', payload', answer, heq, _, rfl⟩
        obtain ⟨rfl, rfl⟩ := FileCall.message.inj (Prod.mk.inj heq).1
        rfl
      · rintro rfl
        exact ⟨k.msg, k.payload, _, rfl, htype, rfl⟩

/-- One message. -/
theorem HandlesOk.message (h : HandlesOk initrd log k) :
    HandlesOk initrd (afterMessage log k.msg k.payload (tmpfsEndpointHandler k))
      (tmpfsEndpointHandler k).2 := by
  rw [tmpfsEndpointHandler_run]
  -- Only opening and closing change the table of files.
  split
  · next htype => exact h.openMessage htype
  next hopen =>
  split
  · next htype =>
    apply h.silent ((sameFiles_tmpfsHandleStat k).kept h.wf)
    rw [htype]
    exact .inr ⟨by decide, by decide⟩
  split
  · next htype =>
    apply h.silent ((sameFiles_tmpfsHandleListdir k).kept h.wf)
    rw [htype]
    exact .inr ⟨by decide, by decide⟩
  split
  · next htype =>
    have hsame : SameFiles k (tmpfsHandleRead k).2 := by
      rw [tmpfsHandleRead_run]
      split
      · exact refl k
      split
      · exact refl k
      · exact sameFiles_readFile k _
    apply h.silent (hsame.kept h.wf)
    rw [htype]
    exact .inr ⟨by decide, by decide⟩
  split
  · next htype => exact h.closeMessage htype
  · exact h.silent ((refl k : SameFiles k k).kept h.wf) (.inl ⟨.notsup, rfl⟩)

/-- The invariant does not depend on the message in the kernel state. -/
theorem HandlesOk.withMessage (h : HandlesOk initrd log k) (msg : Message) (payload : List UInt8) :
    HandlesOk initrd log { k with msg := msg, payload := payload } :=
  ⟨h.wf, h.archive, h.sole, h.accepts, h.live, h.closed⟩

/-- The other calls. -/
theorem HandlesOk.other (h : HandlesOk initrd log k) {call : FileCall} {k' : Kernel δ}
    {answer : Except Err Message} (hkept : FilesKept k k')
    (hcall : ∀ msg payload, call ≠ .message msg payload) :
    HandlesOk initrd (log ++ [(call, answer)]) k' := by
  apply h.kept hkept
  · rintro c f ⟨msg, payload, answer, heq, _⟩
    exact hcall msg payload (Prod.mk.inj heq).1
  · rintro c ⟨msg, payload, answer, heq, _⟩
    exact hcall msg payload (Prod.mk.inj heq).1

/-- Making an object that is not a file. -/
theorem filesKept_objectCreate (hwf : TablesWf k.objects k.caps) (type ownerCore flags : UInt32)
    (payload : Payload) :
    FilesKept k { k with objects := (objectCreate k.objects type ownerCore flags payload).2 } where
  wf := tablesWf_objectCreate hwf type ownerCore flags payload
  archive := rfl
  objects := fun _ _ hob => objectLookup_objectCreate hwf.objects hob type ownerCore flags payload
  old := fun j _ _ => .refl _ j
  new := fun j _ _ => .refl _ j
  files := fun _ => .inl rfl

/-- Minting for an object that is not a file. -/
theorem filesKept_capCreate (hwf : TablesWf k.objects k.caps) {objectId : UInt64} (rights : UInt64)
    (hguard : ∀ ob, objectLookup k.objects objectId = .ok ob → ob.type ≠ ObjType.file) :
    FilesKept k { k with caps := (capCreate k.objects k.caps objectId rights).2 } := by
  rcases capCreate_cases k.objects k.caps objectId rights with
    ⟨e, heq⟩ | ⟨i, ob, hr, hob, hfree, heq⟩
  · rw [heq]
    exact (refl k : SameFiles k k).kept hwf
  · rw [heq]
    refine ⟨tablesWf_mintSlot hwf i hr hob, rfl, fun _ _ h => h, ?_, ?_, fun _ => .inl rfl⟩
    · intro j hocc _
      exact CapTable.sameSlot_mintSlot (CapTable.ne_of_occupied hfree hocc) ob rights
    · intro j _ htype
      apply CapTable.sameSlot_mintSlot
      rintro rfl
      rw [CapTable.mintSlot_entry_self] at htype
      exact hguard ob hob htype

/-- Revoking a token that is not for a file. -/
theorem filesKept_capRevoke (hwf : TablesWf k.objects k.caps) {cap : UInt64}
    (hguard : ∀ entry, capLookup k.objects k.caps cap = .ok entry →
      entry.objectType ≠ ObjType.file) :
    FilesKept k { k with caps := (capRevoke k.objects k.caps cap).2 } := by
  rcases capRevoke_cases hwf cap with ⟨e, _, heq⟩ | ⟨i, hocc, htoken, heq⟩
  · rw [heq]
    exact (refl k : SameFiles k k).kept hwf
  · rw [heq]
    have htype := hguard _ ((capLookup_eq_ok hwf).mpr ⟨i, hocc, htoken, rfl⟩)
    refine ⟨tablesWf_revokeSlot hwf i, rfl, fun _ _ h => h, ?_, ?_, fun _ => .inl rfl⟩
    · intro j _ htype'
      apply CapTable.sameSlot_revokeSlot
      rintro rfl
      exact htype htype'
    · intro j hocc' _
      apply CapTable.sameSlot_revokeSlot
      rintro rfl
      rw [CapTable.revokeSlot_occupied_self] at hocc'
      cases hocc'

/-- One call. -/
theorem HandlesOk.step (h : HandlesOk initrd log k) {call : FileCall} (hguard : FileGuard k call) :
    HandlesOk initrd (log ++ [(call, (fileStep k call).1)]) (fileStep k call).2 := by
  cases call with
  | message msg payload => exact (h.withMessage msg payload).message
  | context v frames =>
    exact h.other (SameFiles.kept ⟨rfl, rfl, rfl, rfl⟩ h.wf) nofun
  | objectCreate type ownerCore flags payload =>
    exact h.other (filesKept_objectCreate h.wf type ownerCore flags payload) nofun
  | capCreate objectId rights => exact h.other (filesKept_capCreate h.wf rights hguard) nofun
  | capRevoke cap => exact h.other (filesKept_capRevoke h.wf hguard) nofun

end step

theorem FileStart.handlesOk {initrd : Initrd} {k : Kernel δ} (h : FileStart initrd k) :
    HandlesOk initrd [] k := by
  refine ⟨h.wf, h.initrd, ?_, ?_, ?_, ?_⟩
  · intro j hocc htype
    obtain ⟨ob, hob, _, _, hty⟩ := h.wf.object j hocc
    exact absurd (hty.trans htype) (h.objects _ ob hob)
  · intro c f
    constructor
    · rintro ⟨i, hslot, _⟩
      obtain ⟨j, _, hj⟩ := (tmpfsSlotForCap_eq_ok h.wf).mp hslot
      have hopen := hj.isOpen
      rw [h.closed i] at hopen
      cases hopen
    · rintro ⟨pre, e, post, hlog, _⟩
      cases pre with
      | nil => cases hlog
      | cons _ _ => cases hlog
  · rintro c ⟨e, he, _⟩
    cases he
  · rintro c ⟨e, he, _⟩
    cases he

theorem handlesOk_run {initrd : Initrd} {log : FileLog} {k : Kernel δ}
    (hrun : (fileSystem δ initrd).RunWhen FileGuard log k) : HandlesOk initrd log k := by
  induction hrun with
  | init h => exact h.handlesOk
  | step call _ hguard ih => exact ih.step hguard

/-! ## Handles are exact -/

/-- What READ answers for the file `f`: the number of bytes, with the bytes at the
    buffer. -/
structure Delivers (k : Kernel δ) (msg : Message) (f : InitrdFile) (k' : Kernel δ) : Prop where
  count : k'.msg.arg0.toNat =
    if msg.arg3 = 0 then 0 else min msg.arg3.toNat (f.size - msg.arg1).toNat
  bytes : k'.frames = storeBytes k.vmm k.frames msg.arg2
    ((f.data.drop msg.arg1.toNat).take k'.msg.arg0.toNat)

theorem readFile_eq_ok {k k' : Kernel δ} {f : InitrdFile} (h : k.readFile f = (.ok (), k')) :
    Delivers k k.msg f k' := by
  unfold Kernel.readFile at h
  split at h
  · next hzero =>
    obtain ⟨_, rfl⟩ := Prod.mk.inj h
    exact ⟨by simp [hzero], by simp [storeBytes]⟩
  next hne =>
  split at h
  · cases h
  · obtain ⟨_, rfl⟩ := Prod.mk.inj h
    refine ⟨?_, rfl⟩
    dsimp only
    rw [if_neg hne]
    split
    · next hlt => exact (min_eq_left (UInt64.lt_iff_toNat_lt.mp hlt).le).symm
    · next hle => exact (min_eq_right (UInt64.le_iff_toNat_le.mp (UInt64.not_lt.mp hle))).symm

theorem readFile_ok_iff {k : Kernel δ} {f : InitrdFile} :
    (k.readFile f).1 = .ok () ↔ k.msg.arg3 = 0 ∨ k.msg.arg1 ≤ f.size := by
  unfold Kernel.readFile
  split
  · next hzero => simp [hzero]
  next hne =>
  split
  · next hlt => simp [hne, UInt64.not_le.mpr hlt]
  · next hle => simp [UInt64.not_lt.mp hle]

section answers

variable (k : Kernel δ) {msg : Message} (payload : List UInt8)

theorem fileStep_read (htype : msg.type = Msg.read) (hbuffer : msg.arg2 ≠ 0) :
    fileStep k (.message msg payload) =
      match tmpfsSlotForCap k msg.arg0 with
      | .error e => (.error e, { k with msg := msg, payload := payload })
      | .ok i =>
        let x := { k with msg := msg, payload := payload }.readFile (k.files i).backing
        (x.1.map fun _ => x.2.msg, x.2) := by
  have hrun := @tmpfsEndpointHandler_read δ { k with msg := msg, payload := payload } htype
  have hslot : tmpfsSlotForCap { k with msg := msg, payload := payload } msg.arg0 =
      tmpfsSlotForCap k msg.arg0 := rfl
  unfold fileStep
  simp only [hrun, tmpfsHandleRead_run, if_neg hbuffer, hslot]
  cases tmpfsSlotForCap k msg.arg0 with
  | error e => rfl
  | ok i => rfl

theorem fileStep_close (htype : msg.type = Msg.close) :
    fileStep k (.message msg payload) =
      match tmpfsSlotForCap k msg.arg0 with
      | .error e => (.error e, { k with msg := msg, payload := payload })
      | .ok i => (.ok msg, { k with msg := msg, payload := payload }.closeFile i) := by
  have hrun := @tmpfsEndpointHandler_close δ { k with msg := msg, payload := payload } htype
  have hslot : tmpfsSlotForCap { k with msg := msg, payload := payload } msg.arg0 =
      tmpfsSlotForCap k msg.arg0 := rfl
  unfold fileStep
  simp only [hrun, tmpfsHandleClose_run, hslot]
  cases tmpfsSlotForCap k msg.arg0 with
  | error e => rfl
  | ok i => rfl

end answers

theorem Except.map_eq_ok_iff {ε α β : Type} {r : Except ε α} {g : α → β} :
    (∃ b, r.map g = .ok b) ↔ ∃ a, r = .ok a := by
  cases r with
  | error e => simp [Except.map]
  | ok a => simp [Except.map]

/-- **File handles are exact.**  After any run, READ with a buffer succeeds exactly for
    a token that is open and, if bytes are asked for, an offset within its file, and
    then delivers the bytes there; CLOSE succeeds exactly for such a token; and a token
    that was closed is not open again. -/
theorem handles_exact {initrd : Initrd} {log : FileLog} {k : Kernel δ}
    (hrun : (fileSystem δ initrd).RunWhen FileGuard log k) (msg : Message) (payload : List UInt8) :
    (msg.type = Msg.read → msg.arg2 ≠ 0 →
      ((∃ answer, (fileStep k (.message msg payload)).1 = .ok answer) ↔
        ∃ f, OpenAs initrd log msg.arg0 f ∧ (msg.arg3 = 0 ∨ msg.arg1 ≤ f.size)) ∧
      ∀ f answer, OpenAs initrd log msg.arg0 f →
        (fileStep k (.message msg payload)).1 = .ok answer →
        Delivers k msg f (fileStep k (.message msg payload)).2) ∧
    (msg.type = Msg.close →
      ((∃ answer, (fileStep k (.message msg payload)).1 = .ok answer) ↔
        ∃ f, OpenAs initrd log msg.arg0 f)) ∧
    ∀ c, ClosedIn log c → ∀ f, ¬ OpenAs initrd log c f := by
  have h := handlesOk_run hrun
  refine ⟨fun htype hbuffer => ?_, fun htype => ?_, fun c hc => (h.closed c hc).2⟩
  · rw [fileStep_read k payload htype hbuffer]
    cases hslot : tmpfsSlotForCap k msg.arg0 with
    | error e =>
      -- No file is open under the token.
      have hnone : ∀ f, ¬ OpenAs initrd log msg.arg0 f := by
        intro f hf
        obtain ⟨i, hi, _⟩ := (h.accepts _ f).mpr hf
        rw [hslot] at hi
        cases hi
      exact ⟨⟨nofun, fun ⟨f, hf, _⟩ => absurd hf (hnone f)⟩, fun f _ hf => absurd hf (hnone f)⟩
    | ok i =>
      have hopen : ∀ f, OpenAs initrd log msg.arg0 f ↔ f = (k.files i).backing := by
        intro f
        rw [← h.accepts, hslot]
        simp [eq_comm]
      dsimp only
      constructor
      · rw [Except.map_eq_ok_iff]
        simp only [hopen, exists_eq_left]
        exact ⟨fun ⟨_, ha⟩ => readFile_ok_iff.mp ha, fun ha => ⟨(), readFile_ok_iff.mpr ha⟩⟩
      · intro f answer hf hanswer
        obtain rfl := (hopen f).mp hf
        obtain ⟨u, hok⟩ := Except.map_eq_ok_iff.mp ⟨answer, hanswer⟩
        have hdelivers := readFile_eq_ok (Prod.ext hok rfl)
        exact ⟨hdelivers.count, hdelivers.bytes⟩
  · rw [fileStep_close k payload htype]
    cases hslot : tmpfsSlotForCap k msg.arg0 with
    | error e =>
      refine ⟨nofun, fun ⟨f, hf⟩ => ?_⟩
      obtain ⟨i, hi, _⟩ := (h.accepts _ f).mpr hf
      rw [hslot] at hi
      cases hi
    | ok i =>
      exact ⟨fun _ => ⟨_, (h.accepts _ _).mp ⟨i, hslot, rfl⟩⟩, fun _ => ⟨msg, rfl⟩⟩

/-! ### A slot that is used again -/

/-- A file of three bytes with the path `/a`. -/
def noteFile : InitrdFile := ⟨[47, 97], [10, 20, 30], 0⟩

def noteArchive : Initrd := ⟨[noteFile], true⟩

def openNote : FileCall :=
  .message { messageInit 0 0 Msg.openFile with arg0 := 0x1000, arg1 := 2 } [47, 97]

def closeNote (c : UInt64) : FileCall := .message { messageInit 0 0 Msg.close with arg0 := c } []

/-- READ of two bytes at offset 1. -/
def readNote (c : UInt64) : Message :=
  { messageInit 0 0 Msg.read with arg0 := c, arg1 := 1, arg2 := 0x200000, arg3 := 2 }

/-- The file was opened, closed and opened again. -/
def reopened : Kernel Unit :=
  (fileSystem Unit noteArchive).exec (Kernel.zero noteArchive)
    [openNote, closeNote (firstToken 0), openNote]

/-- The new token is good, and the old one is refused, although both are live and their
    objects point to the same file slot. -/
theorem handles_exact_reopened :
    (∃ answer, (fileStep reopened (.message (readNote (firstToken 1)) [])).1 = .ok answer) ∧
      ¬ ∃ answer, (fileStep reopened (.message (readNote (firstToken 0)) [])).1 = .ok answer := by
  have hinit : (fileSystem Unit noteArchive).init (Kernel.zero noteArchive) := by
    refine ⟨tablesWf_zero, ?_, fun _ => rfl, rfl⟩
    intro id ob hob
    obtain ⟨j, rfl, htype, _⟩ := (objectLookup_eq_ok tablesWf_zero.objects).mp hob
    exact absurd rfl htype
  have hstart : (fileSystem Unit noteArchive).RunWhen FileGuard [] (Kernel.zero noteArchive) :=
    .init hinit
  have hrun := (hstart.step openNote trivial).step (closeNote (firstToken 0)) trivial
    |>.step openNote trivial
  have hopened : (fileStep ((fileSystem Unit noteArchive).exec (Kernel.zero noteArchive)
      [openNote, closeNote (firstToken 0)]) openNote).1 =
      .ok { messageInit 0 0 Msg.openFile with arg0 := firstToken 1, arg1 := 3 } := by
    decide +kernel
  have hclosed : (fileStep ((fileSystem Unit noteArchive).exec (Kernel.zero noteArchive)
      [openNote]) (closeNote (firstToken 0))).1 =
      .ok { messageInit 0 0 Msg.close with arg0 := firstToken 0 } := by
    decide +kernel
  constructor
  · have hread := (handles_exact hrun (readNote (firstToken 1)) []).1 rfl (by decide)
    apply hread.1.mpr
    refine ⟨noteFile, openAs_concat.mpr (.inl ?_), .inr (by decide)⟩
    exact ⟨_, _, _, Prod.ext rfl hopened, rfl, by decide, rfl⟩
  · have hexact := handles_exact hrun (readNote (firstToken 0)) []
    intro hanswer
    obtain ⟨f, hf, _⟩ := (hexact.1 rfl (by decide)).1.mp hanswer
    refine hexact.2.2 _ ?_ f hf
    exact closedIn_concat.mpr (.inl (closedIn_concat.mpr (.inr
      ⟨_, _, _, Prod.ext rfl hclosed, rfl, rfl⟩)))

end Scdk
