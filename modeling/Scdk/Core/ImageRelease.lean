import Scdk.Arch.EntryState
import Scdk.Core.ImageRead
import Scdk.Lib.Ledger

/-! # What the loader gives back

    `loader_read_image` opens a file, allocates a buffer of its size, reads and closes.
    A file that is empty or too large is found out after it was opened, in
    `loader_open_file`, which returns without closing it.

    * `loaderReadImageHeld`: the function with its calls of `scdk_kalloc` and
      `scdk_kfree`; `readImageHeld_run`: it is `loaderReadImage`,
    * `readImageHeld_owes`: no buffer is left behind with an error,
    * `loaderOpenFile_refused`, `loaderReadImage_closed`: the ways out that leave the
      open files as they were,
    * `read_image_clean_iff`: exactly when this is so. -/

namespace Scdk

variable {δ : Type}

/-! ## The buffer -/

/-- The kernel, with the blocks of the heap. -/
abbrev OnHeap (δ α : Type) : Type := Effect Err (Ledger (Kernel δ) UInt64) α

/-- The part of `loader_read_image` from `scdk_kalloc` to the label `out`. -/
def loaderFillImage (p : Platform δ) (answer : Option UInt64) (vfsEndpoint file size : UInt64) :
    OnHeap δ UInt64 :=
  match answer with
  | none => Effect.fail .nomem
  | some image => do
    Effect.require (image ≠ 0) .nomem
    Ledger.take image
    match ← (Ledger.on (loaderReadFile p vfsEndpoint file image size)).attempt with
    | .error e => do
      Ledger.release image
      Effect.fail e
    | .ok _ => pure image

/-- `loader_read_image`: the buffer and the size of the image. -/
def loaderReadImageHeld (p : Platform δ) (a : LoadAnswers) (text : List UInt8) :
    OnHeap δ (UInt64 × UInt64) := do
  Effect.require (a.path ≠ 0) .inval
  let vfsEndpoint ← Ledger.on (.ask fun k => serviceLookup k.services Service.vfs)
  let (file, size) ← Ledger.on (loaderOpenFile p vfsEndpoint a.path text)
  let status ← (loaderFillImage p a.image vfsEndpoint file size).attempt
  let closed ← (Ledger.on (loaderCloseFile p vfsEndpoint file)).attempt
  match status, closed with
  | .ok image, .ok _ => pure (image, size)
  | .ok image, .error e => do
    Ledger.release image
    Effect.fail e
  | .error e, _ => Effect.fail e

section held

variable (p : Platform δ) (a : LoadAnswers) (text : List UInt8)

/-- The same part of `loaderReadImage`. -/
def fillImage (p : Platform δ) (answer : Option UInt64) (vfsEndpoint file size : UInt64) : K δ UInt64 :=
  match answer with
  | none => Effect.fail .nomem
  | some image => do
    Effect.require (image ≠ 0) .nomem
    loaderReadFile p vfsEndpoint file image size
    pure image

theorem loaderFillImage_run (answer : Option UInt64) (vfsEndpoint file size : UInt64)
    (l : Ledger (Kernel δ) UInt64) :
    (loaderFillImage p answer vfsEndpoint file size l).1 =
        (fillImage p answer vfsEndpoint file size l.state).1 ∧
      (loaderFillImage p answer vfsEndpoint file size l).2.state =
        (fillImage p answer vfsEndpoint file size l.state).2 := by
  unfold loaderFillImage fillImage
  cases answer with
  | none => exact ⟨rfl, rfl⟩
  | some image =>
    dsimp only
    by_cases himage : image ≠ 0
    · rw [Effect.bind_of_ok (Effect.require_pos himage _), Effect.bind_of_ok (Effect.require_pos himage _),
        Effect.bind_of_ok (Ledger.take_run image l), Effect.attempt_bind, Effect.bind_run]
      dsimp only [Ledger.on]
      rcases loaderReadFile p vfsEndpoint file image size l.state with ⟨r, k'⟩
      cases r with
      | error e => exact ⟨rfl, rfl⟩
      | ok _ => exact ⟨rfl, rfl⟩
    · rw [Effect.bind_of_error (Effect.require_neg himage _),
        Effect.bind_of_error (Effect.require_neg himage _)]
      exact ⟨rfl, rfl⟩

/-- The buffer is owed if the image is there, and released otherwise. -/
theorem loaderFillImage_owes (answer : Option UInt64) (vfsEndpoint file size : UInt64)
    {l : Ledger (Kernel δ) UInt64} {held : List UInt64} (h : l.Owes held) :
    (∃ image l', loaderFillImage p answer vfsEndpoint file size l = (.ok image, l') ∧
        l'.Owes (image :: held)) ∨
      ∃ e l', loaderFillImage p answer vfsEndpoint file size l = (.error e, l') ∧ l'.Owes held := by
  unfold loaderFillImage
  cases answer with
  | none => exact .inr ⟨_, _, rfl, h⟩
  | some image =>
    dsimp only
    by_cases himage : image ≠ 0
    · rw [Effect.bind_of_ok (Effect.require_pos himage _), Effect.bind_of_ok (Ledger.take_run image l),
        Effect.attempt_bind]
      have hread := (h.take image).on (loaderReadFile p vfsEndpoint file image size)
      generalize Ledger.on (loaderReadFile p vfsEndpoint file image size) _ = out at hread ⊢
      obtain ⟨r, l₂⟩ := out
      cases r with
      | error e => exact .inr ⟨_, _, rfl, hread.release⟩
      | ok _ => exact .inl ⟨_, _, rfl, hread⟩
    · rw [Effect.bind_of_error (Effect.require_neg himage _)]
      exact .inr ⟨_, _, rfl, h⟩

/-- `loaderReadImage` with its parts by name. -/
theorem loaderReadImage_eq : loaderReadImage p a text = (do
    let vfsEndpoint ← .ask fun k => serviceLookup k.services Service.vfs
    let opened ← loaderOpenFile p vfsEndpoint a.path text
    let status ← (fillImage p a.image vfsEndpoint opened.1 opened.2).attempt
    let closed ← (loaderCloseFile p vfsEndpoint opened.1).attempt
    let image ← .ask fun _ => status
    .ask fun _ => closed
    pure (image, opened.2) : K δ (UInt64 × UInt64)) := rfl

/-- **The model with the heap** answers the same, and leaves the same kernel. -/
theorem readImageHeld_run (hpath : a.path ≠ 0) (l : Ledger (Kernel δ) UInt64) :
    (loaderReadImageHeld p a text l).1 = (loaderReadImage p a text l.state).1 ∧
      (loaderReadImageHeld p a text l).2.state = (loaderReadImage p a text l.state).2 := by
  rw [loaderReadImage_eq]
  unfold loaderReadImageHeld
  rw [Effect.bind_of_ok (Effect.require_pos hpath _), Effect.bind_run, Effect.ask_bind]
  dsimp only [Ledger.on, Effect.ask]
  cases serviceLookup l.state.services Service.vfs with
  | error e => exact ⟨rfl, rfl⟩
  | ok vfs =>
    dsimp only
    rw [Effect.bind_run, Effect.bind_run]
    dsimp only [Ledger.on]
    rcases loaderOpenFile p vfs a.path text l.state with ⟨r, k₁⟩
    cases r with
    | error e => exact ⟨rfl, rfl⟩
    | ok opened =>
      obtain ⟨file, size⟩ := opened
      dsimp only
      obtain ⟨hstatus, hstate⟩ := loaderFillImage_run p a.image vfs file size { l with state := k₁ }
      dsimp only at hstatus hstate
      simp only [Effect.attempt_bind]
      rw [← hstatus, ← hstate]
      generalize loaderFillImage p a.image vfs file size { l with state := k₁ } = out
      obtain ⟨status, l₂⟩ := out
      dsimp only [Ledger.on]
      rcases loaderCloseFile p vfs file l₂.state with ⟨closed, k₃⟩
      -- The buffer is freed on two of the paths, which the state does not show.
      cases status with
      | error e => exact ⟨rfl, rfl⟩
      | ok image =>
        cases closed with
        | error e => exact ⟨rfl, rfl⟩
        | ok _ => exact ⟨rfl, rfl⟩

/-- **The buffer.**  With an error no block is left behind, and otherwise it is the one
    that is returned. -/
theorem readImageHeld_owes {l : Ledger (Kernel δ) UInt64} {held : List UInt64} (h : l.Owes held) :
    (∃ image size l', loaderReadImageHeld p a text l = (.ok (image, size), l') ∧
        l'.Owes (image :: held)) ∨
      ∃ e l', loaderReadImageHeld p a text l = (.error e, l') ∧ l'.Owes held := by
  unfold loaderReadImageHeld
  by_cases hpath : a.path ≠ 0
  case neg =>
    rw [Effect.bind_of_error (Effect.require_neg hpath _)]
    exact .inr ⟨_, _, rfl, h⟩
  rw [Effect.bind_of_ok (Effect.require_pos hpath _), Effect.bind_run]
  have hlookup := h.on (Effect.ask fun k : Kernel δ => serviceLookup k.services Service.vfs)
  generalize Ledger.on (Effect.ask fun k : Kernel δ => serviceLookup k.services Service.vfs) l = out
    at hlookup ⊢
  obtain ⟨r, l₁⟩ := out
  cases r with
  | error e => exact .inr ⟨_, _, rfl, hlookup⟩
  | ok vfs =>
    dsimp only
    rw [Effect.bind_run]
    have hopen := hlookup.on (loaderOpenFile p vfs a.path text)
    generalize Ledger.on (loaderOpenFile p vfs a.path text) l₁ = out at hopen ⊢
    obtain ⟨r, l₂⟩ := out
    cases r with
    | error e => exact .inr ⟨_, _, rfl, hopen⟩
    | ok opened =>
      obtain ⟨file, size⟩ := opened
      dsimp only
      rw [Effect.attempt_bind]
      rcases loaderFillImage_owes p a.image vfs file size hopen with
        ⟨image, l₃, hfill, howes⟩ | ⟨e, l₃, hfill, howes⟩
      -- The file is closed on both paths; the buffer is freed unless it is returned.
      all_goals
        rw [hfill, Effect.attempt_bind]
        have hclose := howes.on (loaderCloseFile p vfs file)
        generalize Ledger.on (loaderCloseFile p vfs file) l₃ = out at hclose ⊢
        obtain ⟨closed, l₄⟩ := out
      · cases closed with
        | error e => exact .inr ⟨_, _, rfl, hclose.release⟩
        | ok _ => exact .inl ⟨_, _, _, rfl, hclose⟩
      · exact .inr ⟨_, _, rfl, hclose⟩

end held

/-! ## Open files -/

/-- The open files of the tmpfs, by their slot. -/
def Kernel.openFiles (k : Kernel δ) (i : Fin tmpfsMaxOpenFiles) : Option TmpfsFile :=
  if (k.files i).isOpen = true then some (k.files i) else none

section files

variable {k k₁ : Kernel δ} {f : InitrdFile} {i : Fin tmpfsMaxOpenFiles} {id t : UInt64}

theorem openFiles_of_free (h : (k.files i).isOpen = false) : k.openFiles i = none :=
  if_neg (by simp [h])

/-- A slot that was free before and after. -/
theorem openFiles_update {k' : Kernel δ} (hfree : (k.files i).isOpen = false) {file : TmpfsFile}
    (hfile : file.isOpen = false) (hfiles : k'.files = Function.update k.files i file) :
    k'.openFiles = k.openFiles := by
  funext j
  by_cases hj : j = i
  · subst hj
    rw [openFiles_of_free hfree, openFiles_of_free]
    rw [hfiles, Function.update_self]
    exact hfile
  · unfold Kernel.openFiles
    rw [hfiles, Function.update_of_ne hj]

/-- A file that was made stays open until it is closed. -/
theorem FileMade.openFiles_ne (h : FileMade k k₁ f i id t) : k₁.openFiles ≠ k.openFiles := by
  intro heq
  have hslot : k₁.files i = ⟨id, t, f, true⟩ := by
    rw [h.rest]
    exact Function.update_self _ _ _
  have hopen : k₁.openFiles i = some ⟨id, t, f, true⟩ := by
    unfold Kernel.openFiles
    rw [hslot]
    rfl
  rw [heq, openFiles_of_free h.free] at hopen
  cases hopen

theorem FileMade.openFiles_close (h : FileMade k k₁ f i id t) {k₂ : Kernel δ}
    (hfiles : k₂.files = k₁.files) : (k₂.closeFile i).openFiles = k.openFiles := by
  refine @openFiles_update δ k i (k₂.closeFile i) h.free { k₂.files i with isOpen := false } rfl ?_
  show Function.update k₂.files i _ = _
  have hmade : k₂.files = Function.update k.files i ⟨id, t, f, true⟩ := by
    rw [hfiles, h.rest]
  rw [hmade, Function.update_idem]

end files

/-! ## An OPEN that opens no file -/

/-- The handler has not seen the file table, nor the size in the message. -/
structure Unseen (k k' : Kernel δ) : Prop where
  files : k'.files = k.files
  arg1 : k'.msg.arg1 = k.msg.arg1

instance : IsPreorder (Kernel δ) Unseen where
  refl := fun _ => ⟨rfl, rfl⟩
  trans := fun _ _ _ h h' => ⟨h'.files.trans h.files, h'.arg1.trans h.arg1⟩

section unseen

variable (p : Platform δ) {k : Kernel δ}

/-- Only the tmpfs and the VFS know the message. -/
theorem runHandler_open_other (forward : K δ Unit) {handler : Handler} (endpoint : UInt64)
    (htmpfs : handler ≠ .tmpfs) (hvfs : handler ≠ .vfs) (htype : k.msg.type = Msg.openFile) :
    (runHandler p forward handler endpoint k).2 = k := by
  have hmsg : K.msg k = (.ok k.msg, k) := rfl
  cases handler with
  | tmpfs => exact absurd rfl htmpfs
  | vfs => exact absurd rfl hvfs
  | accept => rfl
  | console =>
    show (consoleEndpointHandler p endpoint k).2 = k
    unfold consoleEndpointHandler
    rw [Effect.bind_of_ok hmsg, htype]
    rfl
  | proc =>
    show (procEndpointHandler p k).2 = k
    unfold procEndpointHandler
    rw [Effect.bind_of_ok hmsg, htype]
    rfl
  | grantTest =>
    show (grantTestEndpointHandler p k).2 = k
    unfold grantTestEndpointHandler
    rw [Effect.bind_of_ok hmsg, htype]
    rfl
  | devmgr =>
    show (devmgrEndpointHandler p k).2 = k
    unfold devmgrEndpointHandler
    rw [Effect.bind_of_ok hmsg, htype]
    rfl
  | tty =>
    show (ttyEndpointHandler p k).2 = k
    unfold ttyEndpointHandler
    rw [Effect.bind_of_ok hmsg, htype]
    rfl
  | session =>
    show (sessionEndpointHandler k).2 = k
    unfold sessionEndpointHandler
    rw [Effect.bind_of_ok hmsg, htype]
    rfl

theorem deliver_unseen {handle : Handler → UInt64 → K δ Unit} {endpoint : UInt64}
    (h : ∀ id handler, endpointTarget k.objects k.caps k.endpoints endpoint = .ok (id, handler) →
      Unseen (k.toTarget id) (handle handler endpoint (k.toTarget id)).2) :
    Unseen k (deliver handle endpoint k).2 := by
  cases htarget : endpointTarget k.objects k.caps k.endpoints endpoint with
  | error e =>
    rw [deliver_of_error htarget]
    exact ⟨rfl, rfl⟩
  | ok target =>
    obtain ⟨id, handler⟩ := target
    rw [deliver_of_target htarget]
    obtain ⟨hfiles, harg⟩ := h id handler htarget
    exact ⟨hfiles, harg⟩

/-- A forward to an endpoint that is not the tmpfs. -/
theorem forward_unseen (htype : k.msg.type = Msg.openFile)
    (hroot : ∀ id, endpointTarget k.objects k.caps k.endpoints k.rootTmpfsEndpoint ≠ .ok (id, .tmpfs)) :
    Unseen k (vfsForwardToTmpfs (endpointCallDepth p 0) k).2 := by
  unfold vfsForwardToTmpfs
  rw [Effect.bind_of_ok Effect.get_run]
  by_cases hmounted : k.rootTmpfsEndpoint ≠ 0
  · rw [Effect.bind_of_ok (Effect.require_pos hmounted _)]
    have hinner : Unseen (k.toTarget Service.tmpfs)
        (endpointCallDepth p 0 k.rootTmpfsEndpoint (k.toTarget Service.tmpfs)).2 := by
      apply deliver_unseen
      intro id handler htarget
      by_cases hvfs : handler = .vfs
      · subst hvfs
        exact vfsEndpointHandler_frame (refl _)
      · have htmpfs : handler ≠ .tmpfs := by
          rintro rfl
          exact hroot id htarget
        have htype' : ((k.toTarget Service.tmpfs).toTarget id).msg.type = Msg.openFile := htype
        rw [runHandler_open_other p _ _ htmpfs hvfs htype']
        exact refl _
    exact ⟨hinner.files, hinner.arg1⟩
  · rw [Effect.bind_of_error (Effect.require_neg hmounted _)]
    exact refl _

/-- A call that does not reach the tmpfs. -/
theorem endpointCall_unseen {vfs : UInt64} (htype : k.msg.type = Msg.openFile) (harg : k.msg.arg0 ≠ 0)
    (h : ¬ Reaches k vfs k.msg k.payload) : Unseen k (endpointCall p vfs k).2 := by
  apply deliver_unseen
  intro id handler htarget
  have htype' : (k.toTarget id).msg.type = Msg.openFile := htype
  by_cases hvfs : handler = .vfs
  · subst hvfs
    show Unseen _ (vfsEndpointHandler _ _).2
    by_cases hunder : pathUnderRoot (k.toTarget id).payload
    · apply vfsEndpointHandler_frame
      apply forward_unseen p htype'
      intro id' hroot
      exact h (.inr ⟨⟨id, htarget⟩, ⟨id', hroot⟩, .inl ⟨htype, harg, hunder⟩⟩)
    · have harg' : (k.toTarget id).msg.arg0 ≠ 0 := harg
      unfold vfsEndpointHandler
      rw [Effect.bind_of_ok Effect.get_run, if_pos htype', Effect.bind_of_ok (Effect.require_pos harg' _),
        Effect.bind_of_error (Effect.require_neg hunder _)]
      exact refl _
  · have htmpfs : handler ≠ .tmpfs := by
      rintro rfl
      exact h (.inl ⟨id, htarget⟩)
    rw [runHandler_open_other p _ _ htmpfs hvfs htype']
    exact refl _

/-- A call that reaches the tmpfs where it cannot open the file. -/
theorem callWith_open_refused {vfs path : UInt64} {text : List UInt8}
    (hreach : Reaches k vfs (openMessage path) text)
    (h : ¬ ∃ f, FileRoom k ∧ k.initrd.resolves (openMessage path) text = .ok f) :
    ∃ e k', K.callWith p vfs (openMessage path) text k = (.error e, k') ∧
      k'.openFiles = k.openFiles := by
  obtain ⟨target, hcall⟩ := callWith_reaches p hreach
  set k₀ := k.handed (openMessage path) text target with hk₀
  have hhandler : ∃ e k', tmpfsEndpointHandler k₀ = (.error e, k') ∧ k'.openFiles = k.openFiles := by
    rw [tmpfsEndpointHandler_open rfl, tmpfsHandleOpen_run]
    have hmessage : k₀.initrd.resolves k₀.msg k₀.payload =
        k.initrd.resolves (openMessage path) text := rfl
    rw [hmessage]
    cases hfind : k.initrd.resolves (openMessage path) text with
    | error e => exact ⟨_, _, rfl, rfl⟩
    | ok f =>
      dsimp only
      cases hslot : Slots.firstSlot fun i => !(k₀.files i).isOpen with
      | none => exact ⟨_, _, rfl, rfl⟩
      | some i =>
        have hfree₀ : (k₀.files i).isOpen = false := by simpa using (Slots.firstSlot_eq_some hslot).1
        have hfree : (k.files i).isOpen = false := hfree₀
        dsimp only
        unfold Kernel.openFile
        -- A file that resolves has no slot, no object or no token.
        by_cases ho : k₀.objects.room = 0
        · obtain ⟨e, hcreate⟩ := @objectCreate_refused k₀.objects ObjType.file bootCore 0 (.file i) (.inr ho)
          rw [hcreate]
          exact ⟨_, _, rfl, rfl⟩
        · obtain ⟨id, o', _, hcreate, hobject, _⟩ := @objectCreate_room k₀.objects ObjType.file bootCore 0
            (.file i) (by decide) (by decide) (by omega)
          have hc : k₀.caps.room = 0 := by
            by_contra hc
            exact h ⟨f, ⟨⟨i, hfree⟩, Nat.pos_of_ne_zero ho, Nat.pos_of_ne_zero hc⟩, hfind⟩
          rw [hcreate]
          dsimp only
          rw [capCreate_full (by decide : Right.read ≠ 0) hobject hc]
          exact ⟨_, _, rfl, @openFiles_update δ k i _ hfree { k.files i with objectId := 0 } hfree rfl⟩
  obtain ⟨e, k', hrun, hfiles⟩ := hhandler
  obtain ⟨answer, _, _, hanswer⟩ := hcall _ _ hrun
  exact ⟨e, _, hanswer, hfiles⟩

/-- **A file that is not opened** leaves the open files as they were. -/
theorem loaderOpenFile_refused {vfs path : UInt64} {text : List UInt8} (hpath : path ≠ 0)
    (hlookup : serviceLookup k.services Service.vfs = .ok vfs)
    (h : ∀ f, ¬ Openable k path text f) :
    ∃ e k', loaderOpenFile p vfs path text k = (.error e, k') ∧ k'.openFiles = k.openFiles := by
  unfold loaderOpenFile
  by_cases hvfs : vfs ≠ 0
  case neg =>
    rw [Effect.bind_of_error (Effect.require_neg (fun hboth => hvfs hboth.1) _)]
    exact ⟨_, _, rfl, rfl⟩
  rw [Effect.bind_of_ok (Effect.require_pos ⟨hvfs, hpath⟩ _)]
  by_cases hreach : Reaches k vfs (openMessage path) text
  · have hnone : ¬ ∃ f, FileRoom k ∧ k.initrd.resolves (openMessage path) text = .ok f := by
      rintro ⟨f, hroom, hfound⟩
      exact h f ⟨hpath, ⟨vfs, hlookup, hreach⟩, hroom, hfound⟩
    obtain ⟨e, k', hcall, hfiles⟩ := callWith_open_refused p hreach hnone
    rw [Effect.bind_of_error hcall]
    exact ⟨_, _, rfl, hfiles⟩
  · -- the message comes back with the size zero, if it comes back at all
    set k₀ : Kernel δ := { k with msg := openMessage path, payload := text } with hk₀
    have hunseen : Unseen k₀ (endpointCall p vfs k₀).2 := endpointCall_unseen p rfl hpath hreach
    have hrun : K.callWith p vfs (openMessage path) text k =
        ((endpointCall p vfs k₀).1.map fun _ => (endpointCall p vfs k₀).2.msg,
          { (endpointCall p vfs k₀).2 with msg := k.msg, payload := k.payload }) := rfl
    rcases hcall : endpointCall p vfs k₀ with ⟨r, k'⟩
    rw [hcall] at hunseen hrun
    have hfiles : Kernel.openFiles { k' with msg := k.msg, payload := k.payload } = k.openFiles := by
      unfold Kernel.openFiles
      rw [hunseen.files]
    cases r with
    | error e =>
      rw [Effect.bind_of_error hrun]
      exact ⟨_, _, rfl, hfiles⟩
    | ok _ =>
      have hsize : ¬ (k'.msg.arg0 ≠ 0 ∧ k'.msg.arg1 ≠ 0) := fun hboth => hboth.2 hunseen.arg1
      rw [Effect.bind_of_ok hrun, Effect.bind_of_error (Effect.require_neg hsize _)]
      exact ⟨_, _, rfl, hfiles⟩

end unseen

/-! ## The whole function -/

section clean

variable (p : Platform δ) {a : LoadAnswers} {text : List UInt8} {k : Kernel δ} {f : InitrdFile}

/-- A file that is opened and has no good size is refused. -/
theorem loaderOpenFile_badSize {vfs : UInt64} (hlookup : serviceLookup k.services Service.vfs = .ok vfs)
    (h : Openable k a.path text f) (hsize : ¬ (f.size ≠ 0 ∧ f.size ≤ loaderMaxImageSize)) :
    ∃ e k₁ i id t, loaderOpenFile p vfs a.path text k = (.error e, k₁) ∧ FileMade k k₁ f i id t := by
  obtain ⟨vfs', hlookup', hreach⟩ := h.reaches
  obtain rfl := Except.ok.inj (hlookup.symm.trans hlookup')
  obtain ⟨k₁, i, id, t, answer, hopen, harg0, harg1, hmade⟩ := callWith_open p hreach h.room h.found
  have hopened : ∃ e, loaderOpenFile p vfs a.path text k = (.error e, k₁) := by
    unfold loaderOpenFile
    rw [Effect.bind_of_ok (Effect.require_pos ⟨hreach.ne_zero, h.pointer⟩ _), Effect.bind_of_ok hopen]
    by_cases hfound : answer.arg0 ≠ 0 ∧ answer.arg1 ≠ 0
    · have hbound : ¬ answer.arg1 ≤ loaderMaxImageSize := by
        rw [harg1] at hfound ⊢
        exact fun hle => hsize ⟨hfound.2, hle⟩
      rw [Effect.bind_of_ok (Effect.require_pos hfound _), Effect.bind_of_error (Effect.require_neg hbound _)]
      exact ⟨_, rfl⟩
    · rw [Effect.bind_of_error (Effect.require_neg hfound _)]
      exact ⟨_, rfl⟩
  obtain ⟨e, hopened⟩ := hopened
  exact ⟨e, k₁, i, id, t, hopened, hmade⟩

/-- It stays open. -/
theorem loaderReadImage_leaks (h : Openable k a.path text f)
    (hsize : ¬ (f.size ≠ 0 ∧ f.size ≤ loaderMaxImageSize)) :
    (loaderReadImage p a text k).2.openFiles ≠ k.openFiles := by
  obtain ⟨vfs, hlookup, _⟩ := h.reaches
  obtain ⟨e, k₁, i, id, t, hopened, hmade⟩ := loaderOpenFile_badSize p hlookup h hsize
  have hask : Effect.ask (fun k : Kernel δ => serviceLookup k.services Service.vfs) k = (.ok vfs, k) :=
    congrArg (·, k) hlookup
  rw [loaderReadImage_eq, Effect.bind_of_ok hask, Effect.bind_of_error hopened]
  exact hmade.openFiles_ne

/-- An image that is read comes from a file that was opened, and has a good size. -/
theorem loaderReadImage_eq_ok {image : UInt64 × UInt64} {k' : Kernel δ} (hpath : a.path ≠ 0)
    (h : loaderReadImage p a text k = (.ok image, k')) :
    ∃ f, Openable k a.path text f ∧ f.size ≠ 0 ∧ f.size ≤ loaderMaxImageSize := by
  rw [loaderReadImage_eq] at h
  obtain ⟨vfs, k₀, hask, h⟩ := Effect.bind_eq_ok h
  obtain ⟨hlookup, hk₀⟩ := Effect.ask_eq_ok hask
  rw [hk₀] at h
  obtain ⟨opened, _, hopened, _⟩ := Effect.bind_eq_ok h
  by_contra hnone
  by_cases hopens : ∃ f, Openable k a.path text f
  · obtain ⟨f, hf⟩ := hopens
    have hsize : ¬ (f.size ≠ 0 ∧ f.size ≤ loaderMaxImageSize) := fun hgood => hnone ⟨f, hf, hgood⟩
    obtain ⟨e, _, _, _, _, hrefused, _⟩ := loaderOpenFile_badSize p hlookup hf hsize
    rw [hrefused] at hopened
    cases hopened
  · obtain ⟨e, _, hrefused, _⟩ := loaderOpenFile_refused p hpath hlookup (not_exists.mp hopens)
    rw [hrefused] at hopened
    cases hopened

/-- A file that is opened and has a good size is closed again, whether or not there is a
    buffer for it. -/
theorem loaderReadImage_closed (hwf : TablesWf k.objects k.caps) (h : Openable k a.path text f)
    (hsize : f.size ≠ 0 ∧ f.size ≤ loaderMaxImageSize) :
    (loaderReadImage p a text k).2.openFiles = k.openFiles := by
  obtain ⟨vfs, hlookup, hreach⟩ := h.reaches
  obtain ⟨k₁, i, id, t, answer, hopen, harg0, harg1, hmade⟩ := callWith_open p hreach h.room h.found
  obtain ⟨hslot, hfile⟩ := hmade.slot hwf
  have hreach₁ := hmade.lasting.reachesFile hwf hreach t
  have ht : t ≠ 0 := by
    rintro rfl
    cases hslot
  have hopened : loaderOpenFile p vfs a.path text k = (.ok (t, f.size), k₁) :=
    loaderOpenFile_run p hreach.ne_zero h.pointer hopen harg0 harg1 ht hsize
  have hask : Effect.ask (fun k : Kernel δ => serviceLookup k.services Service.vfs) k = (.ok vfs, k) :=
    congrArg (·, k) hlookup
  -- the file is still open in the state in which it is closed
  obtain ⟨status, k₂, hfill, hsame⟩ : ∃ status k₂, fillImage p a.image vfs t f.size k₁ = (status, k₂) ∧
      (k₂ = k₁ ∨ ∃ image, k₂ = k₁.withRead image f) := by
    unfold fillImage
    cases a.image with
    | none => exact ⟨_, _, rfl, .inl rfl⟩
    | some image =>
      dsimp only
      by_cases himage : image ≠ 0
      · rw [Effect.bind_of_ok (Effect.require_pos himage _),
          Effect.bind_of_ok (loaderReadFile_run p hreach₁ hslot (by rw [hfile]) hsize.1 himage ht)]
        exact ⟨_, _, rfl, .inr ⟨image, rfl⟩⟩
      · rw [Effect.bind_of_error (Effect.require_neg himage _)]
        exact ⟨_, _, rfl, .inl rfl⟩
  have hclosed : loaderCloseFile p vfs t k₂ = (.ok (), k₂.closeFile i) ∧ k₂.files = k₁.files := by
    rcases hsame with rfl | ⟨image, rfl⟩
    · exact ⟨loaderCloseFile_run p hreach₁ hslot ht, rfl⟩
    · have hreach₂ : ReachesFile (k₁.withRead image f) vfs t := ⟨hreach₁.read, hreach₁.close⟩
      exact ⟨loaderCloseFile_run p hreach₂ hslot ht, rfl⟩
  rw [loaderReadImage_eq, Effect.bind_of_ok hask, Effect.bind_of_ok hopened]
  dsimp only
  rw [Effect.attempt_bind, hfill]
  dsimp only
  rw [Effect.attempt_bind, hclosed.1]
  have hend : ∀ r : Except Err UInt64, ((do
      let image ← .ask fun _ => r
      .ask fun _ => (.ok () : Except Err Unit)
      pure (image, f.size) : K δ (UInt64 × UInt64)) (k₂.closeFile i)).2 = k₂.closeFile i := by
    intro r
    cases r with
    | error e => rfl
    | ok image => rfl
  rw [hend]
  exact hmade.openFiles_close hclosed.2

/-- `loader_read_image` leaves nothing behind: the open files are as before, and with an
    error no buffer stays allocated. -/
def ReadImageClean (p : Platform δ) (a : LoadAnswers) (text : List UInt8) (k : Kernel δ) : Prop :=
  (loaderReadImageHeld p a text (.start k)).2.state.openFiles = k.openFiles ∧
    ∀ e, (loaderReadImageHeld p a text (.start k)).1 = .error e →
      (loaderReadImageHeld p a text (.start k)).2.Owes []

/-- **Nothing is left behind**, unless the loader opens a file that is empty or too
    large. -/
theorem read_image_clean_iff (hwf : TablesWf k.objects k.caps) :
    ReadImageClean p a text k ↔
      ∀ f, Openable k a.path text f → f.size ≠ 0 ∧ f.size ≤ loaderMaxImageSize := by
  have howes : ∀ e, (loaderReadImageHeld p a text (.start k)).1 = .error e →
      (loaderReadImageHeld p a text (.start k)).2.Owes [] := by
    intro e he
    rcases readImageHeld_owes p a text (Ledger.owes_start k) with ⟨_, _, _, hrun, _⟩ | ⟨_, _, hrun, h⟩
    · rw [hrun] at he
      cases he
    · rw [hrun]
      exact h
  by_cases hpath : a.path ≠ 0
  case neg =>
    have hrun : loaderReadImageHeld p a text (.start k) = (.error .inval, .start k) :=
      Effect.bind_of_error (Effect.require_neg hpath _) _
    refine ⟨fun _ f h => absurd h.pointer hpath, fun _ => ⟨?_, howes⟩⟩
    rw [hrun]
    rfl
  have hstate : (loaderReadImageHeld p a text (.start k)).2.state = (loaderReadImage p a text k).2 :=
    (readImageHeld_run p a text hpath (.start k)).2
  constructor
  · -- A file that is opened and then found too large stays open.
    intro hclean f hf
    by_contra hsize
    exact loaderReadImage_leaks p hf hsize (hstate ▸ hclean.1)
  · intro hgood
    refine ⟨?_, howes⟩
    rw [hstate]
    -- Either the file is opened, read and closed, or nothing is opened.
    by_cases hopens : ∃ f, Openable k a.path text f
    · obtain ⟨f, hf⟩ := hopens
      exact loaderReadImage_closed p hwf hf (hgood f hf)
    · rw [loaderReadImage_eq, Effect.ask_bind]
      cases hlookup : serviceLookup k.services Service.vfs with
      | error e => rfl
      | ok vfs =>
        obtain ⟨e, k', hopen, hfiles⟩ := loaderOpenFile_refused p hpath hlookup (not_exists.mp hopens)
        dsimp only
        rw [Effect.bind_of_error hopen]
        exact hfiles

end clean

/-- A machine with the file `/a`. -/
def oneFile (data : List UInt8) : Kernel Unit := machine ⟨[⟨[slash, 97], data, 0⟩], true⟩

/-- Answers for reading it. -/
def oneFileAnswers : LoadAnswers := ⟨0x200000, some 0xffff800000000000, none, [], childAnswers⟩

/-- A file of three bytes is opened, read and closed. -/
theorem read_image_clean_three :
    (loaderReadImageHeld quietPlatform oneFileAnswers [slash, 97] (.start (oneFile [1, 2, 3]))).1 =
      .ok (0xffff800000000000, 3) ∧
    ReadImageClean quietPlatform oneFileAnswers [slash, 97] (oneFile [1, 2, 3]) := by
  refine ⟨by decide +kernel, (read_image_clean_iff quietPlatform (tablesWf_machine _)).mpr ?_⟩
  intro f hf
  have hfound : (oneFile [1, 2, 3]).initrd.resolves (openMessage 0x200000) [slash, 97] =
      .ok ⟨[slash, 97], [1, 2, 3], 0⟩ := by decide +kernel
  obtain rfl := Except.ok.inj (hfound.symm.trans hf.found)
  decide

/-- An empty file stays open. -/
theorem empty_file_left_open :
    ¬ ∀ (p : Platform Unit) (a : LoadAnswers) (text : List UInt8) (k : Kernel Unit),
      TablesWf k.objects k.caps → ReadImageClean p a text k := by
  intro hclean
  obtain ⟨hfiles, _⟩ := hclean quietPlatform oneFileAnswers [slash, 97] (oneFile []) (tablesWf_machine _)
  have hopen : ((loaderReadImageHeld quietPlatform oneFileAnswers [slash, 97]
      (.start (oneFile []))).2.state.openFiles 0).isSome = true := by decide +kernel
  have hclosed : ((oneFile []).openFiles 0).isSome = false := by decide +kernel
  rw [hfiles, hclosed] at hopen
  cases hopen

end Scdk
