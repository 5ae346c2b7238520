import Scdk.Core.Lasting
import Scdk.Core.Loader
import Scdk.Core.Room
import Scdk.Mm.TarImage
import Scdk.Services.FileHandles

/-! # Reading an image

    The loader reads a file of the initrd through the VFS, which forwards to the
    tmpfs, into a buffer of the heap.

    * `FilesServed`: the two services are up,
    * `Reaches`: a message comes to the tmpfs, at once or behind the VFS,
    * `callWith_reaches`: it is handled there, with another target,
    * `Openable`: the OPEN of the loader opens this file,
    * `Kernel.withBytes`: the state after a file was read,
    * `callWith_open`, `callWith_read`, `callWith_close`: what the messages of the loader
      do there,
    * `loaderReadImage_run`: a file that is opened is read, with a buffer for it. -/

namespace Scdk

variable {δ : Type}

/-! ## The services -/

/-- The VFS is registered with the token `vfs`, and forwards to the tmpfs. -/
structure FilesServed (k : Kernel δ) (vfs : UInt64) : Prop where
  lookup : serviceLookup k.services Service.vfs = .ok vfs
  service : ∃ id, endpointTarget k.objects k.caps k.endpoints vfs = .ok (id, .vfs)
  root : ∃ id, endpointTarget k.objects k.caps k.endpoints k.rootTmpfsEndpoint = .ok (id, .tmpfs)

theorem endpointTarget_ne_zero {o : ObjectTable} {c : CapTable} {endpoints : EndpointTable}
    {endpoint : UInt64} {target : UInt64 × Handler}
    (h : endpointTarget o c endpoints endpoint = .ok target) : endpoint ≠ 0 := by
  rintro rfl
  cases h

/-! ## Calls of the VFS -/

/-- A message that the VFS forwards. -/
def Forwarded (msg : Message) (text : List UInt8) : Prop :=
  (msg.type = Msg.openFile ∧ msg.arg0 ≠ 0 ∧ pathUnderRoot text) ∨ msg.type = Msg.read ∨
    msg.type = Msg.close

/-- A message to the endpoint comes to the tmpfs, at once or behind the VFS. -/
def Reaches (k : Kernel δ) (vfs : UInt64) (msg : Message) (text : List UInt8) : Prop :=
  (∃ id, endpointTarget k.objects k.caps k.endpoints vfs = .ok (id, .tmpfs)) ∨
    ((∃ id, endpointTarget k.objects k.caps k.endpoints vfs = .ok (id, .vfs)) ∧
      (∃ id, endpointTarget k.objects k.caps k.endpoints k.rootTmpfsEndpoint = .ok (id, .tmpfs)) ∧
      Forwarded msg text)

theorem FilesServed.reaches {k : Kernel δ} {vfs : UInt64} (h : FilesServed k vfs) {msg : Message}
    {text : List UInt8} (hforward : Forwarded msg text) : Reaches k vfs msg text :=
  .inr ⟨h.service, h.root, hforward⟩

theorem Reaches.ne_zero {k : Kernel δ} {vfs : UInt64} {msg : Message} {text : List UInt8}
    (h : Reaches k vfs msg text) : vfs ≠ 0 := by
  rcases h with ⟨id, htarget⟩ | ⟨⟨id, htarget⟩, _⟩
  · exact endpointTarget_ne_zero htarget
  · exact endpointTarget_ne_zero htarget

/-- The endpoints stay, so that another message comes there too. -/
theorem Lasting.reaches {k k' : Kernel δ} (h : Lasting k k') (hwf : TablesWf k.objects k.caps)
    {vfs : UInt64} {msg msg' : Message} {text text' : List UInt8} (hreach : Reaches k vfs msg text)
    (hforward : Forwarded msg' text') : Reaches k' vfs msg' text' := by
  have hkept := h.tokens hwf
  unfold Reaches
  rw [h.endpoints, h.root]
  rcases hreach with ⟨id, htarget⟩ | ⟨⟨id, hservice⟩, ⟨id', hroot⟩, _⟩
  · exact .inl ⟨id, hkept.endpointTarget hwf htarget⟩
  · exact .inr ⟨⟨id, hkept.endpointTarget hwf hservice⟩, ⟨id', hkept.endpointTarget hwf hroot⟩, hforward⟩

/-- The state in which a message for `target` is handled. -/
def Kernel.handed (k : Kernel δ) (msg : Message) (text : List UInt8) (target : UInt64) : Kernel δ :=
  { k with msg := { msg with target := target }, payload := text }

/-- The state of a caller that has its own message back. -/
def Kernel.answered (k : Kernel δ) (caller : Kernel δ) : Kernel δ :=
  { k with msg := caller.msg, payload := caller.payload }

theorem vfsEndpointHandler_forwarded {forward : K δ Unit} {k : Kernel δ}
    (h : Forwarded k.msg k.payload) : vfsEndpointHandler forward k = forward k := by
  unfold vfsEndpointHandler
  rw [Effect.bind_of_ok Effect.get_run]
  rcases h with ⟨htype, harg, hpath⟩ | htype | htype
  · rw [if_pos htype, Effect.bind_of_ok (Effect.require_pos harg _),
      Effect.bind_of_ok (Effect.require_pos hpath _)]
  · rw [htype, if_neg (by decide), if_neg (by decide), if_pos (.inl rfl)]
  · rw [htype, if_neg (by decide), if_neg (by decide), if_pos (.inr rfl)]

/-- The VFS forwards a message to the tmpfs, and answers what that answers. -/
theorem callWith_vfs (p : Platform δ) {k : Kernel δ} {vfs id id' : UInt64} {msg : Message}
    {text : List UInt8}
    (hservice : endpointTarget k.objects k.caps k.endpoints vfs = .ok (id, .vfs))
    (hroot : endpointTarget k.objects k.caps k.endpoints k.rootTmpfsEndpoint = .ok (id', .tmpfs))
    (hforward : Forwarded msg text) {r : Except Err Unit} {k' : Kernel δ}
    (hhandler : tmpfsEndpointHandler (k.handed msg text id') = (r, k')) :
    ∃ answer : Message, answer.arg0 = k'.msg.arg0 ∧ answer.arg1 = k'.msg.arg1 ∧
      K.callWith p vfs msg text k = (r.map fun _ => answer, k'.answered k) := by
  set k₀ : Kernel δ := { k with msg := msg, payload := text } with hk₀
  -- The call of the mounted endpoint, by the handler of the VFS.
  set k₁ := (k₀.toTarget id).toTarget Service.tmpfs with hk₁
  have hinner : endpointCallDepth p 0 k.rootTmpfsEndpoint k₁ = (r, k'.withStatus (statusWord r)) := by
    have htarget : endpointTarget k₁.objects k₁.caps k₁.endpoints k.rootTmpfsEndpoint =
        .ok (id', .tmpfs) := hroot
    have hcall : endpointCallDepth p 0 k.rootTmpfsEndpoint k₁ = _ := deliver_of_target htarget
    have hrun : runHandler p (Effect.fail .busy) .tmpfs k.rootTmpfsEndpoint (k₁.toTarget id') =
        (r, k') := hhandler
    rw [hrun] at hcall
    exact hcall
  have hvfs : vfsForwardToTmpfs (endpointCallDepth p 0) (k₀.toTarget id) =
      (r, (k'.withStatus (statusWord r)).toTarget Service.vfs) := by
    unfold vfsForwardToTmpfs
    rw [Effect.bind_of_ok Effect.get_run]
    have hne : (k₀.toTarget id).rootTmpfsEndpoint ≠ 0 := endpointTarget_ne_zero hroot
    have hset : K.setMsg (fun m => { m with target := Service.tmpfs }) (k₀.toTarget id) =
        (.ok (), k₁) := rfl
    rw [Effect.bind_of_ok (Effect.require_pos hne _), Effect.bind_of_ok hset, Effect.attempt_bind]
    have hcalled : endpointCallDepth p 0 (k₀.toTarget id).rootTmpfsEndpoint k₁ =
        (r, k'.withStatus (statusWord r)) := hinner
    rw [hcalled]
    rfl
  have htarget : endpointTarget k₀.objects k₀.caps k₀.endpoints vfs = .ok (id, .vfs) := hservice
  have houter : endpointCall p vfs k₀ = _ := deliver_of_target htarget
  have hrun : runHandler p (vfsForwardToTmpfs (endpointCallDepth p 0)) .vfs vfs (k₀.toTarget id) =
      (r, (k'.withStatus (statusWord r)).toTarget Service.vfs) := by
    have hforward' : Forwarded (k₀.toTarget id).msg (k₀.toTarget id).payload := hforward
    exact (vfsEndpointHandler_forwarded hforward').trans hvfs
  rw [hrun] at houter
  have hcall : endpointCall p vfs k₀ =
      (r, ((k'.withStatus (statusWord r)).toTarget Service.vfs).withStatus (statusWord r)) := houter
  refine ⟨(((k'.withStatus (statusWord r)).toTarget Service.vfs).withStatus (statusWord r)).msg,
    rfl, rfl, ?_⟩
  unfold K.callWith
  rw [hcall]
  rfl

/-- A message that comes to the tmpfs is handled there. -/
theorem callWith_reaches (p : Platform δ) {k : Kernel δ} {vfs : UInt64} {msg : Message}
    {text : List UInt8} (h : Reaches k vfs msg text) :
    ∃ target, ∀ r k', tmpfsEndpointHandler (k.handed msg text target) = (r, k') →
      ∃ answer : Message, answer.arg0 = k'.msg.arg0 ∧ answer.arg1 = k'.msg.arg1 ∧
        K.callWith p vfs msg text k = (r.map fun _ => answer, k'.answered k) := by
  rcases h with ⟨id, htarget⟩ | ⟨⟨id, hservice⟩, ⟨id', hroot⟩, hforward⟩
  · refine ⟨id, ?_⟩
    intro r k' hhandler
    set k₀ : Kernel δ := { k with msg := msg, payload := text } with hk₀
    have htarget₀ : endpointTarget k₀.objects k₀.caps k₀.endpoints vfs = .ok (id, .tmpfs) := htarget
    have hcall : endpointCall p vfs k₀ = _ := deliver_of_target htarget₀
    have hrun : runHandler p (vfsForwardToTmpfs (endpointCallDepth p 0)) .tmpfs vfs (k₀.toTarget id) =
        (r, k') := hhandler
    rw [hrun] at hcall
    refine ⟨(k'.withStatus (statusWord r)).msg, rfl, rfl, ?_⟩
    unfold K.callWith
    rw [hcall]
    rfl
  · exact ⟨id', fun _ _ hhandler => callWith_vfs p hservice hroot hforward hhandler⟩

/-! ## The three calls of the loader -/

theorem cString_eq_self {text : List UInt8} (h : (0 : UInt8) ∉ text) : cString text = text := by
  unfold cString
  apply List.takeWhile_eq_self_iff.mpr
  intro c hc
  have hne : c ≠ 0 := fun h0 => h (h0 ▸ hc)
  simpa using hne

/-- The path of a message that does not say how long it is. -/
theorem pathOfMessage_ok {msg : Message} {text : List UInt8} (h0 : msg.arg0 ≠ 0) (h1 : msg.arg1 = 0)
    (hpath : PathOk text) : pathOfMessage msg text = .ok text := by
  have hself := cString_eq_self hpath.text
  have hpos : text.length ≠ 0 := by
    intro hzero
    have hroot := hpath.root
    rw [List.length_eq_zero_iff.mp hzero] at hroot
    cases hroot
  have hshort := hpath.short
  unfold pathOfMessage
  rw [if_neg h0]
  dsimp only
  rw [if_pos h1, hself, if_neg (by omega), List.take_length, hself]

/-- What a new file needs besides its path. -/
structure FileRoom (k : Kernel δ) : Prop where
  slot : ∃ i, (k.files i).isOpen = false
  objects : 0 < k.objects.room
  caps : 0 < k.caps.room

/-- The OPEN message of the loader. -/
abbrev openMessage (path : UInt64) : Message :=
  { messageInit 0 Service.vfs Msg.openFile with arg0 := path }

/-- The OPEN of the loader opens `f`: the tmpfs is reached, has the file and a slot for it, and
    there is room for an object and a token. -/
structure Openable (k : Kernel δ) (path : UInt64) (text : List UInt8) (f : InitrdFile) : Prop where
  pointer : path ≠ 0
  reaches : ∃ vfs, serviceLookup k.services Service.vfs = .ok vfs ∧ Reaches k vfs (openMessage path) text
  room : FileRoom k
  found : k.initrd.resolves (openMessage path) text = .ok f

/-- The file `f` is open in slot `i`, with the object `id` and the token `t`. -/
structure FileMade (k k' : Kernel δ) (f : InitrdFile) (i : Fin tmpfsMaxOpenFiles) (id t : UInt64) :
    Prop where
  free : (k.files i).isOpen = false
  object : objectCreate k.objects ObjType.file bootCore 0 (.file i) = (.ok id, k'.objects)
  cap : capCreate k'.objects k.caps id Right.read = (.ok t, k'.caps)
  rest : k' = { k with
    objects := k'.objects, caps := k'.caps
    files := Function.update k.files i ⟨id, t, f, true⟩ }

section made

variable {k k' : Kernel δ} {f : InitrdFile} {i : Fin tmpfsMaxOpenFiles} {id t : UInt64}

theorem FileMade.lasting (h : FileMade k k' f i id t) : Lasting k k' := by
  have hobjects := lasting_objectCreate (.file i) bootCore 0 k
  have hcaps := lasting_capCreate id Right.read ({ k with objects := k'.objects } : Kernel δ)
  have hcreate : (K.objectCreate ObjType.file bootCore 0 (.file i) k).2 =
      { k with objects := k'.objects } := by
    unfold K.objectCreate
    rw [h.object]
  have hmint : (K.capCreate id Right.read ({ k with objects := k'.objects } : Kernel δ)).2 =
      { k with objects := k'.objects, caps := k'.caps } := by
    unfold K.capCreate
    dsimp only
    rw [h.cap]
  rw [show Payload.type (.file i) = ObjType.file from rfl, hcreate] at hobjects
  rw [hmint] at hcaps
  have hboth := IsTrans.trans _ _ _ hobjects hcaps
  rw [h.rest]
  exact IsTrans.trans _ _ _ hboth (.of_eq rfl)

/-- The file takes one object and one token. -/
theorem FileMade.room (h : FileMade k k' f i id t) :
    k'.objects.room + 1 = k.objects.room ∧ k'.caps.room + 1 = k.caps.room := by
  have hnew := NewObject.of_created h.object h.cap
  exact ⟨hnew.objectRoom, hnew.capRoom⟩

/-- The token of the file is accepted. -/
theorem FileMade.slot (h : FileMade k k' f i id t) (hwf : TablesWf k.objects k.caps) :
    tmpfsSlotForCap k' t = .ok i ∧ k'.files i = ⟨id, t, f, true⟩ := by
  have hfile : k'.files i = ⟨id, t, f, true⟩ := by
    rw [h.rest]
    exact Function.update_self _ _ _
  obtain ⟨generation, hobject⟩ := objectLookup_of_objectCreate hwf.objects h.object
  have hcheck : capCheck k'.objects k'.caps t Right.read ObjType.file = .ok _ :=
    capCheck_eq_ok_iff_lookup.mpr
      ⟨by decide, capLookup_created hobject h.cap, .inr rfl, UInt64.and_self⟩
  refine ⟨?_, hfile⟩
  unfold tmpfsSlotForCap
  rw [hcheck]
  simp [hobject, hfile]

end made

section calls

variable (p : Platform δ) {k : Kernel δ} {vfs : UInt64} {f : InitrdFile} {text : List UInt8}

/-- OPEN of a file that is there. -/
theorem callWith_open {path : UInt64}
    (hreach : Reaches k vfs { messageInit 0 Service.vfs Msg.openFile with arg0 := path } text)
    (hroom : FileRoom k)
    (hfind : k.initrd.resolves { messageInit 0 Service.vfs Msg.openFile with arg0 := path } text = .ok f) :
    ∃ k₁ i id t answer,
      K.callWith p vfs { messageInit 0 Service.vfs Msg.openFile with arg0 := path } text k =
        (.ok answer, k₁) ∧ answer.arg0 = t ∧ answer.arg1 = f.size ∧ FileMade k k₁ f i id t := by
  obtain ⟨target, hcall⟩ := callWith_reaches p hreach
  set k₀ := k.handed { messageInit 0 Service.vfs Msg.openFile with arg0 := path } text target with hk₀
  have hresolves : k₀.initrd.resolves k₀.msg k₀.payload = .ok f := hfind
  obtain ⟨i₀, hi₀⟩ := hroom.slot
  -- There is a free slot, an object and a token.
  obtain ⟨i, hslot⟩ := Slots.firstSlot_of_count
    (Slots.count_pos (p := fun i => !(k.files i).isOpen) (i := i₀) (by simpa using hi₀))
  have hfree : (k.files i).isOpen = false := by simpa using (Slots.firstSlot_eq_some hslot).1
  obtain ⟨id, t, o', c', hnew⟩ : ∃ id t o' c',
      NewObject ObjType.file bootCore (.file i) Right.read k.objects k.caps id t o' c' :=
    newObject_room (by decide) (by decide) (by decide) hroom.objects hroom.caps
  have hhandler : tmpfsEndpointHandler k₀ = (.ok (), { k₀ with
      objects := o', caps := c'
      files := Function.update k.files i ⟨id, t, f, true⟩
      msg := { k₀.msg with arg0 := t, arg1 := f.size } }) := by
    have hslot₀ : (Slots.firstSlot fun i => !(k₀.files i).isOpen) = some i := hslot
    -- The handler takes them in this order.
    rw [tmpfsEndpointHandler_open rfl, tmpfsHandleOpen_run, hresolves]
    dsimp only
    rw [hslot₀]
    unfold Kernel.openFile
    have hcreate' : objectCreate k₀.objects ObjType.file bootCore 0 (.file i) = (.ok id, o') := hnew.object
    have hcap' : capCreate o' k₀.caps id Right.read = (.ok t, c') := hnew.cap
    dsimp only
    rw [hcreate']
    dsimp only
    rw [hcap']
    rfl
  obtain ⟨answer, harg0, harg1, hanswer⟩ := hcall _ _ hhandler
  exact ⟨_, i, id, t, answer, hanswer, harg0, harg1, hfree, hnew.object, hnew.cap, rfl⟩

/-- The state after a file was read to `image`. -/
def Kernel.withBytes (k : Kernel δ) (image : UInt64) (f : InitrdFile) : Kernel δ :=
  { k with
    frames := storeBytes k.vmm k.frames image f.data
    trace := k.trace ++ [.copied image f.size] }

/-- The state after that, for a file of any length. -/
def Kernel.withRead (k : Kernel δ) (image : UInt64) (f : InitrdFile) : Kernel δ :=
  { k with
    frames := storeBytes k.vmm k.frames image (f.data.take f.size.toNat)
    trace := k.trace ++ [.copied image f.size] }

theorem Kernel.withRead_eq (k : Kernel δ) (image : UInt64) (hsize : f.data.length < 2 ^ 64) :
    k.withRead image f = k.withBytes image f := by
  have hlen : f.size.toNat = f.data.length := UInt64.toNat_ofNat_of_lt' hsize
  unfold Kernel.withRead Kernel.withBytes
  rw [hlen, List.take_length]

/-- READ of a file from its start, of as many bytes as its size says. -/
theorem callWith_read {i : Fin tmpfsMaxOpenFiles} {t image : UInt64}
    (hreach : Reaches k vfs
      { messageInit 0 Service.vfs Msg.read with arg0 := t, arg2 := image, arg3 := f.size } [])
    (hslot : tmpfsSlotForCap k t = .ok i) (hbacking : (k.files i).backing = f) (hpos : f.size ≠ 0)
    (himage : image ≠ 0) :
    ∃ answer,
      K.callWith p vfs
          { messageInit 0 Service.vfs Msg.read with arg0 := t, arg2 := image, arg3 := f.size } [] k =
        (.ok answer, k.withRead image f) ∧ answer.arg0 = f.size := by
  obtain ⟨target, hcall⟩ := callWith_reaches p hreach
  set k₀ := k.handed { messageInit 0 Service.vfs Msg.read with
    arg0 := t, arg2 := image, arg3 := f.size } [] target with hk₀
  have hhandler : tmpfsEndpointHandler k₀ = (.ok (), { k₀ with
      frames := storeBytes k.vmm k.frames image (f.data.take f.size.toNat)
      trace := k.trace ++ [.copied image f.size]
      msg := { k₀.msg with arg0 := f.size } }) := by
    have hslot₀ : tmpfsSlotForCap k₀ k₀.msg.arg0 = .ok i := hslot
    have hbacking₀ : (k₀.files i).backing = f := hbacking
    have himage₀ : ¬ k₀.msg.arg2 = 0 := himage
    have hpos₀ : ¬ k₀.msg.arg3 = 0 := hpos
    rw [tmpfsEndpointHandler_read rfl, tmpfsHandleRead_run, if_neg himage₀, hslot₀]
    dsimp only
    rw [hbacking₀]
    unfold Kernel.readFile
    -- The read starts at offset zero and asks for the whole file.
    have hzero : ¬ f.size < k₀.msg.arg1 := by
      rw [UInt64.not_lt, UInt64.le_iff_toNat_le]
      exact Nat.zero_le _
    have hall : (if k₀.msg.arg3 < f.size - k₀.msg.arg1 then k₀.msg.arg3 else f.size - k₀.msg.arg1) =
        f.size := by
      have hsub : f.size - k₀.msg.arg1 = f.size := UInt64.sub_zero f.size
      have hself : ¬ k₀.msg.arg3 < f.size := UInt64.lt_irrefl f.size
      rw [hsub, if_neg hself]
    rw [if_neg hpos₀, if_neg hzero]
    dsimp only
    rw [hall]
    rfl
  obtain ⟨answer, harg0, _, hanswer⟩ := hcall _ _ hhandler
  exact ⟨answer, hanswer, harg0⟩

/-- CLOSE of an open file. -/
theorem callWith_close {i : Fin tmpfsMaxOpenFiles} {t : UInt64}
    (hreach : Reaches k vfs { messageInit 0 Service.vfs Msg.close with arg0 := t } [])
    (hslot : tmpfsSlotForCap k t = .ok i) :
    ∃ answer,
      K.callWith p vfs { messageInit 0 Service.vfs Msg.close with arg0 := t } [] k =
        (.ok answer, k.closeFile i) := by
  obtain ⟨target, hcall⟩ := callWith_reaches p hreach
  have hslot₀ : tmpfsSlotForCap (k.handed { messageInit 0 Service.vfs Msg.close with arg0 := t } []
      target) t = .ok i := hslot
  have hhandler : tmpfsEndpointHandler (k.handed
      { messageInit 0 Service.vfs Msg.close with arg0 := t } [] target) =
      (.ok (), (k.handed { messageInit 0 Service.vfs Msg.close with arg0 := t } [] target).closeFile
        i) := by
    rw [tmpfsEndpointHandler_close rfl, tmpfsHandleClose_run]
    have harg : (k.handed { messageInit 0 Service.vfs Msg.close with arg0 := t } [] target).msg.arg0 =
      t := rfl
    rw [harg, hslot₀]
    rfl
  obtain ⟨answer, _, _, hanswer⟩ := hcall _ _ hhandler
  exact ⟨answer, hanswer⟩

end calls

/-! ## The whole image -/

/-- The file `f` was opened, read to `image` and closed. -/
structure ImageIn (k k' : Kernel δ) (f : InitrdFile) (image : UInt64) : Prop where
  made : ∃ k₁ i id t, FileMade k k₁ f i id t ∧ k' = (k₁.withBytes image f).closeFile i

section image

variable {k k' : Kernel δ} {f : InitrdFile} {image : UInt64}

theorem ImageIn.lasting (h : ImageIn k k' f image) : Lasting k k' := by
  obtain ⟨k₁, i, id, t, hmade, rfl⟩ := h.made
  exact IsTrans.trans _ _ _ hmade.lasting (.of_eq rfl)

/-- What else has changed. -/
theorem ImageIn.rest (h : ImageIn k k' f image) :
    k' = { k with objects := k'.objects, caps := k'.caps, files := k'.files, frames := k'.frames,
                  trace := k'.trace } ∧
      k'.objects.room + 1 = k.objects.room ∧ k'.caps.room + 1 = k.caps.room := by
  obtain ⟨k₁, i, id, t, hmade, rfl⟩ := h.made
  refine ⟨?_, hmade.room⟩
  rw [hmade.rest]
  rfl

/-- The bytes of the file are in memory. -/
theorem ImageIn.bytes (h : ImageIn k k' f image) (hbuffer : Buffer k.vmm image f.data.length) :
    userBytes k'.vmm k'.frames image f.data.length = f.data := by
  obtain ⟨k₁, i, id, t, hmade, rfl⟩ := h.made
  have hvmm : k₁.vmm = k.vmm := by rw [hmade.rest]
  show userBytes k₁.vmm (storeBytes k₁.vmm k₁.frames image f.data) image f.data.length = f.data
  rw [hvmm]
  exact hbuffer.readBack k₁.frames

variable (p : Platform δ) {vfs : UInt64} {text : List UInt8}

/-- The messages of the loader for the token `t`. -/
structure ReachesFile (k : Kernel δ) (vfs t : UInt64) : Prop where
  read : ∀ offset buffer size, Reaches k vfs
    { messageInit 0 Service.vfs Msg.read with
      arg0 := t, arg1 := offset, arg2 := buffer, arg3 := size } []
  close : Reaches k vfs { messageInit 0 Service.vfs Msg.close with arg0 := t } []

/-- An endpoint that an OPEN has reached is reached later too. -/
theorem Lasting.reachesFile (h : Lasting k k') (hwf : TablesWf k.objects k.caps) {msg : Message}
    (hreach : Reaches k vfs msg text) (t : UInt64) : ReachesFile k' vfs t :=
  ⟨fun _ _ _ => h.reaches hwf hreach (.inr (.inl rfl)), h.reaches hwf hreach (.inr (.inr rfl))⟩

/-- The loop reads all in one round. -/
theorem loaderReadFile_run {i : Fin tmpfsMaxOpenFiles} {t : UInt64} (hreach : ReachesFile k vfs t)
    (hslot : tmpfsSlotForCap k t = .ok i) (hbacking : (k.files i).backing = f) (hpos : f.size ≠ 0)
    (himage : image ≠ 0) (ht : t ≠ 0) :
    loaderReadFile p vfs t image f.size k = (.ok (), k.withRead image f) := by
  have hvfs : vfs ≠ 0 := hreach.close.ne_zero
  obtain ⟨answer, hcall, hanswer⟩ := callWith_read p (hreach.read 0 image f.size) hslot hbacking hpos
    himage
  obtain ⟨n, hn⟩ : ∃ n, f.size.toNat = n + 1 := by
    apply Nat.exists_eq_succ_of_ne_zero
    intro hzero
    exact hpos (UInt64.toNat_inj.mp hzero)
  have hsub : f.size - 0 = f.size := UInt64.sub_zero f.size
  -- The first round asks for the whole file and gets it, so there is no second one.
  have hmsg : K.callWith p vfs { messageInit 0 Service.vfs Msg.read with
      arg0 := t, arg1 := 0, arg2 := image + 0, arg3 := f.size - 0 } [] k =
        (.ok answer, k.withRead image f) := by
    rw [hsub, UInt64.add_zero]
    exact hcall
  have hcheck : answer.arg0 ≠ 0 ∧ answer.arg0 ≤ f.size - 0 := by
    rw [hanswer, hsub]
    exact ⟨hpos, UInt64.le_refl _⟩
  have hmore : ¬ f.size ≤ 0 := by
    rw [UInt64.le_iff_toNat_le, hn]
    exact Nat.not_succ_le_zero n
  unfold loaderReadFile
  rw [Effect.bind_of_ok (Effect.require_pos ⟨hvfs, ht, himage, hpos⟩ _), hn]
  unfold loaderReadLoop
  rw [if_neg hmore, Effect.bind_of_ok hmsg, Effect.bind_of_ok (Effect.require_pos hcheck _), hanswer,
    UInt64.zero_add]
  cases n with
  | zero => rfl
  | succ n =>
    unfold loaderReadLoop
    rw [if_pos (UInt64.le_refl _)]
    rfl

theorem loaderCloseFile_run {i : Fin tmpfsMaxOpenFiles} {t : UInt64} (hreach : ReachesFile k vfs t)
    (hslot : tmpfsSlotForCap k t = .ok i) (ht : t ≠ 0) :
    loaderCloseFile p vfs t k = (.ok (), k.closeFile i) := by
  obtain ⟨closed, hclose⟩ := callWith_close p hreach.close hslot
  unfold loaderCloseFile
  rw [Effect.bind_of_ok (Effect.require_pos ⟨hreach.close.ne_zero, ht⟩ _), Effect.bind_of_ok hclose]
  rfl

/-- What `loader_open_file` makes of the answer to OPEN. -/
theorem loaderOpenFile_run {path t : UInt64} {answer : Message} {k₁ : Kernel δ} (hvfs : vfs ≠ 0)
    (hne : path ≠ 0)
    (hopen : K.callWith p vfs { messageInit 0 Service.vfs Msg.openFile with arg0 := path } text k =
      (.ok answer, k₁))
    (harg0 : answer.arg0 = t) (harg1 : answer.arg1 = f.size) (ht : t ≠ 0)
    (hsize : f.size ≠ 0 ∧ f.size ≤ loaderMaxImageSize) :
    loaderOpenFile p vfs path text k = (.ok (t, f.size), k₁) := by
  have hfound : answer.arg0 ≠ 0 ∧ answer.arg1 ≠ 0 := by
    rw [harg0, harg1]
    exact ⟨ht, hsize.1⟩
  have hbound : answer.arg1 ≤ loaderMaxImageSize := by
    rw [harg1]
    exact hsize.2
  unfold loaderOpenFile
  rw [Effect.bind_of_ok (Effect.require_pos ⟨hvfs, hne⟩ _), Effect.bind_of_ok hopen,
    Effect.bind_of_ok (Effect.require_pos hfound _), Effect.bind_of_ok (Effect.require_pos hbound _),
    harg0, harg1]
  rfl

/-- The services find a file of the initrd. -/
theorem FilesServed.openable (hserved : FilesServed k vfs) (hroom : FileRoom k) (hpath : PathOk text)
    (hfind : initrdFind k.initrd text = .ok f) {path : UInt64} (hne : path ≠ 0) :
    Openable k path text f := by
  refine ⟨hne, ⟨vfs, hserved.lookup, hserved.reaches (.inl ⟨rfl, hne, hpath.root⟩)⟩, hroom, ?_⟩
  unfold Initrd.resolves
  have htext : pathOfMessage (openMessage path) text = .ok text := pathOfMessage_ok hne rfl hpath
  rw [htext]
  exact hfind

/-- **Reading.**  A file that is opened is read whole. -/
theorem loaderReadImage_run (hwf : TablesWf k.objects k.caps) {a : LoadAnswers}
    (hopenable : Openable k a.path text f) (hpos : f.size ≠ 0) (hmax : f.data.length ≤ 65536)
    (halloc : a.image = some image) (himage : image ≠ 0) :
    ∃ k', loaderReadImage p a text k = (.ok (image, f.size), k') ∧ ImageIn k k' f image := by
  obtain ⟨vfs, hlookup, hreach⟩ := hopenable.reaches
  obtain ⟨k₁, i, fileId, t, answer, hopen, harg0, harg1, hmade⟩ :=
    callWith_open p hreach hopenable.room hopenable.found
  obtain ⟨hslot, hfile⟩ := hmade.slot hwf
  have hreach₁ := hmade.lasting.reachesFile hwf hreach t
  have ht : t ≠ 0 := by
    rintro rfl
    cases hslot
  have hlen : f.size.toNat = f.data.length := UInt64.toNat_ofNat_of_lt' (show _ < 2 ^ 64 by omega)
  have hbound : f.size ≤ loaderMaxImageSize := by
    rw [UInt64.le_iff_toNat_le, hlen]
    exact hmax
  -- Open, read and close, each at the state that the one before has left.
  have hopened : loaderOpenFile p vfs a.path text k = (.ok (t, f.size), k₁) :=
    loaderOpenFile_run p hreach.ne_zero hopenable.pointer hopen harg0 harg1 ht ⟨hpos, hbound⟩
  have hread := loaderReadFile_run p hreach₁ hslot (by rw [hfile]) hpos himage ht
  rw [k₁.withRead_eq image (by omega)] at hread
  have hreach₂ : ReachesFile (k₁.withBytes image f) vfs t := ⟨hreach₁.read, hreach₁.close⟩
  have hclosed := loaderCloseFile_run p hreach₂ (i := i) hslot ht
  refine ⟨(k₁.withBytes image f).closeFile i, ?_, ⟨k₁, i, fileId, t, hmade, rfl⟩⟩
  have hask : Effect.ask (fun k : Kernel δ => serviceLookup k.services Service.vfs) k =
      (.ok vfs, k) := congrArg (·, k) hlookup
  unfold loaderReadImage
  rw [Effect.bind_of_ok hask, Effect.bind_of_ok hopened]
  dsimp only
  rw [halloc]
  -- The buffer is there, so the error path that frees it is not taken.
  have hbuffered : (do
      Effect.require (image ≠ 0) .nomem
      loaderReadFile p vfs t image f.size
      pure image : K δ UInt64) k₁ = (.ok image, k₁.withBytes image f) := by
    rw [Effect.bind_of_ok (Effect.require_pos himage _), Effect.bind_of_ok hread]
    rfl
  rw [Effect.attempt_bind]
  dsimp only
  rw [hbuffered]
  dsimp only
  rw [Effect.attempt_bind, hclosed]
  rfl

end image

end Scdk
