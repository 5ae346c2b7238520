import Scdk.Core.Payloads
import Scdk.Core.Room

/-! # Creations that fail

    Every creator takes a record of its own table, makes an object for it and mints
    a token.  When there is no slot for the token, the record is given back, but an
    object cannot be removed.

    * `SameEntries`: the occupied object slots and the live tokens did not change,
    * `MakeCall.Leaks`: the calls that fail after they have made an object, said
      with the state before the call,
    * `Leaves`: what a creation does to the two tables, one lemma for each creator,
    * `failed_creation`: a creation that fails leaves the entries alone exactly if it
      is not one of these calls. -/

namespace Scdk

variable {δ : Type}

/-! ## Entries -/

/-- The slots of the object table that have an object. -/
def ObjectTable.occupiedSlots (o : ObjectTable) : Set (Fin maxObjects) :=
  {i | (o.object i).type ≠ ObjType.none}

/-- The tokens that `scdk_cap_lookup` accepts. -/
def liveTokens (o : ObjectTable) (c : CapTable) : Set UInt64 := {t | ∃ e, capLookup o c t = .ok e}

/-- The occupied object slots and the live tokens are the same. -/
structure SameEntries (m m' : Machine δ) : Prop where
  objects : m'.kernel.objects.occupiedSlots = m.kernel.objects.occupiedSlots
  tokens : liveTokens m'.kernel.objects m'.kernel.caps = liveTokens m.kernel.objects m.kernel.caps

theorem ObjectTable.room_eq_of_occupiedSlots {o o' : ObjectTable}
    (h : o'.occupiedSlots = o.occupiedSlots) : o'.room = o.room := by
  unfold ObjectTable.room
  congr 1
  funext i
  have hi := Set.ext_iff.mp h i
  simp only [ObjectTable.occupiedSlots, Set.mem_ofPred_eq, ne_eq, not_iff_not] at hi
  exact Bool.eq_iff_iff.mpr (by simpa using hi)

/-- A creator with its pointer arguments.  A null pointer (a handler, or the place for
    the token) is refused before anything is done. -/
def createStep (m : Machine δ) (nullPointer : Bool) (call : MakeCall) :
    Except Err UInt64 × Machine δ :=
  if nullPointer = true then (.error .inval, m) else makeStep m call

/-! ## The calls that leave an object behind -/

/-- The call comes to `scdk_object_create`, with a core that exists: its arguments
    pass the checks and there is a record for it. -/
def MakeCall.Reaches (m : Machine δ) : MakeCall → Prop
  | .endpoint ownerCore _ => ¬ maxCores ≤ ownerCore ∧ ∃ i, (m.kernel.endpoints i).objectId = 0
  | .ring ownerCore entries boundTarget =>
    entries ≠ 0 ∧ entries.toNat ≤ ringMaxEntries ∧
      (boundTarget = 0 ∨ ∃ e,
        capCheck m.kernel.objects m.kernel.caps boundTarget Right.send ObjType.endpoint = .ok e) ∧
      ¬ maxCores ≤ ownerCore ∧ ∃ i, (m.kernel.rings i).objectId = 0
  | .grant base length rights _ =>
    base ≠ 0 ∧ length ≠ 0 ∧ rights ≠ 0 ∧ rights &&& ~~~grantRightsMask = 0 ∧
      ∃ i, (m.kernel.grants.kernel i).objectId = 0
  | .userGrant v terms =>
    terms.sourceTask ≠ 0 ∧ terms.userBase ≠ 0 ∧ terms.length ≠ 0 ∧ terms.rights ≠ 0 ∧
      terms.rights &&& ~~~grantRightsMask = 0 ∧ terms.targetEndpoint ≠ 0 ∧
      (∃ e, capCheck m.kernel.objects m.kernel.caps terms.sourceTask Right.read ObjType.task = .ok e) ∧
      (∃ e, capCheck m.kernel.objects m.kernel.caps terms.targetEndpoint Right.send
        ObjType.endpoint = .ok e) ∧
      checkedUserRange v terms.userBase terms.length (terms.rights &&& Right.write ≠ 0) = .ok () ∧
      -- The record of a revoked grant has an object already.
      ∃ i, (Slots.firstSlot fun i =>
        (m.kernel.grants.user i).objectId == 0 || (m.kernel.grants.user i).revoked) = some i ∧
        (m.kernel.grants.user i).objectId = 0
  | .task ownerCore _ => ¬ maxCores ≤ ownerCore ∧ ∃ i, (m.tasks i).objectId = 0
  | .thread taskCap _ _ _ =>
    (∃ e, capCheck m.kernel.objects m.kernel.caps taskCap Right.bind ObjType.task = .ok e) ∧
      (∃ t, Sched.taskSlotForCap m.kernel.objects m.kernel.caps m.tasks taskCap = .ok t ∧
        ¬ maxCores ≤ (m.tasks t).ownerCore) ∧
      ∃ i, (m.threads i).objectId = 0
  | .addressSpace v storage pages =>
    storage ≠ none ∧ v.initialized = true ∧ ∃ page, (pageAlloc pages).1 = .ok page
  | .file msg path =>
    (∃ f, m.kernel.initrd.resolves msg path = .ok f) ∧
      ∃ i, (m.kernel.files i).isOpen = false
  | .device msg =>
    msg.arg0 = devmgrFakeDeviceId ∧ (∃ i, (m.devmgr.devices i).present = false) ∧
      ∃ i, (m.devmgr.queues i).present = false
  | _ => False

/-- What the call still needs after its first object cannot be had.  A thread with an
    entry needs a stack, and a device has an object and a token of its own besides
    those of its queue. -/
def MakeCall.Short (m : Machine δ) : MakeCall → Prop
  | .thread _ entry _ stack => (entry ≠ 0 ∧ stack = none) ∨ m.kernel.caps.room = 0
  | .device _ => m.kernel.objects.room < 2 ∨ m.kernel.caps.room < 2
  | _ => m.kernel.caps.room = 0

/-- The call fails after it has made an object. -/
def MakeCall.Leaks (m : Machine δ) (call : MakeCall) : Prop :=
  call.Reaches m ∧ 0 < m.kernel.objects.room ∧ call.Short m

/-! ## What a creation leaves -/

/-- The answer and the tables of a creation.  If it fails, it has either done nothing
    to the tables or, in the case `leaks`, left an object in them. -/
structure Leaves (leaks : Prop) (o : ObjectTable) (c : CapTable) (r : Except Err UInt64)
    (o' : ObjectTable) (c' : CapTable) : Prop where
  kept : ¬ leaks → ∀ e, r = .error e → o' = o ∧ c' = c
  leaked : leaks → (∃ e, r = .error e) ∧ o'.room < o.room

section leaves

variable {leaks leaks' : Prop} {o o' : ObjectTable} {c c' : CapTable} {r : Except Err UInt64}

theorem Leaves.refused (h : ¬ leaks) : Leaves leaks o c r o c :=
  ⟨fun _ _ _ => ⟨rfl, rfl⟩, fun hleaks => absurd hleaks h⟩

theorem Leaves.done {t : UInt64} (h : ¬ leaks) : Leaves leaks o c (.ok t) o' c' :=
  ⟨fun _ _ hr => (nomatch hr), fun hleaks => absurd hleaks h⟩

theorem Leaves.short {e : Err} (h : leaks) (hroom : o'.room < o.room) :
    Leaves leaks o c (.error e) o' c' :=
  ⟨fun hnot => absurd h hnot, fun _ => ⟨⟨e, rfl⟩, hroom⟩⟩

theorem Leaves.congr (h : Leaves leaks o c r o' c') (hiff : leaks' ↔ leaks) :
    Leaves leaks' o c r o' c' := by
  rw [propext hiff]
  exact h

/-- An object with a token. -/
theorem objectWithCap_leaves {type ownerCore : UInt32} {rights : UInt64} (payload : Payload)
    (htype : type ≠ ObjType.none) (hrights : rights ≠ 0) :
    Leaves (¬ maxCores ≤ ownerCore ∧ 0 < o.room ∧ c.room = 0) o c
      (objectWithCap o c type ownerCore payload rights).1
      (objectWithCap o c type ownerCore payload rights).2.1
      (objectWithCap o c type ownerCore payload rights).2.2 := by
  by_cases hreach : ¬ maxCores ≤ ownerCore ∧ 0 < o.room
  · obtain ⟨hcore, ho⟩ := hreach
    by_cases hc : c.room = 0
    · obtain ⟨o', heq, hroom⟩ := @objectWithCap_full o c type ownerCore payload rights htype hrights
        hcore ho hc
      rw [heq]
      have hless : o'.room < o.room := by omega
      exact .short ⟨hcore, ho, hc⟩ hless
    · obtain ⟨t, o', c', heq, _⟩ := @objectWithCap_room o c type ownerCore payload rights htype
        hrights hcore ho (by omega)
      rw [heq]
      exact .done fun h => hc h.2.2
  · obtain ⟨e, heq⟩ := @objectWithCap_refused o c type ownerCore payload rights
      (by simpa [or_iff_not_imp_left] using hreach)
    rw [heq]
    exact .refused fun h => hreach ⟨h.1, h.2.1⟩

end leaves

/-! ## The creators -/

section creators

variable {o : ObjectTable} {c : CapTable}

/-- The answer and the two tables of a creator. -/
def tablesOf {α : Type} (x : Except Err UInt64 × ObjectTable × CapTable × α) :
    Except Err UInt64 × ObjectTable × CapTable := (x.1, x.2.1, x.2.2.1)

theorem endpointCreateSlot_tables (endpoints : EndpointTable) (i : Fin maxEndpoints)
    (ownerCore : UInt32) (handler : Handler) :
    tablesOf (endpointCreateSlot o c endpoints i ownerCore handler) =
      objectWithCap o c ObjType.endpoint ownerCore (.endpoint i) endpointRights := by
  unfold endpointCreateSlot objectWithCap
  rcases objectCreate o ObjType.endpoint ownerCore 0 (.endpoint i) with ⟨_ | objectId, o'⟩
  · rfl
  · dsimp only
    rcases capCreate o' c objectId endpointRights with ⟨_ | cap, c'⟩ <;> rfl

theorem ringCreateSlot_tables (rings : RingTable) (i : Fin maxRings) (ownerCore entries : UInt32)
    (boundTarget : UInt64) :
    tablesOf (ringCreateSlot o c rings i ownerCore entries boundTarget) =
      objectWithCap o c ObjType.ring ownerCore (.ring i) ringRights := by
  unfold ringCreateSlot objectWithCap
  rcases objectCreate o ObjType.ring ownerCore 0 (.ring i) with ⟨_ | objectId, o'⟩
  · rfl
  · dsimp only
    rcases capCreate o' c objectId ringRights with ⟨_ | cap, c'⟩ <;> rfl

theorem grantCreateSlot_tables (grants : GrantTable) (i : Fin maxGrants)
    (base length rights : UInt64) (lifetime : UInt32) :
    tablesOf (grantCreateSlot o c grants i base length rights lifetime) =
      objectWithCap o c ObjType.grant bootCore (.grant i) rights := by
  unfold grantCreateSlot objectWithCap
  rcases objectCreate o ObjType.grant bootCore 0 (.grant i) with ⟨_ | objectId, o'⟩
  · rfl
  · dsimp only
    rcases capCreate o' c objectId rights with ⟨_ | cap, c'⟩ <;> rfl

theorem userGrantFill_tables (g : GrantTables) (i : Fin maxUserGrants) (reuse : Bool)
    (objectId sourceTask userBase length rights targetEndpoint : UInt64) :
    tablesOf (userGrantFill o c g i reuse objectId sourceTask userBase length rights targetEndpoint) =
      ((capCreate o c objectId (userGrantRights rights)).1, o,
        (capCreate o c objectId (userGrantRights rights)).2) := by
  unfold userGrantFill
  rcases capCreate o c objectId (userGrantRights rights) with ⟨_ | cap, c'⟩ <;> rfl

theorem userGrantRights_ne_zero {rights : UInt64} (h : rights ≠ 0) : userGrantRights rights ≠ 0 := by
  unfold userGrantRights
  intro hzero
  exact h (UInt64.or_eq_zero_iff.mp hzero).1

/-- A user grant in a record that has no object. -/
theorem userGrantCreateSlot_tables {g : GrantTables} {i : Fin maxUserGrants}
    (h : (g.user i).objectId = 0) (sourceTask userBase length rights targetEndpoint : UInt64) :
    tablesOf (userGrantCreateSlot o c g i sourceTask userBase length rights targetEndpoint) =
      objectWithCap o c ObjType.grant bootCore (.userGrant i) (userGrantRights rights) := by
  unfold userGrantCreateSlot objectWithCap
  rw [if_neg (not_not.mpr h)]
  rcases objectCreate o ObjType.grant bootCore 0 (.userGrant i) with ⟨_ | objectId, o'⟩
  · rfl
  · dsimp only
    rw [userGrantFill_tables]

theorem taskCreateSlot_tables (tasks : TaskTable) (i : Fin maxTasks) (ownerCore : UInt32)
    (addressSpace : UInt64) :
    tablesOf (taskCreateSlot o c tasks i ownerCore addressSpace) =
      objectWithCap o c ObjType.task ownerCore (.task i) taskRights := by
  unfold taskCreateSlot objectWithCap
  rcases objectCreate o ObjType.task ownerCore 0 (.task i) with ⟨_ | objectId, o'⟩
  · rfl
  · dsimp only
    rcases capCreate o' c objectId taskRights with ⟨_ | cap, c'⟩ <;> rfl

/-- A thread that has its stack, or needs none. -/
theorem threadCreateSlot_tables (tasks : TaskTable) (threads : ThreadTable) (i : Fin maxThreads)
    (t : Fin maxTasks) (task taskId entry arg : UInt64) {stack : Option UInt64}
    (h : ¬ (entry ≠ 0 ∧ stack = none)) :
    tablesOf (threadCreateSlot o c tasks threads i t task taskId entry arg stack) =
      objectWithCap o c ObjType.thread (tasks t).ownerCore (.thread i) threadRights := by
  unfold threadCreateSlot objectWithCap
  rcases objectCreate o ObjType.thread (tasks t).ownerCore 0 (.thread i) with ⟨_ | objectId, o'⟩
  · rfl
  · dsimp only
    rw [if_neg h]
    rcases capCreate o' c objectId threadRights with ⟨_ | cap, c'⟩ <;> rfl

/-- An address space that has a root. -/
theorem addressSpaceCreate_tables (aspaces : AddressSpaces) {v v' : Vmm} {pages : PageSupply}
    {rootPhys : UInt64} (b : Nat) (h : vmmCreateRoot v pages = (.ok rootPhys, v')) :
    tablesOf (addressSpaceCreate o c aspaces v (some b) pages) =
      objectWithCap o c ObjType.addressSpace bootCore (.addressSpace b) spaceRights := by
  unfold addressSpaceCreate objectWithCap
  dsimp only
  rw [h]
  dsimp only
  rcases objectCreate o ObjType.addressSpace bootCore 0 (.addressSpace b) with ⟨_ | objectId, o'⟩
  · rfl
  · dsimp only
    rcases capCreate o' c objectId spaceRights with ⟨_ | cap, c'⟩ <;> rfl

/-- A file in a free slot.  The answer is the token in the message. -/
theorem openFile_tables (k : Kernel δ) (backing : InitrdFile) (i : Fin tmpfsMaxOpenFiles) :
    ((k.openFile backing i).1.map fun _ => (k.openFile backing i).2.msg.arg0,
        (k.openFile backing i).2.objects, (k.openFile backing i).2.caps) =
      objectWithCap k.objects k.caps ObjType.file bootCore (.file i) Right.read := by
  unfold Kernel.openFile objectWithCap
  rcases objectCreate k.objects ObjType.file bootCore 0 (.file i) with ⟨_ | objectId, o'⟩
  · rfl
  · dsimp only
    rcases capCreate o' k.caps objectId Right.read with ⟨_ | cap, c'⟩ <;> rfl

end creators

section leaves

variable {leaks : Prop} {o : ObjectTable} {c : CapTable}

/-- A creator that ends with an object and a token. -/
theorem Leaves.ofTables {α : Type} {x : Except Err UInt64 × ObjectTable × CapTable × α}
    {type ownerCore : UInt32} {payload : Payload} {rights : UInt64}
    (h : tablesOf x = objectWithCap o c type ownerCore payload rights)
    (htype : type ≠ ObjType.none) (hrights : rights ≠ 0)
    (hiff : leaks ↔ ¬ maxCores ≤ ownerCore ∧ 0 < o.room ∧ c.room = 0) :
    Leaves leaks o c x.1 x.2.1 x.2.2.1 := by
  have hleaves := (@objectWithCap_leaves o c type ownerCore rights payload htype hrights).congr hiff
  rw [← h] at hleaves
  exact hleaves

theorem not_free_of_firstSlot {n : Nat} {p : Fin n → Bool} (h : Slots.firstSlot p = none) :
    ¬ ∃ i, p i = true := by
  rintro ⟨i, hi⟩
  rw [Slots.firstSlot_eq_none h i] at hi
  cases hi

theorem free_of_firstSlot {n : Nat} {p : Fin n → Bool} {i : Fin n} (h : Slots.firstSlot p = some i) :
    ∃ i, p i = true := ⟨i, (Slots.firstSlot_eq_some h).1⟩

end leaves

/-- What a call leaves of the tables. -/
def MakeCall.LeavesTables (call : MakeCall) (m : Machine δ) : Prop :=
  Leaves (call.Leaks m) m.kernel.objects m.kernel.caps (makeStep m call).1
    (makeStep m call).2.kernel.objects (makeStep m call).2.kernel.caps

section calls

variable (m : Machine δ)

theorem endpoint_leaves (ownerCore : UInt32) (handler : Handler) :
    (MakeCall.endpoint ownerCore handler).LeavesTables m := by
  show Leaves _ m.kernel.objects m.kernel.caps
    (endpointCreate m.kernel.objects m.kernel.caps m.kernel.endpoints ownerCore handler).1
    (endpointCreate m.kernel.objects m.kernel.caps m.kernel.endpoints ownerCore handler).2.1
    (endpointCreate m.kernel.objects m.kernel.caps m.kernel.endpoints ownerCore handler).2.2.1
  unfold endpointCreate
  split
  · next hnone =>
    refine .refused fun h => not_free_of_firstSlot hnone ?_
    simpa using h.1.2
  · next i hsome =>
    apply Leaves.ofTables (endpointCreateSlot_tables m.kernel.endpoints i ownerCore handler)
      (by decide) (by decide)
    have hfree : ∃ i, (m.kernel.endpoints i).objectId = 0 := by simpa using free_of_firstSlot hsome
    simp [MakeCall.Leaks, MakeCall.Reaches, MakeCall.Short, hfree]

theorem ring_leaves (ownerCore entries : UInt32) (boundTarget : UInt64) :
    (MakeCall.ring ownerCore entries boundTarget).LeavesTables m := by
  show Leaves _ m.kernel.objects m.kernel.caps
    (ringCreate m.kernel.objects m.kernel.caps m.kernel.rings ownerCore entries boundTarget).1
    (ringCreate m.kernel.objects m.kernel.caps m.kernel.rings ownerCore entries boundTarget).2.1
    (ringCreate m.kernel.objects m.kernel.caps m.kernel.rings ownerCore entries boundTarget).2.2.1
  -- The rest of the function, once the checks have passed.
  have hfirst : entries ≠ 0 ∧ entries.toNat ≤ ringMaxEntries ∧ (boundTarget = 0 ∨ ∃ e,
        capCheck m.kernel.objects m.kernel.caps boundTarget Right.send ObjType.endpoint = .ok e) →
      Leaves ((MakeCall.ring ownerCore entries boundTarget).Leaks m) m.kernel.objects m.kernel.caps
        (ringCreateFirst m.kernel.objects m.kernel.caps m.kernel.rings ownerCore entries boundTarget).1
        (ringCreateFirst m.kernel.objects m.kernel.caps m.kernel.rings ownerCore entries
          boundTarget).2.1
        (ringCreateFirst m.kernel.objects m.kernel.caps m.kernel.rings ownerCore entries
          boundTarget).2.2.1 := by
    rintro ⟨hne, hle, htarget⟩
    unfold ringCreateFirst
    split
    · next hnone =>
      refine .refused fun h => not_free_of_firstSlot hnone ?_
      simpa using h.1.2.2.2.2
    · next i hsome =>
      apply Leaves.ofTables (ringCreateSlot_tables m.kernel.rings i ownerCore entries boundTarget)
        (by decide) (by decide)
      have hfree : ∃ i, (m.kernel.rings i).objectId = 0 := by simpa using free_of_firstSlot hsome
      simp only [MakeCall.Leaks, MakeCall.Reaches, MakeCall.Short, hne, hle, htarget, hfree, ne_eq,
        not_false_eq_true, true_and, and_true]
  unfold ringCreate
  split
  · next hbad =>
    refine .refused fun h => ?_
    rcases hbad with h0 | hlt
    · exact h.1.1 h0
    · exact absurd h.1.2.1 (by omega)
  next hargs =>
  rw [not_or, not_lt] at hargs
  split
  · next hne =>
    split
    · next e hcheck =>
      refine .refused fun h => ?_
      rcases h.1.2.2.1 with h0 | ⟨entry, hok⟩
      · exact hne h0
      · rw [hcheck] at hok
        cases hok
    · next entry hcheck => exact hfirst ⟨hargs.1, hargs.2, .inr ⟨entry, hcheck⟩⟩
  · next h0 => exact hfirst ⟨hargs.1, hargs.2, .inl (not_not.mp h0)⟩

theorem grant_leaves (base length rights : UInt64) (lifetime : UInt32) :
    (MakeCall.grant base length rights lifetime).LeavesTables m := by
  show Leaves _ m.kernel.objects m.kernel.caps
    (grantCreate m.kernel.objects m.kernel.caps m.kernel.grants.kernel base length rights lifetime).1
    (grantCreate m.kernel.objects m.kernel.caps m.kernel.grants.kernel base length rights lifetime).2.1
    (grantCreate m.kernel.objects m.kernel.caps m.kernel.grants.kernel base length rights
      lifetime).2.2.1
  unfold grantCreate
  split
  · next hbad =>
    refine .refused fun h => ?_
    obtain ⟨hbase, hlength, hrights, hmask, _⟩ := h.1
    rcases hbad with h0 | h0 | h0 | h0
    · exact hbase h0
    · exact hlength h0
    · exact hrights h0
    · exact h0 hmask
  next hargs =>
  simp only [not_or, not_not] at hargs
  obtain ⟨hbase, hlength, hrights, hmask⟩ := hargs
  split
  · next hnone =>
    refine .refused fun h => not_free_of_firstSlot hnone ?_
    simpa using h.1.2.2.2.2
  · next i hsome =>
    apply Leaves.ofTables
      (grantCreateSlot_tables m.kernel.grants.kernel i base length rights lifetime)
      (by decide) hrights
    have hfree : ∃ i, (m.kernel.grants.kernel i).objectId = 0 := by
      simpa using free_of_firstSlot hsome
    have hcore : ¬ maxCores ≤ bootCore := by decide
    simp only [MakeCall.Leaks, MakeCall.Reaches, MakeCall.Short, hbase, hlength, hrights, hmask,
      hfree, hcore, ne_eq, not_false_eq_true, true_and]

theorem task_leaves (ownerCore : UInt32) (addressSpace : UInt64) :
    (MakeCall.task ownerCore addressSpace).LeavesTables m := by
  show Leaves _ m.kernel.objects m.kernel.caps
    (taskCreate m.kernel.objects m.kernel.caps m.tasks ownerCore addressSpace).1
    (taskCreate m.kernel.objects m.kernel.caps m.tasks ownerCore addressSpace).2.1
    (taskCreate m.kernel.objects m.kernel.caps m.tasks ownerCore addressSpace).2.2.1
  unfold taskCreate
  split
  · next hcore => exact .refused fun h => h.1.1 hcore
  split
  · next hnone =>
    refine .refused fun h => not_free_of_firstSlot hnone ?_
    simpa using h.1.2
  · next i hsome =>
    apply Leaves.ofTables (taskCreateSlot_tables m.tasks i ownerCore addressSpace)
      (by decide) (by decide)
    have hfree : ∃ i, (m.tasks i).objectId = 0 := by simpa using free_of_firstSlot hsome
    simp [MakeCall.Leaks, MakeCall.Reaches, MakeCall.Short, hfree]

theorem userGrant_leaves (v : Vmm) (terms : GrantTerms) :
    (MakeCall.userGrant v terms).LeavesTables m := by
  show Leaves _ m.kernel.objects m.kernel.caps
    (userGrantCreate m.kernel.objects m.kernel.caps m.kernel.grants v terms.sourceTask terms.userBase
      terms.length terms.rights terms.targetEndpoint).1
    (userGrantCreate m.kernel.objects m.kernel.caps m.kernel.grants v terms.sourceTask terms.userBase
      terms.length terms.rights terms.targetEndpoint).2.1
    (userGrantCreate m.kernel.objects m.kernel.caps m.kernel.grants v terms.sourceTask terms.userBase
      terms.length terms.rights terms.targetEndpoint).2.2.1
  unfold userGrantCreate
  -- Each test of the call that fails is one of `Reaches`, so nothing was made.
  split
  · next hbad =>
    refine .refused fun h => ?_
    obtain ⟨htask, hbase, hlength, hrights, hmask, htarget, _⟩ := h.1
    simp [htask, hbase, hlength, hrights, hmask, htarget] at hbad
  next hargs =>
  simp only [not_or, not_not] at hargs
  obtain ⟨htask, hbase, hlength, hrights, hmask, htarget⟩ := hargs
  split
  · next e hcheck =>
    refine .refused fun h => ?_
    obtain ⟨entry, hok⟩ := h.1.2.2.2.2.2.2.1
    rw [hcheck] at hok
    cases hok
  next taskEntry hsource =>
  split
  · next e hcheck =>
    refine .refused fun h => ?_
    obtain ⟨entry, hok⟩ := h.1.2.2.2.2.2.2.2.1
    rw [hcheck] at hok
    cases hok
  next endpointEntry hendpoint =>
  split
  · next e hcheck =>
    refine .refused fun h => ?_
    have hok := h.1.2.2.2.2.2.2.2.2.1
    rw [hcheck] at hok
    cases hok
  next hrange =>
  split
  · next hnone =>
    refine .refused fun h => ?_
    obtain ⟨i, hsome, _⟩ := h.1.2.2.2.2.2.2.2.2.2
    rw [hnone] at hsome
    cases hsome
  next i hsome =>
  by_cases hid : (m.kernel.grants.user i).objectId = 0
  · -- A slot without an object: the object comes first, then the token.
    have hreach : (MakeCall.userGrant v terms).Reaches m :=
      ⟨htask, hbase, hlength, hrights, hmask, htarget, ⟨_, hsource⟩, ⟨_, hendpoint⟩, hrange, i, hsome,
        hid⟩
    apply Leaves.ofTables (userGrantCreateSlot_tables hid terms.sourceTask terms.userBase terms.length
      terms.rights terms.targetEndpoint) (by decide) (userGrantRights_ne_zero hrights)
    have hcore : ¬ maxCores ≤ bootCore := by decide
    simp only [MakeCall.Leaks, MakeCall.Short, hreach, hcore, not_false_eq_true, true_and]
  · -- The object was there before, so only the token can be missing.
    have hnot : ¬ (MakeCall.userGrant v terms).Leaks m := by
      intro h
      obtain ⟨j, hj, hzero⟩ := h.1.2.2.2.2.2.2.2.2.2
      obtain rfl := Option.some.inj (hsome.symm.trans hj)
      exact hid hzero
    have htables := @userGrantFill_tables m.kernel.objects m.kernel.caps m.kernel.grants i true
      (m.kernel.grants.user i).objectId terms.sourceTask terms.userBase terms.length terms.rights
      terms.targetEndpoint
    rw [tablesOf, Prod.mk.injEq, Prod.mk.injEq] at htables
    obtain ⟨hr, ho, hc⟩ := htables
    unfold userGrantCreateSlot
    rw [if_pos hid]
    refine ⟨fun _ e he => ⟨ho, ?_⟩, fun h => absurd h hnot⟩
    rw [hr] at he
    rw [hc]
    rcases capCreate_cases m.kernel.objects m.kernel.caps (m.kernel.grants.user i).objectId
      (userGrantRights terms.rights) with ⟨e', heq⟩ | ⟨_, _, _, _, _, heq⟩
    · rw [heq]
    · rw [heq] at he
      cases he

theorem thread_leaves (task entry arg : UInt64) (stack : Option UInt64) :
    (MakeCall.thread task entry arg stack).LeavesTables m := by
  show Leaves _ m.kernel.objects m.kernel.caps
    (threadCreate m.kernel.objects m.kernel.caps m.tasks m.threads task entry arg stack).1
    (threadCreate m.kernel.objects m.kernel.caps m.tasks m.threads task entry arg stack).2.1
    (threadCreate m.kernel.objects m.kernel.caps m.tasks m.threads task entry arg stack).2.2.1
  unfold threadCreate
  -- The tests before the object is created.
  split
  · next e hcheck =>
    refine .refused fun h => ?_
    obtain ⟨taskEntry, hok⟩ := h.1.1
    rw [hcheck] at hok
    cases hok
  next taskEntry hcheck =>
  split
  · next e hslot =>
    refine .refused fun h => ?_
    obtain ⟨t, hok, _⟩ := h.1.2.1
    rw [hslot] at hok
    cases hok
  next t hslot =>
  split
  · next hnone =>
    refine .refused fun h => not_free_of_firstSlot hnone ?_
    simpa using h.1.2.2
  next i hsome =>
  have hfree : ∃ i, (m.threads i).objectId = 0 := by simpa using free_of_firstSlot hsome
  have hleaks : (MakeCall.thread task entry arg stack).Leaks m ↔ ¬ maxCores ≤ (m.tasks t).ownerCore ∧
      0 < m.kernel.objects.room ∧ ((entry ≠ 0 ∧ stack = none) ∨ m.kernel.caps.room = 0) := by
    simp only [MakeCall.Leaks, MakeCall.Reaches, MakeCall.Short, hcheck, hslot, hfree,
      Except.ok.injEq, exists_eq', exists_eq_left', true_and, and_true]
  -- A thread that is to run needs a stack, which is asked for after the object.
  by_cases hstack : entry ≠ 0 ∧ stack = none
  · unfold threadCreateSlot
    by_cases hreach : ¬ maxCores ≤ (m.tasks t).ownerCore ∧ 0 < m.kernel.objects.room
    · obtain ⟨id, o', _, hcreate, _, hroom⟩ := @objectCreate_room m.kernel.objects ObjType.thread
        (m.tasks t).ownerCore 0 (.thread i) (by decide) hreach.1 hreach.2
      simp only [hcreate]
      rw [if_pos hstack]
      have hless : o'.room < m.kernel.objects.room := by omega
      exact .short (hleaks.mpr ⟨hreach.1, hreach.2, .inl hstack⟩) hless
    · obtain ⟨e, hcreate⟩ := @objectCreate_refused m.kernel.objects ObjType.thread
        (m.tasks t).ownerCore 0 (.thread i) (by simpa [or_iff_not_imp_left] using hreach)
      simp only [hcreate]
      exact .refused fun h => hreach ⟨(hleaks.mp h).1, (hleaks.mp h).2.1⟩
  · apply Leaves.ofTables (threadCreateSlot_tables m.tasks m.threads i t task taskEntry.objectId entry
      arg hstack) (by decide) (by decide)
    rw [hleaks]
    simp only [hstack, false_or]

theorem addressSpace_leaves (v : Vmm) (storage : Option Nat) (pages : PageSupply) :
    (MakeCall.addressSpace v storage pages).LeavesTables m := by
  show Leaves _ m.kernel.objects m.kernel.caps
    (addressSpaceCreate m.kernel.objects m.kernel.caps m.aspaces v storage pages).1
    (addressSpaceCreate m.kernel.objects m.kernel.caps m.aspaces v storage pages).2.1
    (addressSpaceCreate m.kernel.objects m.kernel.caps m.aspaces v storage pages).2.2.1
  cases storage with
  | none => exact .refused fun h => h.1.1 rfl
  | some b =>
    rcases hroot : vmmCreateRoot v pages with ⟨_ | rootPhys, v'⟩
    · unfold addressSpaceCreate
      simp only [hroot]
      refine .refused fun h => ?_
      obtain ⟨_, hinit, page, hpage⟩ := h.1
      unfold vmmCreateRoot at hroot
      rw [if_neg (by simp [hinit])] at hroot
      rcases hp : pageAlloc pages with ⟨r, rest⟩
      rw [hp] at hpage hroot
      obtain rfl : r = .ok page := hpage
      cases hroot
    · have hreach : (MakeCall.addressSpace v (some b) pages).Reaches m := by
        unfold vmmCreateRoot at hroot
        split at hroot
        · cases hroot
        next hinit =>
        split at hroot
        · cases hroot
        · next page _ hpage => exact ⟨nofun, by simpa using hinit, page, by rw [hpage]⟩
      apply Leaves.ofTables (addressSpaceCreate_tables m.aspaces b hroot) (by decide) (by decide)
      have hcore : ¬ maxCores ≤ bootCore := by decide
      simp only [MakeCall.Leaks, MakeCall.Short, hreach, hcore, not_false_eq_true, true_and]

theorem file_leaves (msg : Message) (path : List UInt8) :
    (MakeCall.file msg path).LeavesTables m := by
  unfold MakeCall.LeavesTables makeStep Kernel.deliver
  simp only [tmpfsHandleOpen_run]
  cases hresolves : m.kernel.initrd.resolves msg path with
  | error e =>
    refine .refused fun h => ?_
    obtain ⟨f, hf⟩ := h.1.1
    rw [hresolves] at hf
    cases hf
  | ok backing =>
    dsimp only
    split
    · next hnone =>
      refine .refused fun h => not_free_of_firstSlot hnone ?_
      simpa using h.1.2
    · next i hsome =>
      have htables := openFile_tables { m.kernel with msg := msg, payload := path } backing i
      have hreach : (MakeCall.file msg path).Reaches m := by
        refine ⟨⟨backing, hresolves⟩, ?_⟩
        simpa using free_of_firstSlot hsome
      have hcore : ¬ maxCores ≤ bootCore := by decide
      have hleaves := @objectWithCap_leaves m.kernel.objects m.kernel.caps ObjType.file bootCore
        Right.read (.file i) (by decide) (by decide)
      rw [← htables] at hleaves
      apply hleaves.congr
      simp only [MakeCall.Leaks, MakeCall.Short, hreach, hcore, not_false_eq_true, true_and]

/-- A device with its queue: two objects, each with a token. -/
theorem device_leaves (msg : Message) : (MakeCall.device msg).LeavesTables m := by
  show Leaves _ m.kernel.objects m.kernel.caps
    ((devmgrRegisterFakeDevice m.kernel.objects m.kernel.caps m.devmgr msg).1.map fun msg => msg.arg1)
    (devmgrRegisterFakeDevice m.kernel.objects m.kernel.caps m.devmgr msg).2.1
    (devmgrRegisterFakeDevice m.kernel.objects m.kernel.caps m.devmgr msg).2.2.1
  unfold devmgrRegisterFakeDevice
  split
  · next hbad => exact .refused fun h => hbad h.1.1
  next hid =>
  have hcore : ¬ maxCores ≤ bootCore := by decide
  split
  · next i q hdevice hqueue =>
    have hreach : (MakeCall.device msg).Reaches m :=
      ⟨not_not.mp hid, by simpa using free_of_firstSlot hdevice, by simpa using free_of_firstSlot hqueue⟩
    by_cases ho : m.kernel.objects.room = 0
    · obtain ⟨e, hcreate⟩ := @objectCreate_refused m.kernel.objects ObjType.device bootCore 0
        (.device i) (.inr ho)
      simp only [hcreate]
      exact .refused fun h => absurd h.2.1 (by omega)
    obtain ⟨id, o₁, _, hcreate, hobject, hroom⟩ := @objectCreate_room m.kernel.objects ObjType.device
      bootCore 0 (.device i) (by decide) hcore (by omega)
    simp only [hcreate]
    -- From here on a failure leaves the object of the device.
    have hshort : ∀ {o : ObjectTable} {c : CapTable} {e : Err}, o.room ≤ o₁.room →
        (m.kernel.objects.room < 2 ∨ m.kernel.caps.room < 2) →
        Leaves ((MakeCall.device msg).Leaks m) m.kernel.objects m.kernel.caps (.error e) o c := by
      intro o c e hle hfew
      exact .short ⟨hreach, by omega, hfew⟩ (by omega)
    by_cases hc : m.kernel.caps.room = 0
    · simp only [capCreate_full (by decide : deviceRights ≠ 0) hobject hc]
      exact hshort le_rfl (.inr (by omega))
    obtain ⟨t, c₁, hcap, hcroom⟩ := @capCreate_room o₁ m.kernel.caps id deviceRights _ (by decide)
      hobject (by omega)
    simp only [hcap]
    by_cases ho₁ : o₁.room = 0
    · obtain ⟨e, hcreate₁⟩ := @objectCreate_refused o₁ ObjType.deviceQueue bootCore 0
        (.deviceQueue q) (.inr ho₁)
      simp only [hcreate₁]
      exact hshort le_rfl (.inl (by omega))
    obtain ⟨id₁, o₂, _, hcreate₁, hobject₁, hroom₁⟩ := @objectCreate_room o₁ ObjType.deviceQueue
      bootCore 0 (.deviceQueue q) (by decide) hcore (by omega)
    simp only [hcreate₁]
    by_cases hc₁ : c₁.room = 0
    · simp only [capCreate_full (by decide : deviceQueueRights ≠ 0) hobject₁ hc₁]
      exact hshort (by omega) (.inr (by omega))
    obtain ⟨t₁, c₂, hcap₁, _⟩ := @capCreate_room o₂ c₁ id₁ deviceQueueRights _ (by decide)
      hobject₁ (by omega)
    simp only [hcap₁]
    apply Leaves.done
    rintro ⟨_, _, hfew | hfew⟩
    · omega
    · omega
  · next hnone =>
    refine .refused fun h => ?_
    obtain ⟨_, ⟨i, hi⟩, q, hq⟩ := h.1
    obtain ⟨i', hi'⟩ := Slots.firstSlot_of_count
      (Slots.count_pos (p := fun i => !(m.devmgr.devices i).present) (i := i) (by simpa using hi))
    obtain ⟨q', hq'⟩ := Slots.firstSlot_of_count
      (Slots.count_pos (p := fun i => !(m.devmgr.queues i).present) (i := q) (by simpa using hq))
    exact hnone i' q' hi' hq'

/-- Every creator. -/
theorem MakeCall.leavesTables {call : MakeCall} {k : Subsystem} (h : call.subsystem = some k) :
    call.LeavesTables m := by
  cases call with
  | endpoint ownerCore handler => exact endpoint_leaves m ownerCore handler
  | ring ownerCore entries boundTarget => exact ring_leaves m ownerCore entries boundTarget
  | grant base length rights lifetime => exact grant_leaves m base length rights lifetime
  | userGrant v terms => exact userGrant_leaves m v terms
  | task ownerCore addressSpace => exact task_leaves m ownerCore addressSpace
  | thread task entry arg stack => exact thread_leaves m task entry arg stack
  | addressSpace v storage pages => exact addressSpace_leaves m v storage pages
  | file msg path => exact file_leaves m msg path
  | device msg => exact device_leaves m msg
  | closeFile msg => cases h
  | userGrantRevoke grant => cases h
  | capCreate objectId rights => cases h
  | capRevoke cap => cases h

end calls

/-! ## Failed creations -/

/-- **A creation that fails leaves the tables as they were**, exactly if it does not
    fail after `scdk_object_create` has succeeded. -/
theorem failed_creation (m : Machine δ) (nullPointer : Bool) (call : MakeCall) (k : Subsystem)
    (hcreator : call.subsystem = some k) :
    (∀ e, (createStep m nullPointer call).1 = .error e →
        SameEntries m (createStep m nullPointer call).2) ↔
      nullPointer = true ∨ ¬ call.Leaks m := by
  unfold createStep
  split
  · next hnull => simp only [hnull, true_or, iff_true]; exact fun _ _ => ⟨rfl, rfl⟩
  next hnull =>
  rw [or_iff_right hnull]
  obtain ⟨hkept, hleaked⟩ := MakeCall.leavesTables m hcreator
  constructor
  · intro hsame hleaks
    obtain ⟨⟨e, he⟩, hless⟩ := hleaked hleaks
    have := ObjectTable.room_eq_of_occupiedSlots (hsame e he).objects
    omega
  · intro hnot e he
    obtain ⟨ho, hc⟩ := hkept hnot e he
    constructor
    · rw [ho]
    · rw [ho, hc]

/-- A task with token 0, and no memory for the stack of its first thread. -/
def oneTask : Machine Unit := (makeSystem Unit).exec Machine.zero [.task bootCore 0]

/-- An endpoint is refused for its core, and nothing is left. -/
theorem failed_creation_core :
    SameEntries oneTask (createStep oneTask false (.endpoint 1 .console)).2 := by
  have hnot : ¬ (MakeCall.endpoint 1 .console).Leaks oneTask := by
    rintro ⟨⟨hcore, _⟩, _⟩
    exact hcore (by decide)
  have hkept := (failed_creation oneTask false (.endpoint 1 .console) .endpoint rfl).mpr (.inr hnot)
  exact hkept .inval (by decide +kernel)

/-- A thread without a stack is refused, and its object stays. -/
theorem failed_creation_fails :
    ¬ ∀ (m : Machine Unit) (nullPointer : Bool) (call : MakeCall), call.subsystem ≠ none →
      ∀ e, (createStep m nullPointer call).1 = .error e →
        SameEntries m (createStep m nullPointer call).2 := by
  intro hall
  have hsame := (hall oneTask false (.thread (firstToken 0) 1 0 none) nofun .nomem
    (by decide +kernel)).objects
  have hmem := Set.ext_iff.mp hsame 1
  revert hmem
  unfold ObjectTable.occupiedSlots
  simp only [Set.mem_ofPred_eq]
  decide +kernel

end Scdk
