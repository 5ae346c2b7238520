import Scdk.Ipc.CallRun

/-! # What the handlers add to the trace

    * `Extends Q`: steps that extend the trace by events of `Q`,
    * for each handler, which events have to be in `Q`: the console reads
      grants for two types of messages, tmpfs writes to the destination of two
      types of messages, and nothing else leaves a trace,
    * `endpointCall_extends`: the same for a call. -/

namespace Scdk

variable {δ : Type} {Q : Event → Prop}

/-- The trace grows by events of `Q`. -/
def Extends (Q : Event → Prop) (k k' : Kernel δ) : Prop :=
  ∃ events, k'.trace = k.trace ++ events ∧ ∀ ev ∈ events, Q ev

instance : IsPreorder (Kernel δ) (Extends Q) where
  refl := fun k => ⟨[], (List.append_nil _).symm, fun _ h => absurd h List.not_mem_nil⟩
  trans := by
    intro k k' k'' h h'
    obtain ⟨events, htrace, hev⟩ := h
    obtain ⟨events', htrace', hev'⟩ := h'
    refine ⟨events ++ events', by rw [htrace', htrace, List.append_assoc], ?_⟩
    intro ev hmem
    rcases List.mem_append.mp hmem with hmem | hmem
    · exact hev ev hmem
    · exact hev' ev hmem

theorem extends_of_eq {k k' : Kernel δ} (h : k'.trace = k.trace) : Extends Q k k' :=
  ⟨[], by rw [h, List.append_nil], fun _ h => absurd h List.not_mem_nil⟩

theorem extends_emit {ev : Event} (h : Q ev) : Effect.Within (Extends Q) (K.emit ev : K δ Unit) := by
  intro k
  refine ⟨[ev], rfl, ?_⟩
  intro ev' hmem
  rw [List.mem_singleton.mp hmem]
  exact h

theorem extends_onDevices {α : Type} (f : δ → Except Err α × δ) :
    Effect.Within (Extends Q) (K.onDevices f) := fun _ => extends_of_eq rfl

theorem extends_setMsg (f : Message → Message) :
    Effect.Within (Extends Q) (K.setMsg f : K δ Unit) := fun _ => extends_of_eq rfl

theorem extends_outside (f : Kernel δ → Except Err Unit × Kernel δ) :
    Effect.Within (Extends Q) (K.outside f) := fun _ => extends_of_eq rfl

theorem extends_store (virt : UInt64) (bytes : List UInt8) :
    Effect.Within (Extends Q) (K.store virt bytes : K δ Unit) := fun _ => extends_of_eq rfl

theorem extends_setFile (i : Fin tmpfsMaxOpenFiles) (f : TmpfsFile → TmpfsFile) :
    Effect.Within (Extends Q) (setFile i f : K δ Unit) := fun _ => extends_of_eq rfl

theorem extends_msg : Effect.Within (Extends Q) (K.msg : K δ Message) := Effect.within_ask _

/-- A quiet step adds validations only. -/
theorem Quiet.extends {k k' : Kernel δ} (h : Quiet k k')
    (hval : ∀ ptr size writable, Q (.validated ptr size writable)) : Extends Q k k' := by
  obtain ⟨events, hev, htrace⟩ := h.trace
  refine ⟨events, htrace, ?_⟩
  intro ev hmem
  obtain ⟨ptr, size, writable, rfl⟩ := hev ev hmem
  exact hval ptr size writable

/-! ## The console -/

section console

variable (p : Platform δ) (hread : ∀ task grant source, Q (.grantRead task grant source))

include hread in
theorem extends_userGrantCopyFrom (targetEndpoint grantCap offset length : UInt64) :
    Effect.Within (Extends Q)
      (K.userGrantCopyFrom targetEndpoint grantCap offset length : K δ (List UInt8)) := by
  refine .bind (Effect.within_ask _) fun _ => ?_
  refine .bind Effect.within_get fun _ => ?_
  refine .bind (extends_emit (hread _ _ _)) fun _ => ?_
  exact Effect.within_pure _

theorem extends_consoleHandleWrite (buffer : List UInt8) (arg0 arg1 : UInt64) :
    Effect.Within (Extends Q) (consoleHandleWrite p buffer arg0 arg1) := by
  refine .bind (Effect.within_require _ _) fun _ => ?_
  exact extends_onDevices _

include hread in
theorem extends_consoleHandleGrantWrite (endpoint : UInt64) :
    Effect.Within (Extends Q) (consoleHandleGrantWrite p endpoint) := by
  refine .bind extends_msg fun _ => ?_
  refine .bind (Effect.within_require _ _) fun _ => ?_
  refine .bind (Effect.within_require _ _) fun _ => ?_
  refine .bind (extends_userGrantCopyFrom hread _ _ _ _) fun _ => ?_
  exact extends_onDevices _

theorem extends_consoleHandleGetInfo : Effect.Within (Extends Q) (consoleHandleGetInfo p) := by
  refine .bind (extends_onDevices _) fun _ => ?_
  exact extends_setMsg _

theorem extends_consoleHandleScroll : Effect.Within (Extends Q) (consoleHandleScroll p) := by
  refine .bind extends_msg fun _ => ?_
  refine .bind (Effect.within_require _ _) fun _ => ?_
  exact extends_onDevices _

variable (hconsumed : ∀ ring desc, Q (.consumed ring desc))

include hread hconsumed in
theorem extends_consoleRingLoop (endpoint ring : UInt64) (n : Nat) :
    Effect.Within (Extends Q) (consoleRingLoop p endpoint ring n) := by
  induction n with
  | zero => exact Effect.within_pure ()
  | succ n ih =>
    refine .bind (.bind (fun _ => extends_of_eq rfl) fun _ => ?_) fun desc => ?_
    · refine .bind (extends_emit (hconsumed _ _)) fun _ => ?_
      exact Effect.within_pure _
    have hdesc : Effect.Within (Extends Q) (consoleProcessDesc p endpoint desc) := by
      refine .bind (Effect.within_require _ _) fun _ => ?_
      refine .bind (extends_userGrantCopyFrom hread _ _ _ _) fun _ => ?_
      exact extends_onDevices _
    refine .bind hdesc.attempt fun _ => ?_
    refine .bind (fun _ => extends_of_eq rfl) fun _ => ?_
    refine .bind (Effect.within_ask _) fun _ => ?_
    exact ih

include hread hconsumed in
theorem extends_consoleHandleRingProcess (endpoint : UInt64) :
    Effect.Within (Extends Q) (consoleHandleRingProcess p endpoint) := by
  refine .bind extends_msg fun _ => ?_
  refine .bind (Effect.within_require _ _) fun _ => ?_
  refine .bind (Effect.within_require _ _) fun _ => ?_
  refine .bind (Effect.within_ask _) fun _ => ?_
  refine .bind (Effect.within_require _ _) fun _ => ?_
  exact extends_consoleRingLoop p hread hconsumed _ _ _

end console

/-- The console leaves a trace for two types of messages. -/
theorem consoleEndpointHandler_extends (p : Platform δ) (endpoint : UInt64) (k : Kernel δ)
    (h : k.msg.type = Msg.consoleWrite ∨ k.msg.type = Msg.ringProcess →
      (∀ task grant source, Q (.grantRead task grant source)) ∧
        ∀ ring desc, Q (.consumed ring desc)) :
    Extends Q k (consoleEndpointHandler p endpoint k).2 := by
  unfold consoleEndpointHandler
  rw [Effect.bind_of_ok (show K.msg k = (.ok k.msg, k) from rfl)]
  split
  · exact Effect.Within.bind Effect.within_get (fun _ => extends_consoleHandleWrite p _ _ _) k
  split
  · next htype => exact extends_consoleHandleGrantWrite p (h (.inl htype)).1 endpoint k
  split
  · exact extends_onDevices _ k
  split
  · exact extends_consoleHandleGetInfo p k
  split
  · exact extends_consoleHandleScroll p k
  split
  · next htype =>
    obtain ⟨hread, hconsumed⟩ := h (.inr htype)
    exact extends_consoleHandleRingProcess p hread hconsumed endpoint k
  · exact refl k

/-! ## Tmpfs -/

section tmpfs

theorem extends_tmpfsHandleOpen : Effect.Within (Extends Q) (tmpfsHandleOpen : K δ Unit) := by
  refine .bind (Effect.within_ask _) fun _ => ?_
  refine .bind (Effect.within_ask _) fun _ => ?_
  refine .bind (Effect.within_ask _) fun _ => ?_
  refine .bind (fun _ => extends_of_eq rfl) fun _ => ?_
  refine .bind (Effect.Within.attempt fun _ => extends_of_eq rfl) fun r => ?_
  cases r with
  | error e =>
    refine .bind (extends_setFile _ _) fun _ => ?_
    exact Effect.within_fail e
  | ok cap =>
    refine .bind (extends_setFile _ _) fun _ => ?_
    exact extends_setMsg _

theorem extends_tmpfsHandleStat : Effect.Within (Extends Q) (tmpfsHandleStat : K δ Unit) := by
  refine .bind (Effect.within_ask _) fun _ => ?_
  refine .bind (Effect.within_ask _) fun _ => ?_
  exact extends_setMsg _

theorem extends_tmpfsHandleClose : Effect.Within (Extends Q) (tmpfsHandleClose : K δ Unit) := by
  refine .bind extends_msg fun _ => ?_
  refine .bind (Effect.within_ask _) fun _ => ?_
  exact extends_setFile _ _

/-- The directory entries fill whole entries of the destination. -/
theorem direntBytes_le (size : UInt64) : (direntSize * (size / direntSize)).toNat ≤ size.toNat := by
  have hlt := size.toNat_lt
  have hdiv : (size / direntSize).toNat = size.toNat / 80 := by
    rw [UInt64.toNat_div]
    rfl
  have hmul : (direntSize * (size / direntSize)).toNat = 80 * (size.toNat / 80) := by
    rw [UInt64.toNat_mul, hdiv]
    exact Nat.mod_eq_of_lt (by show 80 * _ < _; omega)
  omega

theorem tmpfsHandleListdir_extends (k : Kernel δ)
    (h : ∀ size : UInt64, size.toNat ≤ k.msg.arg3.toNat → Q (.copied k.msg.arg2 size)) :
    Extends Q k (tmpfsHandleListdir k).2 := by
  unfold tmpfsHandleListdir
  rw [Effect.bind_of_ok (show K.msg k = (.ok k.msg, k) from rfl)]
  refine Effect.Within.bind (Effect.within_require _ _) (fun _ => ?_) k
  refine .bind (Effect.within_ask _) fun _ => ?_
  refine .bind (Effect.within_ask _) fun _ => ?_
  refine .bind Effect.within_get fun _ => ?_
  refine .bind (extends_store _ _) fun _ => ?_
  refine .bind (extends_store _ _) fun _ => ?_
  refine .bind (extends_emit (h _ (direntBytes_le _))) fun _ => ?_
  refine .bind (Effect.within_ask _) fun _ => ?_
  exact extends_setMsg _

theorem tmpfsHandleRead_extends (k : Kernel δ)
    (h : ∀ size : UInt64, size.toNat ≤ k.msg.arg3.toNat → Q (.copied k.msg.arg2 size)) :
    Extends Q k (tmpfsHandleRead k).2 := by
  unfold tmpfsHandleRead
  rw [Effect.bind_of_ok (show K.msg k = (.ok k.msg, k) from rfl)]
  refine Effect.Within.bind (Effect.within_require _ _) (fun _ => ?_) k
  refine .bind (Effect.within_ask _) fun _ => ?_
  refine .bind Effect.within_get fun _ => ?_
  refine .ite (extends_setMsg _) ?_
  refine .bind (Effect.within_require _ _) fun _ => ?_
  refine .bind (extends_store _ _) fun _ => ?_
  refine .bind (extends_emit (h _ ?_)) fun _ => ?_
  · -- At most `arg3` bytes are copied.
    split
    · exact Nat.le_refl _
    · next hle =>
      rw [UInt64.lt_iff_toNat_lt] at hle
      omega
  · exact extends_setMsg _

end tmpfs

/-- Tmpfs leaves a trace for two types of messages. -/
theorem tmpfsEndpointHandler_extends (k : Kernel δ)
    (h : k.msg.type = Msg.read ∨ k.msg.type = Msg.listdir →
      ∀ size : UInt64, size.toNat ≤ k.msg.arg3.toNat → Q (.copied k.msg.arg2 size)) :
    Extends Q k (tmpfsEndpointHandler k).2 := by
  unfold tmpfsEndpointHandler
  rw [Effect.bind_of_ok (show K.msg k = (.ok k.msg, k) from rfl)]
  split
  · exact extends_tmpfsHandleOpen k
  split
  · exact extends_tmpfsHandleStat k
  split
  · next htype => exact tmpfsHandleListdir_extends k (h (.inr htype))
  split
  · next htype => exact tmpfsHandleRead_extends k (h (.inl htype))
  split
  · exact extends_tmpfsHandleClose k
  · exact refl k

/-! ## Calls -/

theorem extends_sessionEndpointHandler :
    Effect.Within (Extends Q) (sessionEndpointHandler : K δ Unit) := by
  refine .bind extends_msg fun msg => ?_
  refine .ite ?_ (Effect.within_fail _)
  refine .bind (Effect.within_require _ _) fun _ => ?_
  refine .bind (Effect.within_ask _) fun _ => ?_
  exact extends_setMsg _

theorem extends_ttyEndpointHandler (p : Platform δ) :
    Effect.Within (Extends Q) (ttyEndpointHandler p) := by
  refine .bind extends_msg fun msg => ?_
  refine .ite ?_ (.ite (extends_setMsg _) (Effect.within_fail _))
  refine .bind (extends_onDevices _) fun _ => ?_
  exact extends_setMsg _

theorem extends_procEndpointHandler (p : Platform δ) :
    Effect.Within (Extends Q) (procEndpointHandler p) := by
  refine .bind extends_msg fun msg => ?_
  exact .ite (extends_outside _) (.ite (Effect.within_pure ()) (Effect.within_fail _))

theorem extends_devmgrEndpointHandler (p : Platform δ) :
    Effect.Within (Extends Q) (devmgrEndpointHandler p) := by
  refine .bind extends_msg fun msg => ?_
  exact .ite (extends_outside _) (Effect.within_fail _)

theorem extends_grantTestEndpointHandler (p : Platform δ) :
    Effect.Within (Extends Q) (grantTestEndpointHandler p) := by
  refine .bind extends_msg fun msg => ?_
  exact .ite (extends_outside _) (Effect.within_fail _)

/-- What the handlers other than the console and the VFS add to the trace. -/
theorem runHandler_extends (p : Platform δ) (forward : K δ Unit) {handler : Handler}
    (endpoint : UInt64) (k : Kernel δ) (hconsole : handler ≠ .console) (hvfs : handler ≠ .vfs)
    (htmpfs : handler = .tmpfs → k.msg.type = Msg.read ∨ k.msg.type = Msg.listdir →
      ∀ size : UInt64, size.toNat ≤ k.msg.arg3.toNat → Q (.copied k.msg.arg2 size)) :
    Extends Q k (runHandler p forward handler endpoint k).2 := by
  cases handler with
  | console => exact absurd rfl hconsole
  | tmpfs => exact tmpfsEndpointHandler_extends _ (htmpfs rfl)
  | vfs => exact absurd rfl hvfs
  | proc => exact extends_procEndpointHandler p _
  | grantTest => exact extends_grantTestEndpointHandler p _
  | devmgr => exact extends_devmgrEndpointHandler p _
  | tty => exact extends_ttyEndpointHandler p _
  | session => exact extends_sessionEndpointHandler _
  | accept => exact refl _

/-- What a call adds to the trace depends on the type of its message. -/
theorem endpointCall_extends (p : Platform δ) (endpoint : UInt64) (k : Kernel δ)
    (hconsole : k.msg.type = Msg.consoleWrite ∨ k.msg.type = Msg.ringProcess →
      (∀ task grant source, Q (.grantRead task grant source)) ∧
        ∀ ring desc, Q (.consumed ring desc))
    (htmpfs : k.msg.type = Msg.read ∨ k.msg.type = Msg.listdir →
      ∀ size : UInt64, size.toNat ≤ k.msg.arg3.toNat → Q (.copied k.msg.arg2 size)) :
    Extends Q k (endpointCall p endpoint k).2 := by
  apply endpointCall_frame (R := Extends Q) (fun _ _ => extends_of_eq rfl)
  intro e objectId handler forward target _ _ hvfs
  by_cases hcase : handler = .console
  · rw [hcase]
    exact consoleEndpointHandler_extends p e _ hconsole
  · exact runHandler_extends p forward e _ hcase hvfs fun _ => htmpfs

end Scdk
