import Scdk.Core.Creation
import Scdk.Core.Syscall

/-! # What lasts

    System calls and runs of tasks create objects and tokens, and revoke the
    tokens of grants.  Nothing else in these tables is ever taken away.

    * `TokensKept`: the objects stay, and so do the tokens of all but grants,
    * `Lasting`: this, and the tables that are filled at boot are as before,
    * one lemma for each action that creates or revokes. -/

namespace Scdk

variable {δ : Type}

/-! ## Tables -/

/-- The objects stay, and every token of an object that is not a grant. -/
structure TokensKept (o : ObjectTable) (c : CapTable) (o' : ObjectTable) (c' : CapTable) : Prop where
  wf : TablesWf o' c'
  objects : ∀ {id ob}, objectLookup o id = .ok ob → objectLookup o' id = .ok ob
  tokens : ∀ {j}, c.occupied j = true → (c.entry j).objectType ≠ ObjType.grant → c.SameSlot c' j

section tables

variable {o o' o'' : ObjectTable} {c c' c'' : CapTable}

theorem TokensKept.refl (h : TablesWf o c) : TokensKept o c o c := ⟨h, id, fun _ _ => .refl c _⟩

theorem TokensKept.trans (h : TokensKept o c o' c') (h' : TokensKept o' c' o'' c'') :
    TokensKept o c o'' c'' := by
  refine ⟨h'.wf, fun hob => h'.objects (h.objects hob), ?_⟩
  intro j hj htype
  have hsame := h.tokens hj htype
  have hj' : c'.occupied j = true := hsame.occupied.trans hj
  rw [← hsame.1] at htype
  exact hsame.trans (h'.tokens hj' htype)

theorem TablesMade.kept {P : Payload → Prop} (h : TablesMade P o c o' c') : TokensKept o c o' c' :=
  ⟨h.wf, h.old, fun hj _ => h.tokens hj⟩

/-- The lookup of a token that stays. -/
theorem TokensKept.capLookup (h : TokensKept o c o' c') (hwf : TablesWf o c) {t : UInt64}
    {e : CapEntry} (hl : capLookup o c t = .ok e) (htype : e.objectType ≠ ObjType.grant) :
    Scdk.capLookup o' c' t = .ok e := by
  obtain ⟨j, hj, rfl, rfl⟩ := (capLookup_eq_ok hwf).mp hl
  have hsame := h.tokens hj htype
  rw [capLookup_eq_ok h.wf]
  exact ⟨j, hsame.occupied.trans hj, hsame.token.symm, hsame.1.symm⟩

/-- A check of a token that stays. -/
theorem TokensKept.capCheck (h : TokensKept o c o' c') (hwf : TablesWf o c) {t r : UInt64}
    {type : UInt32} {e : CapEntry} (htype : type ≠ ObjType.none) (hgrant : type ≠ ObjType.grant)
    (hc : capCheck o c t r type = .ok e) : Scdk.capCheck o' c' t r type = .ok e := by
  rw [capCheck_eq_ok_iff_lookup] at hc ⊢
  obtain ⟨hr, hl, hgrants⟩ := hc
  have hentry : e.objectType = type := hgrants.1.resolve_left htype
  refine ⟨hr, h.capLookup hwf hl ?_, hgrants⟩
  rw [hentry]
  exact hgrant

/-- An endpoint stays where it is. -/
theorem TokensKept.endpointTarget (h : TokensKept o c o' c') (hwf : TablesWf o c)
    {endpoints : EndpointTable} {endpoint : UInt64} {target : UInt64 × Handler}
    (htarget : endpointTarget o c endpoints endpoint = .ok target) :
    Scdk.endpointTarget o' c' endpoints endpoint = .ok target := by
  unfold Scdk.endpointTarget at htarget ⊢
  cases hcheck : Scdk.capCheck o c endpoint Right.send ObjType.endpoint with
  | error e =>
    rw [hcheck] at htarget
    cases htarget
  | ok entry =>
    rw [hcheck] at htarget
    rw [h.capCheck hwf (by decide) (by decide) hcheck]
    dsimp only at htarget ⊢
    cases hobject : objectLookup o entry.objectId with
    | error e =>
      rw [hobject] at htarget
      cases htarget
    | ok object =>
      rw [hobject] at htarget
      rw [h.objects hobject]
      exact htarget

/-- `scdk_user_grant_revoke` revokes the token of a grant. -/
theorem userGrantRevoke_kept (h : TablesWf o c) (g : GrantTables) (grantCap : UInt64) :
    TokensKept o c o (userGrantRevoke o c g grantCap).2.1 := by
  rcases userGrantRevoke_cases h g grantCap with ⟨e, _, hrev⟩ | ⟨j, _, _, _, _, hgrant, _, hrev⟩
  · rw [hrev]
    exact .refl h
  · rw [hrev]
    refine ⟨tablesWf_revokeSlot h j, id, ?_⟩
    intro i _ htype
    apply CapTable.sameSlot_revokeSlot
    rintro rfl
    exact htype hgrant

end tables

/-! ## Steps -/

/-- What lasts over a step. -/
structure Lasting (k k' : Kernel δ) : Prop where
  tokens : TablesWf k.objects k.caps → TokensKept k.objects k.caps k'.objects k'.caps
  endpoints : k'.endpoints = k.endpoints
  services : k'.services = k.services
  initrd : k'.initrd = k.initrd
  root : k'.rootTmpfsEndpoint = k.rootTmpfsEndpoint

instance : IsPreorder (Kernel δ) Lasting where
  refl := fun _ => ⟨fun h => .refl h, rfl, rfl, rfl, rfl⟩
  trans := fun _ _ _ h h' =>
    ⟨fun hwf => (h.tokens hwf).trans (h'.tokens (h.tokens hwf).wf),
      h'.endpoints.trans h.endpoints, h'.services.trans h.services, h'.initrd.trans h.initrd,
      h'.root.trans h.root⟩

section steps

variable {k k' : Kernel δ}

/-- Steps outside of these tables. -/
theorem Lasting.of_eq (h : (k'.objects, k'.caps, k'.endpoints, k'.services, k'.initrd,
    k'.rootTmpfsEndpoint) = (k.objects, k.caps, k.endpoints, k.services, k.initrd,
    k.rootTmpfsEndpoint)) : Lasting k k' := by
  simp only [Prod.mk.injEq] at h
  obtain ⟨hobjects, hcaps, hendpoints, hservices, hinitrd, hroot⟩ := h
  refine ⟨?_, hendpoints, hservices, hinitrd, hroot⟩
  rw [hobjects, hcaps]
  exact fun hwf => .refl hwf

theorem lasting_objectCreate (payload : Payload) (ownerCore flags : UInt32) :
    Effect.Within Lasting
      (K.objectCreate payload.type ownerCore flags payload : K δ UInt64) := by
  intro k
  refine ⟨fun h => ?_, rfl, rfl, rfl, rfl⟩
  exact ((TablesMade.refl (fun _ => True) h).objectCreate trivial ownerCore flags).kept

theorem lasting_capCreate (objectId rights : UInt64) :
    Effect.Within Lasting (K.capCreate objectId rights : K δ UInt64) := by
  intro k
  refine ⟨fun h => ?_, rfl, rfl, rfl, rfl⟩
  exact ((TablesMade.refl (fun _ => True) h).capCreate objectId rights).kept

theorem lasting_ringCreate (ownerCore entries : UInt32) (boundTarget : UInt64) :
    Effect.Within Lasting (K.ringCreate ownerCore entries boundTarget : K δ UInt64) := by
  intro k
  refine ⟨fun h => ?_, rfl, rfl, rfl, rfl⟩
  exact (ringCreate_made h (P := fun _ => True) (fun _ => trivial) k.rings ownerCore entries
    boundTarget).kept

theorem lasting_userGrantCreate (sourceTask userBase length rights targetEndpoint : UInt64) :
    Effect.Within Lasting
      (K.userGrantCreate sourceTask userBase length rights targetEndpoint : K δ UInt64) := by
  intro k
  refine ⟨fun h => ?_, rfl, rfl, rfl, rfl⟩
  exact (userGrantCreate_made h (P := fun _ => True) (fun _ => trivial) k.grants k.vmm sourceTask
    userBase length rights targetEndpoint).1.kept

theorem lasting_userGrantRevoke (grantCap : UInt64) :
    Effect.Within Lasting (K.userGrantRevoke grantCap : K δ Unit) := by
  intro k
  exact ⟨fun h => userGrantRevoke_kept h k.grants grantCap, rfl, rfl, rfl, rfl⟩

end steps

end Scdk
