import Scdk.Core.Capability
import Scdk.Lib.Run

/-! # The capability table as a set of live tokens

    What the capability table is for: `capCheck` accepts a token exactly when
    the history of calls says it should.  The history is the log of a run of
    `scdk_object_create`, `scdk_cap_create` and `scdk_cap_revoke` from the
    zeroed tables:

    * `Minted log t oid rights`: `t` was returned by a creation and has not been
      revoked since,
    * `CreatedWithType log oid type`: the object was created with that type,
    * `issuedBy i log`: the tokens slot `i` has issued, oldest first.

    The invariant `CapInv` ties the two levels together.  Freshness is the
    delicate part: a slot uses two generations for each token it issues, and
    generations recur after `2 ^ 32 - 1` bumps, an odd number, so the tokens of
    a slot recur after exactly `2 ^ 32 - 1` issues. -/

namespace Scdk

/-! ## The system and its history -/

/-- The object and capability tables. -/
structure Tables where
  objects : ObjectTable
  caps : CapTable

/-- The zeroed tables the kernel starts with. -/
def Tables.zero : Tables := ⟨ObjectTable.zero, CapTable.zero⟩

/-- The calls that change the tables. -/
inductive CapCall where
  | objectCreate (type ownerCore flags : UInt32) (payload : Payload)
  | capCreate (objectId rights : UInt64)
  | capRevoke (cap : UInt64)
  deriving DecidableEq

/-- One call.  The answer is the status together with the id or the token
    returned; a revocation returns nothing, recorded as `0`. -/
def capStep (s : Tables) : CapCall → Except Err UInt64 × Tables
  | .objectCreate type ownerCore flags payload =>
      let (r, objects) := objectCreate s.objects type ownerCore flags payload
      (r, { s with objects })
  | .capCreate objectId rights =>
      let (r, caps) := capCreate s.objects s.caps objectId rights
      (r, { s with caps })
  | .capRevoke cap =>
      let (r, caps) := capRevoke s.objects s.caps cap
      (r.map fun _ => 0, { s with caps })

/-- The tables, driven by any calls from the zeroed state. -/
def capSystem : System Tables CapCall (Except Err UInt64) where
  init := fun s => s = Tables.zero
  step := capStep

/-- The calls of a run with their answers, oldest first. -/
abbrev CapLog : Type := List (CapCall × Except Err UInt64)

/-- The status `scdk_cap_check` returns. -/
def verdict (s : Tables) (t req : UInt64) (type : UInt32) : Except Err Unit :=
  toStatus (capCheck s.objects s.caps t req type)

/-- `t` was returned by a successful creation for object `oid` with `rights`,
    and has not been successfully revoked since. -/
def Minted (log : CapLog) (t oid rights : UInt64) : Prop :=
  ∃ pre post, log = pre ++ (.capCreate oid rights, .ok t) :: post ∧
    ∀ x, (.capRevoke t, .ok x) ∉ post

/-- `oid` was returned by a successful creation of an object of type `type`. -/
def CreatedWithType (log : CapLog) (oid : UInt64) (type : UInt32) : Prop :=
  ∃ ownerCore flags payload, (.objectCreate type ownerCore flags payload, .ok oid) ∈ log

/-- The token a logged call has issued from slot `i`, if any. -/
def issuedEvent (i : Fin maxCaps) : CapCall × Except Err UInt64 → Option UInt64
  | (.capCreate _ _, .ok t) => if (capIndex t).toNat = i.val then some t else none
  | _ => none

/-- The tokens slot `i` has issued, oldest first. -/
def issuedBy (i : Fin maxCaps) (log : CapLog) : List UInt64 := log.filterMap (issuedEvent i)

/-- No slot has issued more than `2 ^ 32 - 1` tokens. -/
def IssueBound (log : CapLog) : Prop := ∀ i, (issuedBy i log).length ≤ 2 ^ 32 - 1

/-- `t` was returned by some creation of the run. -/
def Returned (log : CapLog) (t : UInt64) : Prop :=
  ∃ oid rights, (.capCreate oid rights, .ok t) ∈ log

/-! ## History lemmas -/

/-- How one more call changes the set of live tokens. -/
theorem minted_concat {log : CapLog} {ev : CapCall × Except Err UInt64} {t oid rights : UInt64} :
    Minted (log ++ [ev]) t oid rights ↔
      ev = (.capCreate oid rights, .ok t) ∨
      (Minted log t oid rights ∧ ∀ x, ev ≠ (.capRevoke t, .ok x)) := by
  constructor
  · rintro ⟨pre, post, heq, hno⟩
    -- The creation is the last call, or lies in the older part of the log.
    rcases List.concat_eq_append_cons heq with ⟨_, hlast, _⟩ | ⟨post', rfl, hlog⟩
    · exact .inl hlast.symm
    · refine .inr ⟨⟨pre, post', hlog, fun x hx => hno x ?_⟩, fun x hx => hno x ?_⟩
      · exact List.mem_append_left _ hx
      · simp [hx]
  · rintro (rfl | ⟨⟨pre, post, rfl, hno⟩, hev⟩)
    · exact ⟨log, [], rfl, by simp⟩
    · refine ⟨pre, post ++ [ev], by simp, fun x hx => ?_⟩
      rcases List.mem_append.mp hx with h | h
      · exact hno x h
      · exact hev x (List.mem_singleton.mp h).symm

theorem createdWithType_concat {log : CapLog} {ev : CapCall × Except Err UInt64} {oid : UInt64}
    {type : UInt32} :
    CreatedWithType (log ++ [ev]) oid type ↔ CreatedWithType log oid type ∨
      ∃ ownerCore flags payload, ev = (.objectCreate type ownerCore flags payload, .ok oid) := by
  unfold CreatedWithType
  constructor
  · rintro ⟨ownerCore, flags, payload, h⟩
    rcases List.mem_append.mp h with h | h
    · exact .inl ⟨ownerCore, flags, payload, h⟩
    · exact .inr ⟨ownerCore, flags, payload, (List.mem_singleton.mp h).symm⟩
  · rintro (⟨ownerCore, flags, payload, h⟩ | ⟨ownerCore, flags, payload, rfl⟩)
    · exact ⟨ownerCore, flags, payload, List.mem_append_left _ h⟩
    · exact ⟨ownerCore, flags, payload, by simp⟩

theorem issuedBy_concat (i : Fin maxCaps) (log : CapLog) (ev : CapCall × Except Err UInt64) :
    issuedBy i (log ++ [ev]) = issuedBy i log ++ (issuedEvent i ev).toList := by
  unfold issuedBy
  rw [List.filterMap_append, List.filterMap_cons, List.filterMap_nil]
  cases issuedEvent i ev with
  | none => rfl
  | some t => rfl

/-- A token returned by the run was issued by the slot it names. -/
theorem Returned.mem_issuedBy {log : CapLog} {t : UInt64} {i : Fin maxCaps}
    (h : Returned log t) (hi : (capIndex t).toNat = i.val) : t ∈ issuedBy i log := by
  obtain ⟨oid, rights, hmem⟩ := h
  exact List.mem_filterMap.mpr ⟨_, hmem, by simp [issuedEvent, hi]⟩

/-! ## The invariant -/

/-- The `k`-th token of slot `i`, counting from `0`: each earlier token has
    used up two generations. -/
def tokenAt (i : Fin maxCaps) (k : Nat) : UInt64 :=
  capMakeToken (Handle.slotWord i) (Handle.generationAt (2 * k + 1))

/-- How the generation counter of slot `i` stands to the tokens it has
    issued: `n` of them so far. -/
structure SlotInv (c : CapTable) (i : Fin maxCaps) (issued : List UInt64) : Prop where
  tokens : issued = (List.range issued.length).map (tokenAt i)
  free : c.occupied i = false → c.generations i = Handle.generationAt (2 * issued.length)
  taken : c.occupied i = true → ∃ n, issued.length = n + 1 ∧
    c.generations i = Handle.generationAt (2 * n + 1)

/-- The invariant between the history and the tables. -/
structure CapInv (log : CapLog) (s : Tables) : Prop where
  wf : TablesWf s.objects s.caps
  minted : ∀ t oid rights, Minted log t oid rights ↔
    ∃ i, s.caps.occupied i = true ∧ t = s.caps.token i ∧
      (s.caps.entry i).objectId = oid ∧ (s.caps.entry i).rights = rights
  typed : ∀ oid type, CreatedWithType log oid type ↔
    ∃ ob, objectLookup s.objects oid = .ok ob ∧ ob.type = type
  slots : ∀ i, SlotInv s.caps i (issuedBy i log)

theorem capInv_zero : CapInv [] Tables.zero where
  wf := tablesWf_zero
  minted := by
    intro t oid rights
    constructor
    · rintro ⟨pre, post, heq, _⟩
      simp at heq
    · rintro ⟨i, hocc, _⟩
      simp [Tables.zero, CapTable.zero, CapTable.occupied] at hocc
  typed := by
    intro oid type
    constructor
    · rintro ⟨_, _, _, h⟩
      cases h
    · rintro ⟨ob, hl, _⟩
      obtain ⟨i, rfl, htype, _⟩ := (objectLookup_eq_ok ObjectTable.wf_zero).mp hl
      exact absurd rfl htype
  slots := by
    intro i
    refine ⟨rfl, fun _ => rfl, fun h => ?_⟩
    simp [Tables.zero, CapTable.zero, CapTable.occupied] at h

/-- A refused call, or a successful call that is neither a creation of a token
    nor a revocation, leaves the token part of the history alone. -/
theorem minted_concat_of_ne {log : CapLog} {ev : CapCall × Except Err UInt64}
    (hc : ∀ oid rights t, ev ≠ (.capCreate oid rights, .ok t))
    (hr : ∀ t x, ev ≠ (.capRevoke t, .ok x)) (t oid rights : UInt64) :
    Minted (log ++ [ev]) t oid rights ↔ Minted log t oid rights := by
  rw [minted_concat]
  constructor
  · rintro (h | h)
    · exact absurd h (hc oid rights t)
    · exact h.1
  · intro h
    exact .inr ⟨h, hr t⟩

theorem issuedBy_concat_of_ne {log : CapLog} {ev : CapCall × Except Err UInt64}
    (hc : ∀ oid rights t, ev ≠ (.capCreate oid rights, .ok t)) (i : Fin maxCaps) :
    issuedBy i (log ++ [ev]) = issuedBy i log := by
  rw [issuedBy_concat]
  have : issuedEvent i ev = none := by
    obtain ⟨call, ans⟩ := ev
    cases call with
    | objectCreate => rfl
    | capRevoke => rfl
    | capCreate oid rights =>
      cases ans with
      | error => rfl
      | ok t => exact absurd rfl (hc oid rights t)
  rw [this]
  simp

theorem createdWithType_concat_of_ne {log : CapLog} {ev : CapCall × Except Err UInt64}
    (ho : ∀ type core flags payload oid, ev ≠ (.objectCreate type core flags payload, .ok oid))
    (oid : UInt64) (type : UInt32) :
    CreatedWithType (log ++ [ev]) oid type ↔ CreatedWithType log oid type := by
  rw [createdWithType_concat]
  constructor
  · rintro (h | ⟨core, flags, payload, h⟩)
    · exact h
    · exact absurd h (ho type core flags payload oid)
  · exact .inl

/-- A refused call keeps the invariant. -/
theorem CapInv.refused {log : CapLog} {s : Tables} (h : CapInv log s) (call : CapCall) (e : Err) :
    CapInv (log ++ [(call, .error e)]) s where
  wf := h.wf
  minted := by
    intro t oid rights
    rw [minted_concat_of_ne (by simp) (by simp)]
    exact h.minted t oid rights
  typed := by
    intro oid type
    rw [createdWithType_concat_of_ne (by simp)]
    exact h.typed oid type
  slots := by
    intro i
    rw [issuedBy_concat_of_ne (by simp)]
    exact h.slots i

/-- A creation of an object keeps the invariant. -/
theorem CapInv.objectCreate {log : CapLog} {s : Tables} (h : CapInv log s) {o' : ObjectTable}
    {type ownerCore flags : UInt32} {payload : Payload} {oid : UInt64}
    (hc : objectCreate s.objects type ownerCore flags payload = (.ok oid, o')) :
    CapInv (log ++ [(.objectCreate type ownerCore flags payload, .ok oid)]) { s with objects := o' }
    where
  wf := by
    have := tablesWf_objectCreate h.wf type ownerCore flags payload
    rwa [hc] at this
  minted := by
    intro t oid rights
    rw [minted_concat_of_ne (by simp) (by simp)]
    exact h.minted t oid rights
  typed := by
    intro oid₁ type₁
    have hwf := objectCreate_wf h.wf.objects type ownerCore flags payload
    obtain ⟨g, hnew⟩ := objectLookup_of_objectCreate h.wf.objects hc
    rw [createdWithType_concat, h.typed]
    constructor
    · -- Objects are never destroyed, so the older ones are still there.
      rintro (⟨ob, hl, hty⟩ | ⟨_, _, _, heq⟩)
      · have := objectLookup_objectCreate h.wf.objects hl type ownerCore flags payload
        rw [hc] at this
        exact ⟨ob, this, hty⟩
      · simp only [Prod.mk.injEq, CapCall.objectCreate.injEq, Except.ok.injEq] at heq
        obtain ⟨⟨rfl, _⟩, rfl⟩ := heq
        exact ⟨_, hnew, rfl⟩
    · rintro ⟨ob, hl, hty⟩
      by_cases hid : oid₁ = oid
      · subst hid
        dsimp only at hl
        rw [hnew] at hl
        obtain rfl := Except.ok.inj hl
        obtain rfl := hty
        exact .inr ⟨_, _, _, rfl⟩
      · -- An older object: its slot is not the one just filled.
        left
        rw [hc] at hwf
        obtain ⟨j, hj, htype, hjid⟩ := (objectLookup_eq_ok hwf).mp hl
        rcases objectCreate_cases s.objects type ownerCore flags payload with
          ⟨e, heq⟩ | ⟨i, id, _, _, _, heq⟩
        · rw [heq] at hc; cases hc
        · rw [heq] at hc
          obtain ⟨hok, rfl⟩ := Prod.mk.inj hc
          obtain rfl := Except.ok.inj hok
          by_cases hji : j = i
          · subst hji
            simp only [Function.update_self] at hj
            obtain rfl := hj
            exact absurd hjid.symm hid
          · simp only [Function.update_of_ne hji] at hj
            exact ⟨ob, (objectLookup_eq_ok h.wf.objects).mpr ⟨j, hj, htype, hjid⟩, hty⟩
  slots := by
    intro i
    rw [issuedBy_concat_of_ne (by simp)]
    exact h.slots i

/-! ## Minting and revoking -/

theorem issuedBy_capCreate_self {log : CapLog} {c : CapTable} {i : Fin maxCaps}
    (oid rights : UInt64) :
    issuedBy i (log ++ [(.capCreate oid rights, .ok (c.token i))]) =
      issuedBy i log ++ [c.token i] := by
  rw [issuedBy_concat]
  simp [issuedEvent, capIndex_token]

theorem issuedBy_capCreate_ne {log : CapLog} {c : CapTable} {i j : Fin maxCaps} (h : j ≠ i)
    (oid rights : UInt64) :
    issuedBy j (log ++ [(.capCreate oid rights, .ok (c.token i))]) = issuedBy j log := by
  have hne : (i : Nat) ≠ (j : Nat) := fun heq => h (Fin.ext heq.symm)
  rw [issuedBy_concat]
  simp [issuedEvent, capIndex_token, hne]

/-- The token that a mint in the free slot `i` produces is the next one of its
    sequence. -/
theorem SlotInv.mint_token {c : CapTable} {i : Fin maxCaps} {issued : List UInt64}
    (h : SlotInv c i issued) (hfree : c.occupied i = false) (object : Object) (rights : UInt64) :
    (c.mintSlot i object rights).token i = tokenAt i issued.length := by
  rw [CapTable.token, tokenAt, CapTable.mintSlot_generations_self, h.free hfree,
    ← Handle.generationAt_succ]

theorem SlotInv.mint {c : CapTable} {i : Fin maxCaps} {issued : List UInt64}
    (h : SlotInv c i issued) (hfree : c.occupied i = false) {object : Object} {rights : UInt64}
    (hocc : (c.mintSlot i object rights).occupied i = true) :
    SlotInv (c.mintSlot i object rights) i
      (issued ++ [(c.mintSlot i object rights).token i]) where
  tokens := by
    rw [h.mint_token hfree, List.length_append, List.length_singleton, List.range_succ,
      List.map_append, ← h.tokens]
    rfl
  free := by
    intro hf
    rw [hocc] at hf
    cases hf
  taken := by
    intro _
    refine ⟨issued.length, by simp, ?_⟩
    rw [CapTable.mintSlot_generations_self, h.free hfree, ← Handle.generationAt_succ]

theorem SlotInv.revoke {c : CapTable} {i : Fin maxCaps} {issued : List UInt64}
    (h : SlotInv c i issued) (hocc : c.occupied i = true) : SlotInv (c.revokeSlot i) i issued where
  tokens := h.tokens
  free := by
    intro _
    obtain ⟨n, hn, hgen⟩ := h.taken hocc
    rw [CapTable.revokeSlot_generations_self, hgen, ← Handle.generationAt_succ, hn]
    rfl
  taken := by
    intro hf
    simp at hf

/-- A slot that keeps its generation and its occupation keeps its invariant. -/
theorem SlotInv.frame {c c' : CapTable} {i : Fin maxCaps} {issued : List UInt64}
    (h : SlotInv c i issued) (hocc : c'.occupied i = c.occupied i)
    (hgen : c'.generations i = c.generations i) : SlotInv c' i issued where
  tokens := h.tokens
  free := by
    intro hf
    rw [hgen]
    exact h.free (hocc ▸ hf)
  taken := by
    intro ht
    rw [hgen]
    exact h.taken (hocc ▸ ht)

/-- Minting a token keeps the invariant. -/
theorem CapInv.mint {log : CapLog} {s : Tables} (h : CapInv log s) {i : Fin maxCaps}
    {object : Object} {oid rights : UInt64} (hr : rights ≠ 0)
    (hl : objectLookup s.objects oid = .ok object) (hfree : s.caps.occupied i = false) :
    CapInv (log ++ [(.capCreate oid rights, .ok ((s.caps.mintSlot i object rights).token i))])
      { s with caps := s.caps.mintSlot i object rights } := by
  have hocc := CapTable.mintSlot_occupied_self h.wf.objects s.caps i rights hl
  have hid : object.id = oid := by
    obtain ⟨_, _, _, hid⟩ := (objectLookup_eq_ok h.wf.objects).mp hl
    exact hid
  refine ⟨tablesWf_mintSlot h.wf i hr hl, ?_, ?_, ?_⟩
  · intro t oid' rights'
    rw [minted_concat, h.minted]
    constructor
    · -- The minted token is in the log, and the older ones are in other slots.
      rintro (heq | ⟨⟨j, hj, rfl, rfl, rfl⟩, _⟩)
      · simp only [Prod.mk.injEq, CapCall.capCreate.injEq, Except.ok.injEq] at heq
        obtain ⟨⟨rfl, rfl⟩, rfl⟩ := heq
        exact ⟨i, hocc, rfl, by simp [hid], by simp⟩
      · have hji : j ≠ i := by
          rintro rfl
          rw [hfree] at hj
          cases hj
        refine ⟨j, ?_, (CapTable.mintSlot_token_ne _ _ _ _ hji).symm, by simp [hji], by simp [hji]⟩
        rw [CapTable.mintSlot_occupied_ne _ _ _ _ hji]
        exact hj
    · rintro ⟨j, hj, rfl, rfl, rfl⟩
      by_cases hji : j = i
      · subst hji
        left
        simp [hid]
      · right
        rw [CapTable.mintSlot_occupied_ne _ _ _ _ hji] at hj
        refine ⟨⟨j, hj, CapTable.mintSlot_token_ne _ _ _ _ hji, by simp [hji], by simp [hji]⟩, ?_⟩
        simp
  · intro oid' type
    rw [createdWithType_concat_of_ne (by simp)]
    exact h.typed oid' type
  · intro j
    -- Only slot `i` has issued a token.
    by_cases hji : j = i
    · subst hji
      rw [issuedBy_capCreate_self]
      exact (h.slots j).mint hfree hocc
    · rw [issuedBy_capCreate_ne hji]
      exact (h.slots j).frame (CapTable.mintSlot_occupied_ne _ _ _ _ hji)
        (CapTable.mintSlot_generations_ne _ _ _ _ hji)

/-- Revoking a token keeps the invariant. -/
theorem CapInv.revoke {log : CapLog} {s : Tables} (h : CapInv log s) {i : Fin maxCaps}
    (hocc : s.caps.occupied i = true) (x : UInt64) :
    CapInv (log ++ [(.capRevoke (s.caps.token i), .ok x)])
      { s with caps := s.caps.revokeSlot i } := by
  refine ⟨tablesWf_revokeSlot h.wf i, ?_, ?_, ?_⟩
  · intro t oid rights
    rw [minted_concat, h.minted]
    constructor
    · -- A token that is still minted is not the one revoked.
      rintro (heq | ⟨⟨j, hj, rfl, rfl, rfl⟩, hne⟩)
      · cases heq
      · have hji : j ≠ i := by
          rintro rfl
          exact hne x rfl
        refine ⟨j, ?_, (CapTable.revokeSlot_token_ne _ _ hji).symm, by simp [hji], by simp [hji]⟩
        rw [CapTable.revokeSlot_occupied_ne _ _ hji]
        exact hj
    · rintro ⟨j, hj, rfl, rfl, rfl⟩
      have hji : j ≠ i := by
        rintro rfl
        simp at hj
      right
      rw [CapTable.revokeSlot_occupied_ne _ _ hji] at hj
      refine ⟨⟨j, hj, CapTable.revokeSlot_token_ne _ _ hji, by simp [hji], by simp [hji]⟩, ?_⟩
      intro y heq
      simp only [Prod.mk.injEq, CapCall.capRevoke.injEq] at heq
      rw [CapTable.revokeSlot_token_ne _ _ hji] at heq
      exact hji (CapTable.token_injective heq.1).symm
  · intro oid type
    rw [createdWithType_concat_of_ne (by simp)]
    exact h.typed oid type
  · intro j
    rw [issuedBy_concat_of_ne (by simp)]
    by_cases hji : j = i
    · subst hji
      exact (h.slots j).revoke hocc
    · exact (h.slots j).frame (CapTable.revokeSlot_occupied_ne _ _ hji)
        (CapTable.revokeSlot_generations_ne _ _ hji)

/-- One call keeps the invariant. -/
theorem capInv_step {log : CapLog} {s : Tables} (h : CapInv log s) (a : CapCall) :
    CapInv (log ++ [(a, (capStep s a).1)]) (capStep s a).2 := by
  cases a with
  | objectCreate type ownerCore flags payload =>
    cases hc : objectCreate s.objects type ownerCore flags payload with
    | mk r o' =>
      simp only [capStep, hc]
      cases r with
      | ok oid => exact h.objectCreate hc
      | error e =>
        rcases objectCreate_cases s.objects type ownerCore flags payload with
          ⟨e', heq⟩ | ⟨_, _, _, _, _, heq⟩
        · rw [heq] at hc
          obtain ⟨_, rfl⟩ := Prod.mk.inj hc
          exact h.refused _ e
        · rw [heq] at hc
          cases hc
  | capCreate oid rights =>
    simp only [capStep]
    rcases capCreate_cases s.objects s.caps oid rights with
      ⟨e, heq⟩ | ⟨i, object, hr, hl, hfree, heq⟩
    · rw [heq]
      exact h.refused _ e
    · rw [heq]
      exact h.mint hr hl hfree
  | capRevoke cap =>
    simp only [capStep]
    rcases capRevoke_cases h.wf cap with ⟨e, _, heq⟩ | ⟨i, hocc, rfl, heq⟩
    · rw [heq]
      exact h.refused _ e
    · rw [heq]
      exact h.revoke hocc 0

/-- Every run keeps the invariant. -/
theorem capInv_run {log : CapLog} {s : Tables} (h : capSystem.Run log s) : CapInv log s := by
  induction h with
  | init h0 =>
    obtain rfl : _ = Tables.zero := h0
    exact capInv_zero
  | step a _ _ ih => exact capInv_step ih a

/-! ## Verdicts and freshness -/

theorem verdict_eq_ok {s : Tables} {t req : UInt64} {type : UInt32} :
    verdict s t req type = .ok () ↔ ∃ e, capCheck s.objects s.caps t req type = .ok e := by
  unfold verdict
  cases capCheck s.objects s.caps t req type <;> simp

theorem verdict_congr {s s' : Tables} {t : UInt64}
    (h : capLookup s'.objects s'.caps t = capLookup s.objects s.caps t) (req : UInt64)
    (type : UInt32) : verdict s' t req type = verdict s t req type := by
  unfold verdict
  rw [capCheck_congr h]

/-- The verdict on a token, read off the history. -/
theorem CapInv.verdict_iff {log : CapLog} {s : Tables} (h : CapInv log s) (t req : UInt64)
    (type : UInt32) :
    verdict s t req type = .ok () ↔ req ≠ 0 ∧ ∃ oid rights, Minted log t oid rights ∧
      (type = ObjType.none ∨ CreatedWithType log oid type) ∧ rights &&& req = req := by
  rw [verdict_eq_ok]
  simp only [capCheck_eq_ok h.wf, h.minted, h.typed]
  constructor
  · rintro ⟨e, hreq, i, hocc, ht, _, hty, hr⟩
    refine ⟨hreq, _, _, ⟨i, hocc, ht, rfl, rfl⟩, ?_, hr⟩
    rcases hty with h0 | h1
    · exact .inl h0
    · obtain ⟨ob, hl, _, _, htype⟩ := h.wf.object i hocc
      exact .inr ⟨ob, hl, htype.trans h1⟩
  · rintro ⟨hreq, _, _, ⟨i, hocc, ht, rfl, rfl⟩, hty, hr⟩
    refine ⟨_, hreq, i, hocc, ht, rfl, ?_, hr⟩
    rcases hty with h0 | ⟨ob, hl, htype⟩
    · exact .inl h0
    · -- The object recorded in the slot is the one the history speaks of.
      obtain ⟨ob', hl', _, _, htype'⟩ := h.wf.object i hocc
      rw [hl] at hl'
      obtain rfl := Except.ok.inj hl'
      exact .inr (htype'.symm.trans htype)

/-- Below the issue bound the token minted next was never returned before. -/
theorem SlotInv.fresh {c : CapTable} {i : Fin maxCaps} {issued : List UInt64}
    (h : SlotInv c i issued) (hfree : c.occupied i = false) (object : Object) (rights : UInt64)
    (hbound : issued.length + 1 ≤ 2 ^ 32 - 1) :
    (c.mintSlot i object rights).token i ∉ issued := by
  rw [h.mint_token hfree]
  intro hmem
  rw [h.tokens] at hmem
  obtain ⟨k, hk, heq⟩ := List.mem_map.mp hmem
  rw [List.length_map, List.length_range] at heq
  rw [List.mem_range] at hk
  have hgen := (Handle.pack_injective heq).2
  have := Handle.generationAt_odd_injective (by omega) (by omega) hgen
  omega

/-- A slot's sequence of tokens recurs after `2 ^ 32 - 1` of them. -/
theorem tokenAt_period (i : Fin maxCaps) : tokenAt i (2 ^ 32 - 1) = tokenAt i 0 := by
  unfold tokenAt
  rw [← Handle.generationAt_odd_period 0, Nat.zero_add]

/-- A free slot `0` is the one the next creation takes. -/
theorem firstSlot_zero {p : Fin maxCaps → Bool} (h : p 0 = true) : Slots.firstSlot p = some 0 := by
  cases hf : Slots.firstSlot p with
  | none =>
    have := Slots.firstSlot_eq_none hf 0
    rw [h] at this
    cases this
  | some i =>
    by_cases hi : i = 0
    · rw [hi]
    · have := (Slots.firstSlot_eq_some hf).2 0 (Fin.pos_of_ne_zero hi)
      rw [h] at this
      cases this

/-- One round of minting and revoking on tables without live tokens issues one
    more token from slot `0` and ends without live tokens again. -/
theorem capSystem_round {log : CapLog} {s : Tables} (hrun : capSystem.Run log s) {oid : UInt64}
    {object : Object} (hl : objectLookup s.objects oid = .ok object)
    (hfree : ∀ i, s.caps.occupied i = false) :
    ∃ log' s', capSystem.Run log' s' ∧ objectLookup s'.objects oid = .ok object ∧
      (∀ i, s'.caps.occupied i = false) ∧
      (issuedBy 0 log').length = (issuedBy 0 log).length + 1 := by
  have hinv := capInv_run hrun
  let c₁ := s.caps.mintSlot 0 object 1
  -- Slot `0` is the first free one, so the token is minted there.
  have hcreate : capCreate s.objects s.caps oid 1 = (.ok (c₁.token 0), c₁) := by
    have hfirst : Slots.firstSlot (fun i => !s.caps.occupied i) = some 0 :=
      firstSlot_zero (by simp [hfree])
    unfold capCreate
    rw [if_neg (by decide), hl]
    unfold capCreateSlot
    rw [hfirst]
    simp only [c₁, CapTable.mintSlot, CapTable.token, nextCapGeneration, Handle.next,
      Function.update_self]
  have hone : (1 : UInt64) ≠ 0 := by decide
  have hinv₁ := hinv.mint hone hl (hfree 0)
  have hocc₁ : c₁.occupied 0 = true :=
    CapTable.mintSlot_occupied_self hinv.wf.objects s.caps 0 1 hl
  -- The token is live, so that revoking it succeeds.
  have hrevoke : capRevoke s.objects c₁ (c₁.token 0) = (.ok (), c₁.revokeSlot 0) := by
    rcases capRevoke_cases hinv₁.wf (c₁.token 0) with ⟨e, hl', _⟩ | ⟨i, _, ht, heq⟩
    · have := (capLookup_eq_ok hinv₁.wf).mpr ⟨0, hocc₁, rfl, rfl⟩
      rw [hl'] at this
      cases this
    · obtain rfl := CapTable.token_injective ht
      exact heq
  have hrun₁ := hrun.step (.capCreate oid 1)
  have hrun₂ := hrun₁.step (.capRevoke (c₁.token 0))
  simp only [capSystem, capStep, hcreate, hrevoke] at hrun₂
  refine ⟨_, _, hrun₂, hl, ?_, ?_⟩
  · intro i
    by_cases hi : i = 0
    · subst hi
      simp
    · rw [CapTable.revokeSlot_occupied_ne _ _ hi, CapTable.mintSlot_occupied_ne _ _ _ _ hi]
      exact hfree i
  · rw [issuedBy_concat_of_ne (by simp), issuedBy_capCreate_self]
    simp

/-- Slot `0` can be made to issue any number of tokens. -/
theorem exists_run_issuing (n : Nat) :
    ∃ log s, capSystem.Run log s ∧ (issuedBy 0 log).length = n := by
  -- Start with one object, then take `n` rounds of minting and revoking.
  suffices h : ∃ oid object, ∃ log s, capSystem.Run log s ∧
      objectLookup s.objects oid = .ok object ∧ (∀ i, s.caps.occupied i = false) ∧
      (issuedBy 0 log).length = n by
    obtain ⟨_, _, log, s, hrun, _, _, hn⟩ := h
    exact ⟨log, s, hrun, hn⟩
  induction n with
  | zero =>
    have hzero : capSystem.Run [] Tables.zero := System.Run.init rfl
    have hrun := hzero.step (.objectCreate ObjType.service bootCore 0 .null)
    have hc : objectCreate ObjectTable.zero ObjType.service bootCore 0 .null =
        (.ok (objectMakeId (Handle.slotWord (n := maxObjects) 0) 1), _) := rfl
    obtain ⟨g, hl⟩ := objectLookup_of_objectCreate ObjectTable.wf_zero hc
    exact ⟨_, _, _, _, hrun, hl, fun i => rfl, rfl⟩
  | succ n ih =>
    obtain ⟨oid, object, log, s, hrun, hl, hfree, hn⟩ := ih
    obtain ⟨log', s', hrun', hl', hfree', hn'⟩ := capSystem_round hrun hl hfree
    exact ⟨oid, object, log', s', hrun', hl', hfree', by omega⟩

/-! ## The refinement theorem -/

/-- **The capability table refines the set of live tokens.**  In every run in
    which no slot issues more than `2 ^ 32 - 1` tokens, the verdict on every
    token is the one the history of calls prescribes; a creation returns a
    fresh token and a revocation retires one token, with no effect on any other
    verdict; and a creation fails for want of room only.  The bound is exact:
    the `2 ^ 32`-th token of a slot is its first one again, and there are runs
    that get there. -/
theorem capTable_refines :
    (∀ log s, capSystem.Run log s → IssueBound log →
      (∀ t req type, verdict s t req type = .ok () ↔
        req ≠ 0 ∧ ∃ oid rights, Minted log t oid rights ∧
          (type = ObjType.none ∨ CreatedWithType log oid type) ∧ rights &&& req = req) ∧
      (∀ oid rights t s', capStep s (.capCreate oid rights) = (.ok t, s') →
        IssueBound (log ++ [(.capCreate oid rights, .ok t)]) →
        ¬ Returned log t ∧
        ∀ t', t' ≠ t → ∀ req type, verdict s' t' req type = verdict s t' req type) ∧
      (∀ t x s', capStep s (.capRevoke t) = (.ok x, s') →
        (∃ req type, verdict s t req type = .ok ()) ∧
        (∀ req type, verdict s' t req type ≠ .ok ()) ∧
        ∀ t', t' ≠ t → ∀ req type, verdict s' t' req type = verdict s t' req type) ∧
      (∀ oid rights type e s', CreatedWithType log oid type → rights ≠ 0 →
        capStep s (.capCreate oid rights) = (.error e, s') →
        ∀ i : Fin maxCaps, ∃ t oid' rights', Minted log t oid' rights' ∧
          (capIndex t).toNat = i.val)) ∧
    (∀ log s, capSystem.Run log s → ∀ i t, (issuedBy i log)[2 ^ 32 - 1]? = some t →
      (issuedBy i log)[0]? = some t) ∧
    (∃ log s i, capSystem.Run log s ∧ (issuedBy i log).length = 2 ^ 32) := by
  refine ⟨?_, ?_, ?_⟩
  · intro log s hrun hbound
    have hinv := capInv_run hrun
    refine ⟨hinv.verdict_iff, ?_, ?_, ?_⟩
    · -- Minting: below the bound the token of the slot is a new one.
      intro oid rights t s' hstep hbound'
      simp only [capStep] at hstep
      rcases capCreate_cases s.objects s.caps oid rights with
        ⟨e, heq⟩ | ⟨i, object, hr, hl, hfree, heq⟩
      · rw [heq] at hstep
        cases hstep
      · rw [heq] at hstep
        obtain ⟨ht, rfl⟩ := Prod.mk.inj hstep
        obtain rfl := Except.ok.inj ht
        have hlen := hbound' i
        rw [issuedBy_capCreate_self, List.length_append, List.length_singleton] at hlen
        refine ⟨fun hret => ?_, fun t' hne req type => verdict_congr ?_ req type⟩
        · have hmem := hret.mem_issuedBy (capIndex_token _ i)
          exact (hinv.slots i).fresh hfree object rights hlen hmem
        · exact capLookup_mintSlot_ne hinv.wf hr hl hfree hne
    · -- Revoking: only a live token is revoked, and it is dead afterwards.
      intro t x s' hstep
      simp only [capStep] at hstep
      rcases capRevoke_cases hinv.wf t with ⟨e, _, heq⟩ | ⟨i, hocc, rfl, heq⟩
      · rw [heq] at hstep
        cases hstep
      · rw [heq] at hstep
        obtain ⟨_, rfl⟩ := Prod.mk.inj hstep
        refine ⟨⟨(s.caps.entry i).rights, ObjType.none, ?_⟩, ?_, ?_⟩
        · refine verdict_eq_ok.mpr ⟨s.caps.entry i, (capCheck_eq_ok hinv.wf).mpr ?_⟩
          exact ⟨hinv.wf.rights i hocc, i, hocc, rfl, rfl, .inl rfl, UInt64.and_self⟩
        · intro req type hok
          obtain ⟨e, he⟩ := verdict_eq_ok.mp hok
          exact capLookup_revokeSlot_self hinv.wf i e (capCheck_eq_ok_iff_lookup.mp he).2.1
        · intro t' hne req type
          exact verdict_congr (capLookup_revokeSlot_ne hinv.wf hne) req type
    · -- A mint that fails has found every slot taken.
      intro oid rights type e s' hty hrights hstep i
      simp only [capStep] at hstep
      obtain ⟨ob, hl, _⟩ := (hinv.typed oid type).mp hty
      have hfull := capCreate_error hrights hl (Prod.ext (Prod.mk.inj hstep).1 rfl) i
      exact ⟨s.caps.token i, _, _, (hinv.minted _ _ _).mpr ⟨i, hfull, rfl, rfl, rfl⟩,
        capIndex_token _ i⟩
  · -- Beyond the bound the generations of a slot start again.
    intro log s hrun i t ht
    have htok := ((capInv_run hrun).slots i).tokens
    have hlen : 2 ^ 32 - 1 < (issuedBy i log).length := (List.getElem?_eq_some_iff.mp ht).1
    rw [htok, List.getElem?_map, List.getElem?_range hlen, Option.map_some, tokenAt_period] at ht
    rw [htok, List.getElem?_map, List.getElem?_range (by omega), Option.map_some]
    exact ht
  · obtain ⟨log, s, hrun, hn⟩ := exists_run_issuing (2 ^ 32)
    exact ⟨log, s, 0, hrun, hn⟩

/-! ### A slot that is used again -/

/-- One more call of a run, by what it answers. -/
theorem capSystem_step {log : CapLog} {s : Tables} {call : CapCall} {answer : Except Err UInt64}
    (hrun : capSystem.Run log s) (hanswer : (capStep s call).1 = answer) :
    capSystem.Run (log ++ [(call, answer)]) (capStep s call).2 := by
  rw [← hanswer]
  exact hrun.step call

theorem issueBound_of_length {log : CapLog} (h : log.length ≤ 4) : IssueBound log := by
  intro i
  have hle : (issuedBy i log).length ≤ log.length := List.length_filterMap_le _ _
  omega

/-- A token is revoked, and its slot is used again. -/
theorem capTable_refines_recycled :
    ∃ log s s₁ s₂, capSystem.Run log s ∧ verdict s 0x100000000 Right.read ObjType.endpoint = .ok () ∧
      capStep s (.capRevoke 0x100000000) = (.ok 0, s₁) ∧
      capStep s₁ (.capCreate 0x100000000 Right.read) = (.ok 0x300000000, s₂) ∧
      capIndex 0x300000000 = capIndex 0x100000000 ∧
      (∀ req type, verdict s₂ 0x100000000 req type ≠ .ok ()) ∧
      verdict s₂ 0x300000000 Right.read ObjType.endpoint = .ok () := by
  have hobject : (capStep Tables.zero (.objectCreate ObjType.endpoint 0 0 (.endpoint 0))).1 =
      .ok 0x100000000 := by
    decide +kernel
  have hrun₀ := capSystem_step (System.Run.init rfl) hobject
  set s₀ := (capStep Tables.zero (.objectCreate ObjType.endpoint 0 0 (.endpoint 0))).2 with hs₀
  have hmint : (capStep s₀ (.capCreate 0x100000000 Right.read)).1 = .ok 0x100000000 := by
    decide +kernel
  have hrun := capSystem_step hrun₀ hmint
  set s := (capStep s₀ (.capCreate 0x100000000 Right.read)).2 with hs
  have hrevoke : (capStep s (.capRevoke 0x100000000)).1 = .ok 0 := by
    decide +kernel
  have hrun₁ := capSystem_step hrun hrevoke
  set s₁ := (capStep s (.capRevoke 0x100000000)).2 with hs₁
  have hagain : (capStep s₁ (.capCreate 0x100000000 Right.read)).1 = .ok 0x300000000 := by
    decide +kernel
  have hrun₂ := capSystem_step hrun₁ hagain
  obtain ⟨hrefines, _⟩ := capTable_refines
  obtain ⟨hverdict, _, hrevoked, _⟩ := hrefines _ _ hrun (issueBound_of_length (by decide))
  obtain ⟨_, hcreated, _⟩ := hrefines _ _ hrun₁ (issueBound_of_length (by decide))
  obtain ⟨hverdict₂, _⟩ := hrefines _ _ hrun₂ (issueBound_of_length (by decide))
  have hstep₁ : capStep s (.capRevoke 0x100000000) = (.ok 0, s₁) := Prod.ext hrevoke hs₁
  have hstep₂ : capStep s₁ (.capCreate 0x100000000 Right.read) = (.ok 0x300000000, _) := Prod.ext hagain rfl
  refine ⟨_, s, s₁, _, hrun, ?_, hstep₁, hstep₂, by decide, ?_, ?_⟩
  · refine (hverdict _ _ _).mpr ⟨by decide, 0x100000000, Right.read, ?_, .inr ?_, by decide⟩
    · exact minted_concat.mpr (.inl rfl)
    · exact ⟨0, 0, .endpoint 0, by simp⟩
  · -- The token stays dead when its slot is used again.
    intro req type
    have hsame :=
      (hcreated _ _ _ _ hstep₂ (issueBound_of_length (by decide))).2 0x100000000 (by decide) req type
    rw [hsame]
    exact (hrevoked _ _ _ hstep₁).2.1 req type
  · refine (hverdict₂ _ _ _).mpr ⟨by decide, 0x100000000, Right.read, ?_, .inr ?_, by decide⟩
    · exact minted_concat.mpr (.inl rfl)
    · exact ⟨0, 0, .endpoint 0, by simp⟩

end Scdk
