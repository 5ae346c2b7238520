import Scdk.Core.SpawnEntry
import Scdk.Lib.Run

/-! # Spawning again and again

    The records of a spawned task stay in use when it is cleaned up, and so do its objects
    and tokens.

    * `spawn_takes_task`: a spawn that succeeds takes a task record for good,
    * `spawns_sustained`: as many spawns succeed as there was room for at the start, with
      what their programs keep. -/

namespace Scdk

variable {δ : Type}

/-! ## Task records -/

/-- The number of task records that are not in use. -/
def Kernel.freeTasks (k : Kernel δ) : Nat := Slots.count fun i => !(k.tasks.tasks i).inUse

section freeTasks

variable {k k₁ k₂ k' : Kernel (Host δ)}

/-- No record gets free. -/
theorem RecordsKept.free (h : RecordsKept k.tasks k'.tasks) (i : Fin maxTasks)
    (hfree : (!(k'.tasks.tasks i).inUse) = true) : (!(k.tasks.tasks i).inUse) = true := by
  cases huse : (k.tasks.tasks i).inUse with
  | false => rfl
  | true =>
    rw [h.taskUse huse] at hfree
    cases hfree

theorem RecordsKept.freeTasks (h : RecordsKept k.tasks k'.tasks) : k'.freeTasks ≤ k.freeTasks :=
  Slots.count_le h.free

/-- A task that is added takes a record. -/
theorem TaskAdded.freeTasks {new : NewTask} {i : Fin maxTasks} {j : Fin maxThreads}
    (h : TaskAdded new i j k₁ k₂) (hbefore : RecordsKept k.tasks k₁.tasks)
    (hadd : RecordsKept k₁.tasks k₂.tasks) (hafter : RecordsKept k₂.tasks k'.tasks) :
    k'.freeTasks < k.freeTasks := by
  have hkept : RecordsKept k.tasks k'.tasks :=
    IsTrans.trans _ _ _ hbefore (IsTrans.trans _ _ _ hadd hafter)
  have huse : (k'.tasks.tasks i).inUse = true := hafter.taskUse h.records.taskUse
  -- The record of the new task was free, and it is in use from then on.
  apply Slots.count_lt hkept.free (i := i)
  · apply hbefore.free
    rw [h.task]
    rfl
  · rw [huse]
    rfl

variable {d : Peripherals δ} {hhdmOffset : UInt64} {a : LoadAnswers} {user : K (Host δ) Unit}

/-- **A spawn that succeeds** takes a task record, and does not give it back. -/
theorem spawn_takes_task (hlive : RecordsLive k) (huser : Returns user)
    (h : spawnWith d hhdmOffset a user k = (.ok (), k')) : k'.freeTasks < k.freeTasks := by
  obtain ⟨path, endpoint, task, k₃, _, _, hload, hclean⟩ := spawnWith_eq_ok h
  obtain ⟨_, _, image, k₁, new, k₂, hread, hcreate, hrun⟩ := loaderLoadFromVfs_eq_ok hload
  have hread' := (noted_loaderReadImage d a path k.noMessage).orderly
  rw [hread] at hread'
  have hlive₀ : RecordsLive k.noMessage :=
    (orderly_of_tasks rfl rfl (.of_eq rfl) : Orderly k k.noMessage) hlive |>.live
  have hstep₁ := hread' hlive₀
  have hcreated := userTaskCreate_run a.storage a.rootPages k₁
  rw [hcreate] at hcreated
  obtain ⟨hlive₂, hsame, _, hadds⟩ := hcreated.records hstep₁.live
  obtain ⟨i, j, hadded⟩ := hadds new rfl
  have hrun' := orderly_userTaskRunFlat a.run new.task image.1 image.2 endpoint hhdmOffset huser k₂ hlive₂
  rw [hrun] at hrun'
  have hclean' : RecordsKept k₃.tasks k'.tasks := by
    rw [hclean]
    exact (orderly_taskCleanup task k₃ hrun'.live).kept
  exact hadded.freeTasks hstep₁.kept hsame.kept (IsTrans.trans _ _ _ hrun'.kept hclean')

end freeTasks

/-! ## Runs -/

/-- The service handles the same request again and again; the allocators answer anew each
    time. -/
def spawning (d : Peripherals δ) (hhdmOffset : UInt64) (c : SpawnCall) (k₀ : Kernel (Host δ)) :
    System (Kernel (Host δ)) LoadAnswers (Except Err Unit) where
  init k := k = k₀
  step k a := spawnCall d hhdmOffset c a (runProgram d hhdmOffset c.prog) k

/-- The answers of the allocators are memory for the request in state `k`. -/
def MemoryFor (c : SpawnCall) (k : Kernel (Host δ)) (a : LoadAnswers) : Prop :=
  ∃ path f, boundedPathFromMessage (k.asked c) = .ok path ∧
    k.initrd.resolves (openMessage a.path) path = .ok f ∧ SpawnMemory a f k

/-- Wherever the program of the request is entered, it makes a successful call and exits.  It
    keeps `cost` of the tables, such as the files that it has left open, and maps nothing. -/
def ProgramFits (d : Peripherals δ) (hhdmOffset : UInt64) (c : SpawnCall) (cost : TableRoom)
    (k : Kernel (Host δ)) (a : LoadAnswers) : Prop :=
  ∀ kᵤ, Enters (spawnCall d hhdmOffset c a) k kᵤ →
    Passes (runProgram d hhdmOffset c.prog kᵤ).2 ∧
      Takes cost kᵤ (runProgram d hhdmOffset c.prog kᵤ).2 ∧
      MapsNothing kᵤ (runProgram d hhdmOffset c.prog kᵤ).2

/-- How many requests of a log have succeeded. -/
def succeeded (log : List (LoadAnswers × Except Err Unit)) : Nat :=
  log.countP fun x => decide (x.2 = .ok ())

section runs

variable {d : Peripherals δ} {hhdmOffset : UInt64} {c : SpawnCall} {a a₀ : LoadAnswers}
  {k k₀ : Kernel (Host δ)} {path : List UInt8} {endpoint : UInt64} {f : InitrdFile}
  {log : List (LoadAnswers × Except Err Unit)} {cost : TableRoom}

/-- What one request leaves. -/
theorem spawnCall_step (hlive : RecordsLive k) :
    OrderlyStep (k.asked c) (spawnCall d hhdmOffset c a (runProgram d hhdmOffset c.prog) k).2 ∧
      Lasting k (spawnCall d hhdmOffset c a (runProgram d hhdmOffset c.prog) k).2 := by
  have hasked : Orderly k (k.asked c) := orderly_of_tasks rfl rfl (.of_eq rfl)
  have hstart : Lasting k (k.asked c) := .of_eq rfl
  have horderly := orderly_spawnWith d hhdmOffset a (returns_runProgram d hhdmOffset c.prog) (k.asked c)
  have hstays : StaysUp (k.asked c) (spawnCall d hhdmOffset c a (runProgram d hhdmOffset c.prog) k).2 :=
    staysUp_steps.spawnWith d hhdmOffset trivial (staysUp_runProgram d hhdmOffset c.prog) (k.asked c)
  exact ⟨horderly (hasked hlive).live, IsTrans.trans _ _ _ hstart hstays.lasting⟩

/-- A request takes a record when it succeeds, and gives none back when it fails. -/
theorem spawnCall_freeTasks (hlive : RecordsLive k) :
    succeeded [(a, (spawnCall d hhdmOffset c a (runProgram d hhdmOffset c.prog) k).1)] +
      (spawnCall d hhdmOffset c a (runProgram d hhdmOffset c.prog) k).2.freeTasks ≤ k.freeTasks := by
  obtain ⟨hstep, _⟩ := @spawnCall_step δ d hhdmOffset c a k hlive
  have hkept : (spawnCall d hhdmOffset c a (runProgram d hhdmOffset c.prog) k).2.freeTasks ≤ k.freeTasks :=
    hstep.kept.freeTasks
  have hasked : RecordsLive (k.asked c) :=
    ((orderly_of_tasks rfl rfl (.of_eq rfl) : Orderly k (k.asked c)) hlive).live
  have htaken : (spawnCall d hhdmOffset c a (runProgram d hhdmOffset c.prog) k).1 = .ok () →
      (spawnCall d hhdmOffset c a (runProgram d hhdmOffset c.prog) k).2.freeTasks < k.freeTasks := by
    intro hok
    have hrun : spawnWith d hhdmOffset a (runProgram d hhdmOffset c.prog) (k.asked c) =
        (.ok (), (spawnCall d hhdmOffset c a (runProgram d hhdmOffset c.prog) k).2) := Prod.ext hok rfl
    have hless := spawn_takes_task hasked (returns_runProgram d hhdmOffset c.prog) hrun
    exact hless
  generalize spawnCall d hhdmOffset c a (runProgram d hhdmOffset c.prog) k = out at hkept htaken ⊢
  obtain ⟨result, k'⟩ := out
  cases result with
  | error e =>
    have hnone : succeeded [(a, (Except.error e : Except Err Unit))] = 0 := rfl
    rw [hnone, Nat.zero_add]
    exact hkept
  | ok _ =>
    have hone : succeeded [(a, (Except.ok () : Except Err Unit))] = 1 := rfl
    have hless := htaken rfl
    rw [hone]
    omega

/-- **How many requests succeed**: no more than there were free task records. -/
theorem succeeded_le (hlive : RecordsLive k₀) (h : (spawning d hhdmOffset c k₀).Run log k) :
    RecordsLive k ∧ succeeded log + k.freeTasks ≤ k₀.freeTasks := by
  induction h with
  | init hinit =>
    obtain rfl := hinit
    exact ⟨hlive, by simp [succeeded]⟩
  | @step log k a _ _ ih =>
    obtain ⟨hlive', hle⟩ := ih
    have hone := @spawnCall_freeTasks δ d hhdmOffset c a k hlive'
    refine ⟨(spawnCall_step hlive').1.live, ?_⟩
    have happend : ∀ x, succeeded (log ++ [x]) = succeeded log + succeeded [x] :=
      fun x => List.countP_append
    rw [happend]
    show succeeded log + succeeded [(a, (spawnCall d hhdmOffset c a (runProgram d hhdmOffset c.prog) k).1)] +
      (spawnCall d hhdmOffset c a (runProgram d hhdmOffset c.prog) k).2.freeTasks ≤ _
    omega

/-- Memory for a request is there as long as the active address space is as it was. -/
theorem MemoryFor.kept (h : MemoryFor c k₀ a) (hready : SpawnReady c path endpoint f k₀)
    (hkept : ActiveKept k₀.vmm k.vmm) : SpawnMemory a f k := by
  obtain ⟨path', f', hpath, hfound, hmem⟩ := h
  obtain rfl := Except.ok.inj (hready.text.symm.trans hpath)
  have hptr : a.path ≠ 0 := by
    obtain ⟨_, _, _, _, _, hload⟩ := hmem.load
    exact hload.path
  obtain rfl := Except.ok.inj ((hready.found a.path hptr).symm.trans hfound)
  exact hmem.kept hkept

/-- **One request**, with room and memory, whose program fits: it succeeds, takes
    `TableRoom.spawn` and what the program keeps, and leaves the active address space as it
    was. -/
theorem spawnCall_fits (hready : SpawnReady c path endpoint f k) (hhdm : hhdmOffset ≠ 0)
    (hlive : RecordsLive k) (hroom : SpawnRoom k) (hmem : SpawnMemory a f k)
    (hfits : ProgramFits d hhdmOffset c cost k a) :
    (spawnCall d hhdmOffset c a (runProgram d hhdmOffset c.prog) k).1 = .ok () ∧
      Takes (cost + .spawn) k (spawnCall d hhdmOffset c a (runProgram d hhdmOffset c.prog) k).2 ∧
      ActiveKept k.vmm (spawnCall d hhdmOffset c a (runProgram d hhdmOffset c.prog) k).2.vmm := by
  have hreturns : Returns (runProgram d hhdmOffset c.prog) := returns_runProgram d hhdmOffset c.prog
  have hstays := staysUp_runProgram d hhdmOffset c.prog
  obtain ⟨kᵤ, henters⟩ := spawn_enters d hready hhdm hlive hroom hmem
  obtain ⟨hpasses, hkeeps, hquiet⟩ := hfits kᵤ henters.enters
  refine ⟨(henters.answers _ hreturns hstays).mpr hpasses, ?_, henters.memory _ hstays hquiet⟩
  exact (henters.takes.trans hkeeps).same (henters.room _)

/-- A program that spawns nothing fits where the request succeeds, and keeps what the request
    takes more than a spawn. -/
theorem programFits_of_ok (hready : SpawnReady c path endpoint f k) (hhdm : hhdmOffset ≠ 0)
    (hlive : RecordsLive k) (hmem : SpawnMemory a f k)
    (hquiet : c.prog.Loads fun answers => answers.path = 0)
    (hok : (spawnCall d hhdmOffset c a (runProgram d hhdmOffset c.prog) k).1 = .ok ())
    (htakes : Takes (cost + .spawn) k (spawnCall d hhdmOffset c a (runProgram d hhdmOffset c.prog) k).2) :
    ProgramFits d hhdmOffset c cost k a := by
  obtain ⟨kᵤ, henters⟩ :=
    spawn_enters d hready hhdm hlive (spawnRoom_of_ok hready hlive hmem hok) hmem
  intro kᵤ' henters'
  -- There is only one state in which the program is entered.
  obtain rfl := henters.enters.unique henters'
  have hpasses := (henters.answers _ (returns_runProgram d hhdmOffset c.prog)
    (staysUp_runProgram d hhdmOffset c.prog)).mp hok
  refine ⟨hpasses, ?_, mapsNothing_runProgram d hhdmOffset hquiet kᵤ⟩
  -- What the program has left, with what was taken before it, is what there was.
  apply TableRoom.add_right_cancel (c := .spawn)
  calc
    _ = (spawnCall d hhdmOffset c a (runProgram d hhdmOffset c.prog) k).2.tableRoom + (cost + .spawn) := by
      rw [henters.room, TableRoom.add_assoc]
    _ = k.tableRoom := htakes
    _ = kᵤ.tableRoom + .spawn := henters.takes.symm

/-- Two such requests, one after the other. -/
theorem spawning_two {a' : LoadAnswers} (hlive : RecordsLive k₀) (hmem : MemoryFor c k₀ a)
    (hmem' : MemoryFor c k₀ a') (hquiet : c.prog.Loads fun answers => answers.path = 0)
    (hok : (spawnCall d hhdmOffset c a (runProgram d hhdmOffset c.prog) k₀).1 = .ok ())
    (htakes : Takes (cost + .spawn) k₀ (spawnCall d hhdmOffset c a (runProgram d hhdmOffset c.prog) k₀).2)
    (hok' : (spawnCall d hhdmOffset c a' (runProgram d hhdmOffset c.prog)
      (spawnCall d hhdmOffset c a (runProgram d hhdmOffset c.prog) k₀).2).1 = .ok ())
    (htakes' : Takes (cost + .spawn) (spawnCall d hhdmOffset c a (runProgram d hhdmOffset c.prog) k₀).2
      (spawnCall d hhdmOffset c a' (runProgram d hhdmOffset c.prog)
        (spawnCall d hhdmOffset c a (runProgram d hhdmOffset c.prog) k₀).2).2) :
    ∃ k, (spawning d hhdmOffset c k₀).RunWhen
      (fun k a => MemoryFor c k₀ a ∧ ProgramFits d hhdmOffset c cost k a)
      [(a, .ok ()), (a', .ok ())] k := by
  obtain ⟨hhdm, _, path, endpoint, f, hready⟩ := spawnReady_of_ok hok
  have hmem₀ := hmem.kept hready (refl _)
  have hfits := programFits_of_ok hready hhdm hlive hmem₀ hquiet hok htakes
  -- The second request finds the active address space as the first one has found it.
  have hroom := spawnRoom_of_ok hready hlive hmem₀ hok
  obtain ⟨_, _, hkept⟩ := spawnCall_fits hready hhdm hlive hroom hmem₀ hfits
  obtain ⟨hstep, hlast⟩ := @spawnCall_step δ d hhdmOffset c a k₀ hlive
  have hfits' := programFits_of_ok (hready.lasting hlast hlive.wf) hhdm hstep.live
    (hmem'.kept hready hkept) hquiet hok' htakes'
  have hrun : (spawning d hhdmOffset c k₀).RunWhen
      (fun k a => MemoryFor c k₀ a ∧ ProgramFits d hhdmOffset c cost k a) [] k₀ := .init rfl
  have hrun' := (hrun.step a ⟨hmem, hfits⟩).step a' ⟨hmem', hfits'⟩
  have hlog : ((spawning d hhdmOffset c k₀).step k₀ a).1 = .ok () ∧
      ((spawning d hhdmOffset c k₀).step ((spawning d hhdmOffset c k₀).step k₀ a).2 a').1 = .ok () :=
    ⟨hok, hok'⟩
  rw [hlog.1, hlog.2] at hrun'
  exact ⟨_, hrun'⟩

/-- What holds after so many requests that have all succeeded. -/
structure Sustained (k₀ : Kernel (Host δ)) (cost : TableRoom) (n : Nat) (k : Kernel (Host δ)) : Prop where
  kept : ActiveKept k₀.vmm k.vmm
  left : k.tableRoom + (cost + .spawn).times n = k₀.tableRoom

theorem Sustained.step {n : Nat} {k' : Kernel (Host δ)} (h : Sustained k₀ cost n k)
    (htakes : Takes (cost + .spawn) k k') (hkept : ActiveKept k.vmm k'.vmm) :
    Sustained k₀ cost (n + 1) k' := by
  have hroom : k'.tableRoom + (cost + .spawn) = k.tableRoom := htakes
  refine ⟨h.kept.trans hkept, ?_⟩
  rw [TableRoom.times_succ, ← TableRoom.add_assoc, hroom]
  exact h.left

/-- Whether there is room for the next spawn is known from the start. -/
theorem Sustained.room {n : Nat} (h : Sustained k₀ cost n k) :
    SpawnRoom k ↔ k₀.tableRoom.SpawnsAfter cost n := by
  rw [spawnRoom_iff]
  constructor
  · intro hroom
    exact ⟨k.tableRoom, h.left, hroom.1, hroom.2⟩
  · intro hafter
    obtain ⟨left, hleft, hroom⟩ := hafter
    obtain rfl := TableRoom.add_right_cancel (hleft.trans h.left.symm)
    exact hroom

/-- The requests of a run all succeed when the accounts leave room for each. -/
theorem spawns_iff (hlive : RecordsLive k₀)
    (hfirst : (spawnCall d hhdmOffset c a₀ (runProgram d hhdmOffset c.prog) k₀).1 = .ok ())
    (hrun : (spawning d hhdmOffset c k₀).RunWhen
      (fun k a => MemoryFor c k₀ a ∧ ProgramFits d hhdmOffset c cost k a) log k) :
    (∀ x ∈ log, x.2 = .ok ()) ↔ ∀ n < log.length, k₀.tableRoom.SpawnsAfter cost n := by
  obtain ⟨hhdm, _, path, endpoint, f, hready⟩ := spawnReady_of_ok hfirst
  have hall : (RecordsLive k ∧ SpawnReady c path endpoint f k) ∧
      ((∀ x ∈ log, x.2 = .ok ()) →
        Sustained k₀ cost log.length k ∧ ∀ n < log.length, k₀.tableRoom.SpawnsAfter cost n) ∧
      ((∀ n < log.length, k₀.tableRoom.SpawnsAfter cost n) → ∀ x ∈ log, x.2 = .ok ()) := by
    -- By induction on the run: as long as all have succeeded, the accounts are exact.
    induction hrun with
    | init hinit =>
      obtain rfl := hinit
      refine ⟨⟨hlive, hready⟩, fun _ => ⟨⟨refl _, ?_⟩, fun n hn => absurd hn (Nat.not_lt_zero n)⟩,
        fun _ x hx => absurd hx List.not_mem_nil⟩
      rw [List.length_nil, TableRoom.times_zero, TableRoom.add_zero]
    | @step log k a _ hguard ih =>
      obtain ⟨⟨hlive', hready'⟩, hsustained, hok⟩ := ih
      obtain ⟨hmemory, hfits⟩ := hguard
      obtain ⟨hstep, hlast⟩ := @spawnCall_step δ d hhdmOffset c a k hlive'
      have hlog : ∀ y, (∀ x ∈ log ++ [y], x.2 = .ok ()) ↔ (∀ x ∈ log, x.2 = .ok ()) ∧ y.2 = .ok () := by
        intro y
        simp [or_imp, forall_and]
      have hlength : ∀ y, (log ++ [y]).length = log.length + 1 := fun y => by simp
      refine ⟨⟨hstep.live, hready'.lasting hlast hlive'.wf⟩, ?_, ?_⟩
      · intro hall
        obtain ⟨hbefore, hlast'⟩ := (hlog _).mp hall
        obtain ⟨hbefore', hrooms⟩ := hsustained hbefore
        have hmem := hmemory.kept hready hbefore'.kept
        have hroom := spawnRoom_of_ok hready' hlive' hmem hlast'
        obtain ⟨_, htakes, hkept⟩ := spawnCall_fits hready' hhdm hlive' hroom hmem hfits
        rw [hlength]
        refine ⟨hbefore'.step htakes hkept, fun n hn => ?_⟩
        rcases Nat.lt_succ_iff_lt_or_eq.mp hn with hless | rfl
        · exact hrooms n hless
        · exact hbefore'.room.mp hroom
      · intro hrooms
        rw [hlength] at hrooms
        have hbefore := hok fun n hn => hrooms n (Nat.lt_succ_of_lt hn)
        obtain ⟨hbefore', _⟩ := hsustained hbefore
        have hmem := hmemory.kept hready hbefore'.kept
        have hroom := hbefore'.room.mpr (hrooms _ (Nat.lt_succ_self _))
        exact (hlog _).mpr ⟨hbefore, (spawnCall_fits hready' hhdm hlive' hroom hmem hfits).1⟩
  exact ⟨fun hlog => (hall.2.1 hlog).2, hall.2.2⟩

/-- **Spawning again and again.**  From a state in which a request succeeds, with memory for
    each request and a program that fits, all requests succeed as long as what the ones before
    have taken leaves room for the next, and no longer; with a program that keeps nothing,
    that is `TableRoom.spawnsLeft`.  Whatever happens, each that succeeds takes a task record
    for good. -/
theorem spawns_sustained (hlive : RecordsLive k₀)
    (hfirst : (spawnCall d hhdmOffset c a₀ (runProgram d hhdmOffset c.prog) k₀).1 = .ok ()) :
    (∀ cost log k, (spawning d hhdmOffset c k₀).RunWhen
        (fun k a => MemoryFor c k₀ a ∧ ProgramFits d hhdmOffset c cost k a) log k →
      ((∀ x ∈ log, x.2 = .ok ()) ↔ ∀ n < log.length, k₀.tableRoom.SpawnsAfter cost n)) ∧
    (∀ log k, (spawning d hhdmOffset c k₀).RunWhen
        (fun k a => MemoryFor c k₀ a ∧ ProgramFits d hhdmOffset c 0 k a) log k →
      ((∀ x ∈ log, x.2 = .ok ()) ↔ log.length ≤ k₀.tableRoom.spawnsLeft)) ∧
    ∀ log k, (spawning d hhdmOffset c k₀).Run log k → succeeded log + k.freeTasks ≤ k₀.freeTasks := by
  obtain ⟨_, hclosed, _⟩ := spawnReady_of_ok hfirst
  have hfiles : 0 < k₀.tableRoom.files := by
    obtain ⟨i, hi⟩ := hclosed
    exact Slots.count_pos (p := fun i => !(k₀.files i).isOpen) (i := i) (by simp [hi])
  refine ⟨fun cost log k => spawns_iff hlive hfirst, ?_, fun log k hrun => (succeeded_le hlive hrun).2⟩
  intro log k hrun
  rw [spawns_iff hlive hfirst hrun]
  simp only [TableRoom.spawnsAfter_zero]
  constructor
  · intro hrooms
    by_contra hmore
    exact Nat.lt_irrefl _ (hrooms _ (Nat.lt_of_not_le hmore)).2
  · intro hle n hn
    exact ⟨hfiles, Nat.lt_of_lt_of_le hn hle⟩

end runs

/-! ### A program that leaves a file open -/

/-- A message that asks for the file `/a`, and its name, in the stack of the program, which
    exits without closing it. -/
def openProgram : Program :=
  .memory (framesOfWords 0x50000 [0, Service.vfs, Msg.openFile, 0x6ffff040, 2, 0, 0, 0, 0x612f])
    (.syscall ⟨Sys.endpointCall, firstToken 3, 0x6ffff000, 0, 0, 0x300000⟩ ⟨0x6ffffff0, 0x400010, 2⟩
      { fileAnswers with path := 0 } (.exit ⟨0, 0, 0⟩) (.exit ⟨0x6ffffff0, 0x400010, 2⟩))

/-- A request to spawn `/a`, with this program. -/
def openCall : SpawnCall :=
  ⟨{ messageInit 0 Service.proc Msg.processSpawn with arg0 := 0x200000, arg1 := 2 }, [slash, 97],
    openProgram⟩

/-- What such a program keeps. -/
def TableRoom.file : TableRoom := ⟨1, 0, 0, 0, 0, 1, 1⟩

/-- What the allocators answer to a second request: the pages of the run have been given
    back, its tables and the root of its address space have not. -/
def laterAnswers : LoadAnswers :=
  { fileAnswers with
    storage := some 1
    rootPages := [.ok 0x11000]
    run :=
      { childAnswers with
        code := fun i => (.ok (0x30000 + UInt64.ofNat i * 4096), [.ok 0x140000, .ok 0x141000, .ok 0x142000])
        userStack := (.ok 0x50000, [.ok 0x160000, .ok 0x161000, .ok 0x162000]) } }

theorem loadMemory_laterAnswers :
    LoadMemory laterAnswers 3 0xffff800000000000 1 0x11000 fileFrame [0x1000] fileMachine :=
  @PagesFor.loadMemory laterAnswers 1 0x11000 0x140000 0x141000 0x142000 0x160000 0x161000 0x162000
    ⟨by decide, rfl, rfl, rfl, rfl, rfl, rfl, by decide, by decide, by decide⟩

theorem memoryFor_openCall : MemoryFor openCall fileMachine fileAnswers ∧
    MemoryFor openCall fileMachine laterAnswers := by
  have hpath : boundedPathFromMessage (fileMachine.asked openCall) = .ok [slash, 97] := by
    decide +kernel
  have hfound : fileMachine.initrd.resolves (openMessage 0x200000) [slash, 97] = .ok smallFile := by
    decide +kernel
  have hroot : RootOk fileMachine.vmm.activeCr3Phys := ⟨by decide, rfl⟩
  exact ⟨⟨_, smallFile, hpath, hfound, hroot, _, _, _, _, _, loadMemory_fileMachine⟩,
    ⟨_, smallFile, hpath, hfound, hroot, _, _, _, _, _, loadMemory_laterAnswers⟩⟩

/-- What a request on the machine leaves. -/
def opened (a : LoadAnswers) (k : Kernel (Host Unit)) : Except Err Unit × Kernel (Host Unit) :=
  spawnCall quietPeripherals 0xffff800000000000 openCall a
    (runProgram quietPeripherals 0xffff800000000000 openCall.prog) k

/-- Two requests succeed, and each takes what a spawn takes, and the file. -/
theorem opened_runs : (opened fileAnswers fileMachine).1 = .ok () ∧
    (opened fileAnswers fileMachine).2.tableRoom = ⟨31, 63, 127, 63, 127, 4087, 4087⟩ ∧
    (opened laterAnswers (opened fileAnswers fileMachine).2).1 = .ok () ∧
    (opened laterAnswers (opened fileAnswers fileMachine).2).2.tableRoom =
      ⟨30, 62, 126, 62, 126, 4082, 4082⟩ := by
  decide +kernel

theorem takes_opened : Takes (.file + .spawn) fileMachine (opened fileAnswers fileMachine).2 ∧
    Takes (.file + .spawn) (opened fileAnswers fileMachine).2
      (opened laterAnswers (opened fileAnswers fileMachine).2).2 := by
  obtain ⟨_, honce, _, htwice⟩ := opened_runs
  have hstart : fileMachine.tableRoom = ⟨32, 64, 128, 64, 128, 4092, 4092⟩ := by decide +kernel
  unfold Takes
  rw [hstart, honce, htwice]
  exact ⟨rfl, rfl⟩

/-- A run of two requests. -/
theorem spawns_sustained_two : ∃ k,
    (spawning quietPeripherals 0xffff800000000000 openCall fileMachine).RunWhen
      (fun k a => MemoryFor openCall fileMachine a ∧
        ProgramFits quietPeripherals 0xffff800000000000 openCall .file k a)
      [(fileAnswers, .ok ()), (laterAnswers, .ok ())] k ∧
    fileMachine.tableRoom.SpawnsAfter .file 1 ∧ k.freeTasks + 2 ≤ maxTasks := by
  obtain ⟨hmem, hmem'⟩ := memoryFor_openCall
  obtain ⟨htakes, htakes'⟩ := takes_opened
  obtain ⟨hok, _, hok', _⟩ := opened_runs
  unfold opened at hok hok' htakes htakes'
  have hlive := loadSlots_fileMachine.live
  obtain ⟨k, hrun⟩ := spawning_two hlive hmem hmem' ⟨rfl, trivial, trivial⟩ hok htakes hok' htakes'
  obtain ⟨hiff, _, hfree⟩ := spawns_sustained hlive hok
  have hleft := (hiff _ _ _ hrun).mp (by simp) 1 (by decide)
  have hle := hfree _ _ (hrun.mono fun _ _ _ => trivial)
  have htwo : succeeded [(fileAnswers, (.ok () : Except Err Unit)), (laterAnswers, .ok ())] = 2 := rfl
  have hall : fileMachine.freeTasks = maxTasks := Slots.count_all fun _ => rfl
  rw [htwo, hall] at hle
  exact ⟨k, hrun, hleft, by omega⟩

/-! ### A program that clears the console -/

/-- A message that asks the console to clear, in the stack of the program. -/
def clearProgram : Program :=
  .memory (framesOfWords 0x50000 [0, Service.console, Msg.consoleClear, 0, 0, 0, 0, 0])
    (.syscall ⟨Sys.endpointCall, firstToken 0, 0x6ffff000, 0, 0, 0⟩ ⟨0x6ffffff0, 0x400010, 2⟩
      { fileAnswers with path := 0 } (.exit ⟨0, 0, 0⟩) (.exit ⟨0x6ffffff0, 0x400010, 2⟩))

/-- A request to spawn it, for which it keeps nothing. -/
def clearCall : SpawnCall := { openCall with prog := clearProgram }

/-- A first request succeeds. -/
theorem clearCall_ok : (spawnCall quietPeripherals 0xffff800000000000 clearCall fileAnswers
    (runProgram quietPeripherals 0xffff800000000000 clearCall.prog) fileMachine).1 = .ok () := by
  decide +kernel

/-- The table of tasks has 64 records, so that 65 requests cannot all succeed. -/
theorem spawns_end :
    ¬ ∀ (d : Peripherals Unit) (hhdmOffset : UInt64) (c : SpawnCall) (a₀ : LoadAnswers)
      (k₀ : Kernel (Host Unit)), RecordsLive k₀ →
      (spawnCall d hhdmOffset c a₀ (runProgram d hhdmOffset c.prog) k₀).1 = .ok () →
      ∀ n, ∃ log k, (spawning d hhdmOffset c k₀).Run log k ∧ log.length = n ∧ ∀ x ∈ log, x.2 = .ok () := by
  intro hall
  obtain ⟨log, k, hrun, hlength, hlog⟩ := hall quietPeripherals 0xffff800000000000 clearCall fileAnswers
    fileMachine loadSlots_fileMachine.live clearCall_ok (maxTasks + 1)
  obtain ⟨_, hle⟩ := succeeded_le loadSlots_fileMachine.live hrun
  have hcount : succeeded log = log.length := by
    apply List.countP_eq_length.mpr
    intro x hx
    exact decide_eq_true (hlog x hx)
  have hfree : fileMachine.freeTasks = maxTasks := Slots.count_all fun _ => rfl
  omega

end Scdk
