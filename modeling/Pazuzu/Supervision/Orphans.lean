import Pazuzu.Supervision.Custody
import Pazuzu.Supervision.Serving

/-! No master is lost. Every call leaves the gateway's own masters in custody
where it waits, and so does a run without foreign moves and doubts. -/
namespace Pazuzu

/-- What others than the gateway's own tasks do to its masters and receipt:
a worker thread whose caller is gone starts a master, or the receipt is altered. -/
def Move.isForeign : Move → Bool
  | .lateSpawn _ | .ownerChanges _ => true
  | _ => false

/-- The receipt could not be written, or a process was not recognised as a master. -/
def Event.isDoubt : Event → Bool
  | .fault .writeOwner | .masterRecognised _ false => true
  | _ => false

namespace Supervision

open Asyncio Transport

variable {config : Config} {found : Os} {op : Op} {task : Nat} {α : Type} {w : GatewayWorld}

section Walk

open Supervisor

/-- Code that leaves every master of the gateway's own in custody. -/
def Custodial (config : Config) (found : Os) {α : Type} (code : Py α) : Prop :=
  ∀ op task w, Cwp config found op task code (fun _ _ => True) w

theorem Sparing.custodial {code : Py α} (h : Sparing config found code) : Custodial config found code :=
  fun op task w => Extension.wp_mono (h op task w) fun _ _ _ _ => trivial

theorem custodial_update {f : State → State} (h : ∀ state, Spares state (f state)) :
    Custodial config found (Coro.update f) := (sparing_update h).custodial

theorem custodial_record {event : Event} {f : State → State} (h : ∀ state, Spares state (f state)) :
    Custodial config found (Coro.record event f) := (sparing_record h).custodial

theorem custodial_wait {wait : Wait} (hWait : ∀ argv, wait ≠ .spawnMaster argv) :
    Custodial config found (Pazuzu.wait wait) := (sparing_wait hWait).custodial

theorem custodial_compositional (config : Config) (found : Os) : Compositional (Custodial config found) where
  pure := fun _ _ _ _ => Extension.wp_pure trivial
  throw := fun _ _ _ _ => Extension.wp_throw trivial
  read := fun hNext op task w => Extension.wp_read (hNext task w.state op task w)
  bind := by
    intro α β code next hCode hNext op task w
    refine Extension.wp_bind (Extension.wp_mono (hCode op task w) ?_)
    rintro (error | value) v _ -
    · exact trivial
    · exact hNext value op task v
  attempt := fun hCode op task w => Extension.wp_attempt (hCode op task w)

/-- The lock is free when it is taken. -/
theorem cwp_takeLock {post : Except Error Unit → GatewayWorld → Prop} (hFree : w.state.sup.repairLock.holder = none)
    (hPost : ∀ v, Tends task v → post (.ok ()) v) : Cwp config found op task (setHolder .repair (some task)) post w := by
  refine Extension.wp_act fun hOld _ => ⟨⟨fun hTrusty => hOld hTrusty, fun other _ hHolder => ?_⟩,
    Extension.wp_pure (hPost _ rfl)⟩
  rw [hFree] at hHolder
  cases hHolder

theorem custodial_withLock {body : Py α} (h : Guarded config found body) :
    Custodial config found (withLock .repair body) := by
  intro op task w
  have hInside : ∀ v, Tends task v →
      Cwp config found op task (body.tryFinally (release .repair)) (fun _ _ => True) v := by
    intro v hV
    refine Extension.wp_tryFinally (Extension.wp_mono (h op task v hV) fun outcome u _ hU => ?_)
    refine Extension.wp_act fun hOld _ => ⟨⟨fun hTrusty => hOld hTrusty, fun other hOther hHolder => ?_⟩,
      Extension.wp_pure trivial⟩
    exact absurd (Option.some.inj (hHolder.symm.trans hU)) hOther
  refine Extension.wp_bind (Extension.wp_current_bind (Extension.wp_get_bind (Extension.wp_ite
    (fun hFree => cwp_takeLock hFree.1 hInside) fun _ => ?_)))
  have hQueue : ∀ waiters : List Nat → List Nat, Sparing config found (Coro.update fun state =>
      state.setLock .repair { state.lock .repair with waiters := waiters (state.lock .repair).waiters }) :=
    fun waiters => sparing_update fun _ => ⟨rfl, rfl, rfl, Loses.of_same rfl⟩
  refine Extension.wp_bind (Extension.wp_mono (hQueue (fun waiters => waiters ++ [task]) op task w) ?_)
  rintro (error | value) v _ -
  · exact trivial
  have hWaited : Cwp config found op task (wait (.lock .repair none)) (fun outcome u =>
      outcome = .ok () → u.state.sup.repairLock.holder = none) v := by
    refine Extension.wp_suspend fun _ => ⟨trivial, ?_⟩
    intro later reply state _ hOld _ _ hDeliver _
    have hState : Spares later.state state := spares_deliver (fun _ hWait => by cases hWait)
      (show Host.deliver config op task (.lock .repair none) reply later.state = some state from hDeliver)
    refine ⟨custody_spares hOld hState, fun hOk => ?_⟩
    cases hOk
    simp only [gateway, Host.deliver, Host.returns, Option.ite_none_right_eq_some, Option.some.injEq] at hDeliver
    change state.sup.repairLock.holder = none
    rw [← hDeliver.2]
    exact hDeliver.1.1
  refine Extension.wp_bind (Extension.wp_tryFinally (Extension.wp_mono hWaited fun outcome u _ hU => ?_))
  refine Extension.wp_act fun hOld _ => ⟨custody_spares hOld ⟨rfl, rfl, rfl, Loses.of_same rfl⟩, Extension.wp_pure ?_⟩
  rcases outcome with error | value
  · exact trivial
  · exact cwp_takeLock (hU rfl) hInside

theorem custodial_connect (force respectBackoff : Bool) : Custodial config found (connect config force respectBackoff) :=
  custodial_withLock (guarded_repairs.connectLocked force respectBackoff)

theorem custodial_probe : Custodial config found Supervisor.probe := by
  have hCustodial := custodial_compositional config found
  refine hCustodial.bind (hCustodial.get fun state => ?_) fun _ => custodial_wait fun _ hWait => by cases hWait
  split
  · exact hCustodial.pure _
  · exact hCustodial.bind (custodial_update fun _ => ⟨rfl, rfl, rfl, Loses.of_same rfl⟩) fun _ => hCustodial.pure _

theorem custodial_checks : Checks config (Custodial config found) (Guarded config found) where
  toCompositional := custodial_compositional config found
  repairs := guarded_repairs
  lock := custodial_withLock
  note := fun _ _ _ => (sparing_mark _).custodial
  controlCheck := sparing_attends.controlCheck.custodial
  shared := custodial_probe

/-- The queue for slots is no matter of the masters. -/
theorem sparing_withHead {deadline : Option ℚ} {body : Py α} (h : Sparing config found body) :
    Sparing config found (withLock .head body deadline) := by
  have hSparing := sparing_compositional config found
  have hLock : ∀ change : Lock → Lock, Sparing config found (Coro.update fun state =>
      state.setLock .head (change (state.lock .head))) :=
    fun change => sparing_update fun _ => ⟨rfl, rfl, rfl, Loses.of_same rfl⟩
  refine hSparing.bind (hSparing.current fun me => hSparing.get fun state => Compositional.ite ?_ ?_) fun _ =>
    hSparing.tryFinally h (hLock fun lock => { lock with holder := none })
  · exact hLock fun lock => { lock with holder := some me }
  · exact hSparing.bind (hLock fun lock => { lock with waiters := lock.waiters ++ [me] }) fun _ =>
      hSparing.bind (hSparing.tryFinally (sparing_wait fun _ hWait => by cases hWait)
        (hLock fun lock => { lock with waiters := lock.waiters.erase me })) fun _ =>
      hLock fun lock => { lock with holder := some me }

theorem sparing_admission (timeout : ℚ) : Sparing config found (admission config timeout) := by
  have hSparing := sparing_compositional config found
  refine hSparing.bind (sparing_record fun _ => ⟨rfl, rfl, rfl, Loses.of_same rfl⟩) fun _ => hSparing.get fun _ =>
    hSparing.tryFinally (hSparing.tryCatch (sparing_withHead (sparing_polls.acquireAsync _ _ _)) fun error => ?_)
      (sparing_update fun _ => ⟨rfl, rfl, rfl, Loses.of_same rfl⟩)
  cases error with
  | timeoutError => exact hSparing.get fun _ => hSparing.throw _
  | _ => exact hSparing.throw _

theorem custodial_hold (timeout : ℚ) {body : Py α} (h : Custodial config found body) :
    Custodial config found (hold config timeout body) := by
  have hCustodial := custodial_compositional config found
  refine hCustodial.bind (sparing_admission timeout).custodial fun lease => hCustodial.bind
    (custodial_update fun _ => ⟨rfl, rfl, rfl, Loses.of_same rfl⟩) fun _ => hCustodial.tryFinally h ?_
  exact hCustodial.bind (custodial_update fun _ => ⟨rfl, rfl, rfl, Loses.of_same rfl⟩) fun _ =>
    (sparing_polls.release lease).custodial

theorem custodial_calls : Calls config (Custodial config found) (Custodial config found) where
  toCompositional := custodial_compositional config found
  inside := custodial_compositional config found
  controlCheck := sparing_attends.controlCheck.custodial
  connect := custodial_connect false true
  check := custodial_checks.check
  hold := custodial_hold
  heldCheck := sparing_attends.controlCheck.custodial
  heldConnect := custodial_connect false true
  story := fun _ _ => (sparing_mark _).custodial
  session := fun _ _ _ _ => (sparing_attends.session _ _ _ (sparing_mark _)).custodial
  transfer := fun _ _ _ => (sparing_attends.runTransfer _ _ _).custodial

theorem custodial_serves : Dispatches config (Custodial config found) where
  toCalls := custodial_calls
  update := fun _ => custodial_update
  record := fun _ _ => custodial_record
  begin := custodial_wait fun _ hWait => by cases hWait
  settled := fun _ => custodial_wait fun _ hWait => by cases hWait
  wake := fun _ => custodial_wait fun _ hWait => by cases hWait
  never := sparing_attends.never.custodial
  fault := fun operation => (sparing_fileOp operation).custodial
  probe := sparing_attends.probe.custodial
  reconnects := custodial_connect
  stop := custodial_withLock ((guarded_compositional config found).bind guarded_stopMaster fun _ =>
    guarded_update fun _ => ⟨rfl, rfl, rfl, Loses.of_same rfl⟩)

end Walk

section Runs

theorem spares_apply {os after : Os} {move : Move} (hMove : move.isForeign = false)
    (h : move.apply config os = some after) : after.owner = os.owner ∧ ∀ master ∈ after.masters, master.alive = true →
      master ∈ os.masters := by
  cases move with
  | tick | masterBinds | leaseTaken | leaseFreed =>
      simp only [Move.apply, Option.ite_none_right_eq_some, Option.some.injEq] at h
      rw [← h.2]
      exact ⟨rfl, fun _ hMaster _ => hMaster⟩
  | masterExits pid =>
      cases h
      exact ⟨rfl, Loses.kill { os } pid⟩
  | lateSpawn | ownerChanges => cases hMove
  | _ =>
      cases h
      exact ⟨rfl, fun _ hMaster _ => hMaster⟩

theorem custody_sound (config : Config) (found : Os) :
    (custody config found).Sound (fun _ => True) fun move => Move.isForeign move = false where
  disturbs := by
    intro move world state hMove _ hInv hDisturb
    obtain ⟨os, hApply, rfl⟩ := Option.map_eq_some_iff.mp hDisturb
    obtain ⟨hOwner, hMasters⟩ := spares_apply hMove hApply
    have hSpares : Spares world.state { world.state with os } := ⟨rfl, hOwner, rfl, hMasters⟩
    exact ⟨fun hTrusty => (hInv hTrusty).spares hSpares, fun _ _ => hSpares⟩
  starts := by
    intro op world state _ _ hInv hAccept _
    have hSpares : Spares world.state state := by
      cases op with
      | job id =>
          simp only [gateway, Host.accept, Option.ite_none_right_eq_some, Option.some.injEq] at hAccept
          rw [← hAccept.2]
          exact ⟨rfl, rfl, rfl, Loses.of_same rfl⟩
      | _ =>
          cases hAccept
          exact Spares.refl _
    refine Extension.along_mono (custodial_serves.serve op op world.started { world with state, started := world.started + 1 } world
      ⟨fun hTrusty => (hInv hTrusty).spares hSpares, fun _ _ _ => hSpares⟩) fun _ _ _ hEnd => hEnd.1

/-- Every living master of the gateway's own is in its field or named by the receipt. -/
def InCustody (found : Os) (state : State) : Prop :=
  ∀ pid, Spawned found state.os pid →
    state.transport.master = some pid ∨ state.os.owner = some (ownerReceipt pid)

variable {choices : List (Choice (gateway config))} {final : Loop (gateway config)}

/-- No master is lost in a run in which no worker thread starts one after its
caller has gone, nobody else alters the receipt, the receipt can be written, and
a living master of the gateway's own is recognised. -/
theorem custody_of_run (hRun : gatewayRun config found choices = some final)
    (hMoves : ∀ move, .disturb move ∈ choices → Move.isForeign move = false)
    (hTrusty : Always (Trusty found) final.world.trace) : InCustody found final.world.state := by
  have hBoot : (custody config found).inv { state := State.boot found } := fun _ pid hSpawned => by
    obtain ⟨⟨master, hMaster, hPid, -⟩, hNew⟩ := hSpawned
    exact absurd hPid (hNew master hMaster)
  have hSafe := (custody_sound config found).run (sound config) (Inv.boot found) hBoot hRun (fun _ _ => trivial) hMoves
  exact fun pid hSpawned => Or.inr (hSafe.inv hTrusty pid hSpawned).2

theorem trusty_of_certain {history : History} (h : ∀ entry ∈ history, entry.event.isDoubt = false) :
    Always (Trusty found) history := by
  induction history with
  | nil => trivial
  | cons newest earlier ih =>
      refine ⟨?_, ih fun entry hEntry => h entry (List.mem_cons_of_mem _ hEntry)⟩
      have hNewest := h newest List.mem_cons_self
      unfold Trusty
      split
      · next hFault =>
          rw [hFault] at hNewest
          cases hNewest
      · next hDenied =>
          rw [hDenied] at hNewest
          cases hNewest
      · trivial

/-- A new master comes up. -/
def succession : List Sample := [.start (.reconnect true)] ++ resumes 0 5

theorem custody_succession : ∃ final, gatewayRun sample survivor succession = some final ∧
    final.world.state.isAlive 9 = true ∧ InCustody survivor final.world.state := by
  have hRun : (gatewayRun sample survivor succession).any (fun final =>
      final.world.state.isAlive 9 && final.world.trace.all fun entry => !entry.event.isDoubt) = true := by decide +kernel
  obtain ⟨final, hFinal, hBoth⟩ := (Option.any_eq_true _ _).mp hRun
  obtain ⟨hAlive, hCertain⟩ := Bool.and_eq_true_iff.mp hBoth
  refine ⟨final, hFinal, hAlive, custody_of_run hFinal (fun move hMove => ?_) (trusty_of_certain fun entry hEntry => ?_)⟩
  · simp [succession, resumes, resume] at hMove
  · simpa using List.all_eq_true.mp hCertain entry hEntry

/-- The caller is cancelled while a worker thread starts the master. -/
def stray : List Sample := [.start (.reconnect true)] ++ resumes 0 4 ++ [cancel 0, .disturb (.lateSpawn 9)]

theorem not_inCustody_stray : ∃ final, gatewayRun sample survivor stray = some final ∧
    ¬InCustody survivor final.world.state := by
  have hRun : (gatewayRun sample survivor stray).any (fun final =>
      final.world.state.os.masters.any (fun master => master.pid = 9 && master.alive) &&
        (final.world.state.transport.master.isNone && final.world.state.os.owner.isNone)) = true := by decide +kernel
  obtain ⟨final, hFinal, hAll⟩ := (Option.any_eq_true _ _).mp hRun
  obtain ⟨hAlive, hNeither⟩ := Bool.and_eq_true_iff.mp hAll
  obtain ⟨hMaster, hOwner⟩ := Bool.and_eq_true_iff.mp hNeither
  refine ⟨final, hFinal, fun hCustody => ?_⟩
  obtain ⟨master, hIn, hNine⟩ := List.any_eq_true.mp hAlive
  obtain ⟨hPid, hLives⟩ := Bool.and_eq_true_iff.mp hNine
  have hSpawned : Spawned survivor final.world.state.os 9 :=
    ⟨⟨master, hIn, of_decide_eq_true hPid, hLives⟩, fun old hOld => by
      rw [List.mem_singleton.mp hOld]
      decide⟩
  rcases hCustody 9 hSpawned with hField | hReceipt
  · rw [hField] at hMaster
    cases hMaster
  · rw [hReceipt] at hOwner
    cases hOwner

end Runs
end Supervision
end Pazuzu
