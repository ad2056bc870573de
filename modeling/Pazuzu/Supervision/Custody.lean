import Pazuzu.Asyncio.Extension
import Pazuzu.Supervision.Receipt
import Pazuzu.Supervision.Runs
import Pazuzu.Supervision.Walk

/-! Who has a master in custody. Whatever starts and stops masters does so under
the repair lock, and at each of its waits the receipt names the one master of
the gateway's own that may be alive. -/
namespace Pazuzu.Supervision

open Asyncio Transport

/-- A living master that the gateway has spawned, as it is none of those it found. -/
def Spawned (found os : Os) (pid : Nat) : Prop :=
  (∃ master ∈ os.masters, master.pid = pid ∧ master.alive = true) ∧ ∀ old ∈ found.masters, old.pid ≠ pid

/-- The receipt can be written, and a living master of the gateway's own is
recognised. -/
def Trusty (found : Os) (entry : Record) (_ : History) : Prop :=
  match entry.event with
  | .fault .writeOwner => False
  | .masterRecognised pid false => ¬Spawned found entry.state.os pid
  | _ => True

/-- The receipt is that of every living master of the gateway's own. -/
def Receipted (found : Os) (state : State) : Prop :=
  ∀ pid, Spawned found state.os pid → pid ≠ 0 ∧ state.os.owner = some (ownerReceipt pid)

/-- The same from one world to a later one, whatever the field for the master says. -/
structure Calms (before after : GatewayWorld) : Prop where
  history : before.trace <:+ after.trace
  owner : after.state.os.owner = before.state.os.owner
  masters : Loses before.state after.state

/-- The task holds the repair lock. -/
def Tends (task : Nat) (w : GatewayWorld) : Prop := w.state.sup.repairLock.holder = some task

variable {found : Os} {pid : Nat} {before after : State}

theorem Spawned.loses (h : Spawned found after.os pid) (hLoses : Loses before after) : Spawned found before.os pid := by
  obtain ⟨⟨master, hMaster, hPid, hAlive⟩, hNew⟩ := h
  exact ⟨⟨master, hLoses master hMaster hAlive, hPid, hAlive⟩, hNew⟩

theorem Spawned.isAlive {state : State} (h : Spawned found state.os pid) : state.isAlive pid = true := by
  obtain ⟨⟨master, hMaster, hPid, hAlive⟩, -⟩ := h
  exact List.any_eq_true.mpr ⟨master, hMaster, by simp [hPid, hAlive]⟩

theorem Receipted.spares (h : Receipted found before) (hSpares : Spares before after) : Receipted found after :=
  fun pid hSpawned => by
    rw [hSpares.owner]
    exact h pid (hSpawned.loses hSpares.masters)

theorem Calms.refl (w : GatewayWorld) : Calms w w := ⟨List.suffix_refl _, rfl, Loses.refl _⟩

theorem Calms.trans {first second third : GatewayWorld} (h : Calms first second) (h' : Calms second third) :
    Calms first third :=
  ⟨h.history.trans h'.history, h'.owner.trans h.owner, h.masters.trans h'.masters⟩

/-- Whoever holds the repair lock can rely on all that the others spare. -/
def custody (config : Config) (found : Os) : Extension (discipline config) where
  inv := fun w => Always (Trusty found) w.trace → Receipted found w.state
  rely := fun task before after => before.state.sup.repairLock.holder = some task → Spares before.state after.state
  waits := fun _ _ _ _ => True
  refl := fun _ _ _ => Spares.refl _
  trans := fun _ _ _ _ h h' hHolds => (h hHolds).trans (h' ((h hHolds).holder.trans hHolds))
  stable := fun _ _ _ _ _ _ _ _ => trivial

abbrev Cwp (config : Config) (found : Os) (op : Op) (task : Nat) {α : Type} (code : Py α)
    (post : Except Error α → GatewayWorld → Prop) (w : GatewayWorld) : Prop :=
  (custody config found).wp op task code post w

variable {config : Config} {op : Op} {task : Nat} {α β : Type} {w : GatewayWorld} {event : Option Event} {state : State}

section Actions

theorem trusty_act (h : Always (Trusty found) (w.act task event state).trace) : Always (Trusty found) w.trace :=
  h.suffix suffix_act

theorem custody_spares (hOld : (custody config found).inv w) (h : Spares w.state state) :
    (custody config found).Act task w (w.act task event state) := by
  refine ⟨fun hTrusty => ?_, fun other _ _ => by rwa [World.act_state]⟩
  rw [World.act_state]
  exact (hOld (trusty_act hTrusty)).spares h

/-- Whoever holds the lock need only care for the receipt. -/
theorem custody_holder (hHolds : w.state.sup.repairLock.holder = some task)
    (hInv : Always (Trusty found) (w.act task event state).trace → Receipted found state) :
    (custody config found).Act task w (w.act task event state) := by
  refine ⟨fun hTrusty => ?_, fun other hOther hHolder => absurd (Option.some.inj (hHolder.symm.trans hHolds)) hOther⟩
  rw [World.act_state]
  exact hInv hTrusty

theorem calms_act (h : Spares w.state state) : Calms w (w.act task event state) :=
  ⟨suffix_act, by rw [World.act_state]; exact h.owner, by rw [World.act_state]; exact h.masters⟩

end Actions

section Rules

/-- Code that spares the master and its receipt. Where it holds the repair lock,
all others do so meanwhile. -/
def Sparing (config : Config) (found : Os) {α : Type} (code : Py α) : Prop :=
  ∀ op task w, Cwp config found op task code (fun _ v => Tends task w → Spares w.state v.state ∧ Calms w v) w

theorem sparing_compositional (config : Config) (found : Os) : Compositional (Sparing config found) where
  pure := fun _ _ _ _ => Extension.wp_pure fun _ => ⟨Spares.refl _, Calms.refl _⟩
  throw := fun _ _ _ _ => Extension.wp_throw fun _ => ⟨Spares.refl _, Calms.refl _⟩
  read := fun hNext op task w => Extension.wp_read (hNext task w.state op task w)
  bind := by
    intro α β code next hCode hNext op task w
    refine Extension.wp_bind (Extension.wp_mono (hCode op task w) ?_)
    rintro (error | value) v _ hV
    · exact hV
    · refine Extension.wp_mono (hNext value op task v) fun _ u _ hU hTends => ?_
      obtain ⟨hSpares, hCalms⟩ := hV hTends
      obtain ⟨hSpares', hCalms'⟩ := hU (hSpares.holder.trans hTends)
      exact ⟨hSpares.trans hSpares', hCalms.trans hCalms'⟩
  attempt := fun hCode op task w => Extension.wp_attempt (hCode op task w)

theorem sparing_record {event : Event} {f : State → State} (h : ∀ state, Spares state (f state)) :
    Sparing config found (Coro.record event f) := by
  intro op task w
  refine Extension.wp_act fun hOld _ => ⟨custody_spares hOld (h w.state), Extension.wp_pure fun _ => ?_⟩
  exact ⟨by rw [World.act_state]; exact h w.state, calms_act (h w.state)⟩

theorem sparing_update {f : State → State} (h : ∀ state, Spares state (f state)) :
    Sparing config found (Coro.update f) := by
  intro op task w
  refine Extension.wp_act fun hOld _ => ⟨custody_spares hOld (h w.state), Extension.wp_pure fun _ => ?_⟩
  exact ⟨h w.state, calms_act (h w.state)⟩

theorem sparing_mark (event : Event) : Sparing config found (Coro.mark event) := sparing_record Spares.refl

/-- A failed wait spares the master. -/
theorem spares_fails {wait : Wait} {error : Error}
    (h : Host.deliver config op task wait (.error error) before = some after) : Spares before after := by
  simp only [Host.deliver] at h
  split at h
  · cases h
    exact Spares.refl _
  · split at h
    · obtain ⟨middle, hCancel, rfl⟩ := Option.map_eq_some_iff.mp h
      have hMiddle : Spares before middle := by
        cases op with
        | job id =>
            simp only [Host.cancel, Option.ite_none_right_eq_some, Option.some.injEq] at hCancel
            rw [← hCancel.2]
            exact ⟨rfl, rfl, rfl, Loses.of_same rfl⟩
        | _ =>
            cases hCancel
            exact Spares.refl _
      cases wait <;> exact ⟨hMiddle.holder, hMiddle.owner, hMiddle.master, hMiddle.masters⟩
    · cases h

/-- So does any other answer, unless a master is waited for. -/
theorem spares_deliver {wait : Wait} {reply : Except Error wait.Reply} (hWait : ∀ argv, wait ≠ .spawnMaster argv)
    (h : Host.deliver config op task wait reply before = some after) : Spares before after := by
  cases reply with
  | error error => exact spares_fails h
  | ok value =>
      rcases Host.returns_cases h with rfl | ⟨argv, pid, os, rfl, -, -⟩
      · exact Spares.refl _
      · exact absurd rfl (hWait argv)

theorem sparing_wait {wait : Wait} (hWait : ∀ argv, wait ≠ .spawnMaster argv) :
    Sparing config found (Pazuzu.wait wait) := by
  intro op task w
  refine Extension.wp_suspend fun _ => ⟨trivial, ?_⟩
  intro later reply state _ hOld hRely hSpares hDeliver _
  have hState := spares_deliver hWait hDeliver
  refine ⟨custody_spares hOld hState, fun hTends => ?_⟩
  have hLater := hSpares hTends
  refine ⟨?_, Calms.trans ⟨hRely.grows.history, hLater.owner, hLater.masters⟩ (calms_act hState)⟩
  change Spares w.state (later.act task (Host.note op wait reply) state).state
  rw [World.act_state]
  exact hLater.trans hState

theorem sparing_fileOp (operation : FileOp) : Sparing config found (fileOp operation) := by
  refine (sparing_compositional config found).get fun state => ?_
  split
  · exact (sparing_compositional config found).pure ()
  · exact (sparing_compositional config found).bind (sparing_mark _) fun _ => (sparing_compositional config found).throw _

theorem sparing_polls : Polls (Sparing config found) where
  toCompositional := sparing_compositional config found
  mark := fun _ _ _ => sparing_mark _
  launch := fun _ => sparing_wait fun _ hWait => by cases hWait
  process := fun _ _ _ _ => sparing_wait fun _ hWait => by cases hWait
  fault := sparing_fileOp
  sleep := fun _ _ => (sparing_compositional config found).get fun _ => sparing_wait fun _ hWait => by cases hWait
  never := (sparing_compositional config found).bind (sparing_wait fun _ hWait => by cases hWait) fun impossible =>
    nomatch impossible
  take := fun _ _ => sparing_record fun _ => ⟨rfl, rfl, rfl, Loses.of_same rfl⟩
  release := fun _ => sparing_record fun _ => ⟨rfl, rfl, rfl, Loses.of_same rfl⟩

theorem sparing_attends : Attends config (Sparing config found) :=
  sparing_polls.attends fun _ => sparing_wait fun _ hWait => by cases hWait

end Rules

section Tending

variable {post : Except Error β → GatewayWorld → Prop}

theorem cwp_seq {code : Py α} {next : α → Py β} (hCode : Sparing config found code) (hTends : Tends task w)
    (hNext : ∀ value v, Tends task v → Spares w.state v.state → Calms w v → Cwp config found op task (next value) post v)
    (hError : ∀ error v, Tends task v → Spares w.state v.state → Calms w v → post (.error error) v) :
    Cwp config found op task (code.bind next) post w := by
  refine Extension.wp_bind (Extension.wp_mono (hCode op task w) ?_)
  rintro (error | value) v _ hV
  · obtain ⟨hSpares, hCalms⟩ := hV hTends
    exact hError error v (hSpares.holder.trans hTends) hSpares hCalms
  · obtain ⟨hSpares, hCalms⟩ := hV hTends
    exact hNext value v (hSpares.holder.trans hTends) hSpares hCalms

/-- A change of the receipt or of the field for the master, under the lock. -/
theorem cwp_change {f : State → State} {post : Except Error Unit → GatewayWorld → Prop} (hTends : Tends task w)
    (hInv : (custody config found).inv w → Always (Trusty found) w.trace → Receipted found (f w.state))
    (hPost : post (.ok ()) (w.act task none (f w.state))) : Cwp config found op task (Coro.update f) post w :=
  Extension.wp_act fun hOld _ => ⟨custody_holder hTends fun hTrusty => hInv hOld (trusty_act hTrusty),
    Extension.wp_pure hPost⟩

/-- No master of the gateway's own is alive. -/
def Bare (found : Os) (w : GatewayWorld) : Prop :=
  Always (Trusty found) w.trace → ∀ pid, ¬Spawned found w.state.os pid

/-- At most this one is. -/
def Only (found : Os) (pid : Nat) (w : GatewayWorld) : Prop :=
  Always (Trusty found) w.trace → ∀ other, Spawned found w.state.os other → other = pid

theorem Bare.calms {v : GatewayWorld} (h : Bare found w) (hCalms : Calms w v) : Bare found v :=
  fun hTrusty pid hSpawned => h (hTrusty.suffix hCalms.history) pid (hSpawned.loses hCalms.masters)

theorem Only.calms {v : GatewayWorld} (h : Only found pid w) (hCalms : Calms w v) : Only found pid v :=
  fun hTrusty other hSpawned => h (hTrusty.suffix hCalms.history) other (hSpawned.loses hCalms.masters)

theorem Only.bare (h : Only found pid w) (hDead : w.state.isAlive pid = false) : Bare found w := by
  intro hTrusty other hSpawned
  obtain rfl := h hTrusty other hSpawned
  rw [hSpawned.isAlive] at hDead
  cases hDead

theorem isAlive_kill (state : State) (pid : Nat) :
    State.isAlive { state with os := Os.kill state.os pid } pid = false := by
  refine List.any_eq_false.mpr fun master hMaster => ?_
  obtain ⟨old, -, rfl⟩ := List.mem_map.mp hMaster
  split
  · simp
  · next hPid => simp [hPid]

/-- Whatever fails, the lock is still held. -/
def Unless (task : Nat) (good : α → GatewayWorld → Prop) : Except Error α → GatewayWorld → Prop
  | .ok value, v => Tends task v ∧ good value v
  | .error _, v => Tends task v

theorem cwp_kill (hTends : Tends task w) :
    Cwp config found op task (kill pid) (Unless task fun _ v => Calms w v ∧ v.state.isAlive pid = false) w := by
  refine cwp_seq (sparing_fileOp _) hTends (fun _ v hV _ hCalms => ?_) fun _ _ hV _ _ => hV
  have hLoses := Loses.kill v.state pid
  refine cwp_change hV (fun hOld hTrusty => (hOld hTrusty).spares ⟨rfl, rfl, rfl, hLoses⟩) ⟨hV, ?_, isAlive_kill v.state pid⟩
  exact hCalms.trans ⟨List.suffix_refl _, rfl, hLoses⟩

/-- The master of the field is dead afterwards. -/
theorem cwp_stopOwned (hTends : Tends task w) :
    Cwp config found op task stopOwnedMaster (Unless task fun _ v => Calms w v ∧
      ∀ pid, w.state.transport.master = some pid → v.state.isAlive pid = false) w := by
  refine Extension.wp_get_bind (Extension.wp_bind (cwp_change hTends (fun hOld hTrusty => hOld hTrusty) ?_))
  have hStart : Calms w (w.act task none { w.state with transport := { w.state.transport with master := none } }) :=
    ⟨List.suffix_refl _, rfl, Loses.of_same rfl⟩
  have hHere : Tends task (w.act task none { w.state with transport := { w.state.transport with master := none } }) := hTends
  cases hMaster : w.state.transport.master with
  | none => exact Extension.wp_pure ⟨hHere, hStart, fun pid hPid => by cases hPid⟩
  | some pid =>
      refine cwp_seq (sparing_attends.awaitExit pid 20) hHere (fun _ v hV _ hCalms => Extension.wp_get_bind ?_)
        fun _ _ hV _ _ => hV
      have hTerminate : Sparing config found (terminate.bind fun _ => awaitExit pid 20) :=
        (sparing_compositional config found).bind (sparing_fileOp _) fun _ => sparing_attends.awaitExit pid 20
      refine cwp_seq ((sparing_compositional config found).when hTerminate) hV
        (fun _ u hU _ hCalms' => Extension.wp_get_bind (Extension.wp_when (fun _ => ?_) fun hDead => ?_)) fun _ _ hU _ _ => hU
      · refine Extension.wp_mono (cwp_kill hU) ?_
        rintro (error | value) x _ hX
        · exact hX
        · refine ⟨hX.1, hStart.trans (hCalms.trans (hCalms'.trans hX.2.1)), fun other hOther => ?_⟩
          obtain rfl := Option.some.inj hOther
          exact hX.2.2
      · refine ⟨hU, hStart.trans (hCalms.trans hCalms'), fun other hOther => ?_⟩
        obtain rfl := Option.some.inj hOther
        exact Bool.eq_false_iff.mpr hDead

/-- What the recorded process is recognised as tells whether a master of the
gateway's own is left. -/
theorem cwp_recognise (hTends : Tends task w) (hOnly : Only found pid w) :
    Cwp config found op task (isRecordedMaster pid) (Unless task fun recognised v =>
      Only found pid v ∧ (recognised = false → Bare found v)) w := by
  refine cwp_seq (sparing_wait fun _ hWait => by cases hWait) hTends (fun recognised v hV _ hCalms => ?_) fun _ _ hV _ _ => hV
  refine Extension.wp_bind (Extension.wp_act fun hOld _ => ⟨custody_spares hOld (Spares.refl _), Extension.wp_pure
    (Extension.wp_pure ⟨hV, (hOnly.calms hCalms).calms (calms_act (Spares.refl _)), ?_⟩)⟩)
  rintro rfl hTrusty other hSpawned
  obtain rfl := (hOnly.calms hCalms) hTrusty.2 other hSpawned
  exact hTrusty.1 hSpawned

theorem cwp_awaitRecorded (rounds : Nat) (hTends : Tends task w) (hOnly : Only found pid w) :
    Cwp config found op task (awaitRecorded pid rounds) (Unless task fun recognised v =>
      Only found pid v ∧ (recognised = false → Bare found v)) w := by
  induction rounds generalizing w with
  | zero => exact Extension.wp_pure ⟨hTends, hOnly, fun hFalse => by cases hFalse⟩
  | succ rounds ih =>
      refine Extension.wp_bind (Extension.wp_mono (cwp_recognise hTends hOnly) ?_)
      rintro (error | recognised) v _ hV
      · exact hV
      · obtain ⟨hHere, hStill, hBare⟩ := hV
        cases recognised with
        | true =>
            exact cwp_seq (sparing_attends.sleep _) hHere (fun _ u hU _ hCalms => ih hU (hStill.calms hCalms))
              fun _ _ hU _ _ => hU
        | false => exact Extension.wp_pure ⟨hHere, hStill, hBare⟩

/-- Where the receipt can be read, none of the gateway's own masters is left. -/
theorem cwp_stopRecorded (hTends : Tends task w) :
    Cwp config found op task stopRecordedMaster (Unless task fun _ v => Bare found v) w := by
  refine Extension.wp_inv fun hInv => Extension.wp_get_bind ?_
  have hReads : ∀ other, Always (Trusty found) w.trace → Spawned found w.state.os other →
      readMasterOwner w.state.os.owner = .ok (some other) ∨ ∃ error, readMasterOwner w.state.os.owner = .error error := by
    intro other hTrusty hSpawned
    obtain ⟨hPid, hOwner⟩ := hInv hTrusty other hSpawned
    rw [hOwner]
    exact readMasterOwner_receipt hPid
  split
  · exact cwp_seq (sparing_mark _) hTends (fun _ _ hV _ _ => Extension.wp_raise hV) fun _ _ hV _ _ => hV
  · next hNone =>
      refine Extension.wp_pure ⟨hTends, fun hTrusty other hSpawned => ?_⟩
      rcases hReads other hTrusty hSpawned with hRead | ⟨error, hRead⟩ <;> (rw [hNone] at hRead; cases hRead)
  · next pid hSome =>
      have hOnly : Only found pid w := by
        intro hTrusty other hSpawned
        rcases hReads other hTrusty hSpawned with hRead | ⟨error, hRead⟩
        · rw [hSome] at hRead
          cases hRead
          rfl
        · rw [hSome] at hRead
          cases hRead
      refine Extension.wp_bind (Extension.wp_mono (cwp_recognise hTends hOnly) ?_)
      rintro (error | recognised) v _ hV
      · exact hV
      · obtain ⟨hHere, hStill, hBare⟩ := hV
        cases recognised with
        | false => exact Extension.wp_pure ⟨hHere, hBare rfl⟩
        | true =>
            refine cwp_seq (sparing_fileOp _) hHere (fun _ u hU _ hCalms => ?_) fun _ _ hU _ _ => hU
            refine Extension.wp_bind (Extension.wp_mono (cwp_awaitRecorded 20 hU (hStill.calms hCalms)) ?_)
            rintro (error | recognised) x _ hX
            · exact hX
            · obtain ⟨hThere, hLast, hGone⟩ := hX
              cases recognised with
              | false => exact Extension.wp_pure ⟨hThere, hGone rfl⟩
              | true =>
                  refine Extension.wp_mono (cwp_kill hThere) ?_
                  rintro (error | value) y _ hY
                  · exact hY
                  · exact ⟨hY.1, (hLast.calms hY.2.1).bare hY.2.2⟩

/-- The receipt goes when it is nobody's. -/
theorem cwp_release (hTends : Tends task w) (hBare : Bare found w) :
    Cwp config found op task releaseMasterState (Unless task fun _ v => Bare found v) w := by
  refine cwp_seq (sparing_update fun _ => ⟨rfl, rfl, rfl, Loses.of_same rfl⟩) hTends (fun _ v hV _ hCalms => ?_)
    fun _ _ hV _ _ => hV
  refine cwp_seq (sparing_fileOp _) hV (fun _ u hU _ hCalms' => ?_) fun _ _ hU _ _ => hU
  refine cwp_seq (sparing_update fun _ => ⟨rfl, rfl, rfl, Loses.of_same rfl⟩) hU (fun _ x hX _ hCalms'' => ?_)
    fun _ _ hX _ _ => hX
  refine cwp_seq (sparing_fileOp _) hX (fun _ y hY _ hLast => ?_) fun _ _ hY _ _ => hY
  have hHere : Bare found y := hBare.calms (hCalms.trans (hCalms'.trans (hCalms''.trans hLast)))
  exact cwp_change hY (fun _ hTrusty pid hSpawned => absurd hSpawned (hHere hTrusty pid)) ⟨hY, hHere⟩

/-- A stop that succeeds leaves none of the gateway's own masters. -/
theorem cwp_stopMaster (hTends : Tends task w) :
    Cwp config found op task (stopMaster config) (Unless task fun _ v => Bare found v) w := by
  refine cwp_seq (sparing_mark _) hTends (fun _ v hV _ _ => ?_) fun _ _ hV _ _ => hV
  refine cwp_seq sparing_attends.controlCheck hV (fun up u hU _ _ => ?_) fun _ _ hU _ _ => hU
  have hSparing := sparing_compositional config found
  refine cwp_seq (hSparing.when (hSparing.bind (sparing_attends.controlCommand _) fun _ => hSparing.pure ())) hU
    (fun _ x hX _ _ => ?_) fun _ _ hX _ _ => hX
  refine Extension.wp_bind (Extension.wp_mono (cwp_stopOwned hX) ?_)
  rintro (error | value) y _ hY
  · exact hY
  · refine Extension.wp_bind (Extension.wp_mono (cwp_stopRecorded hY.1) ?_)
    rintro (error | value) z _ hZ
    · exact hZ
    · exact cwp_release hZ.1 hZ.2

/-- The code fails, with the lock still held. -/
def Fails (task : Nat) : Except Error α → GatewayWorld → Prop
  | .ok _, _ => False
  | .error _, v => Tends task v

/-- What a failed start does before it passes the failure on. -/
theorem cwp_undo (error : Error) (hTends : Tends task w)
    (hDead : ∀ v, Calms w v → (∀ pid, w.state.transport.master = some pid → v.state.isAlive pid = false) → Bare found v) :
    Cwp config found op task
      (stopOwnedMaster.bind fun _ => releaseMasterState.bind fun _ => (Coro.raise error : Py α)) (Fails task) w := by
  refine Extension.wp_bind (Extension.wp_mono (cwp_stopOwned hTends) ?_)
  rintro (error | value) v _ hV
  · exact hV
  · obtain ⟨hHere, hCalms, hGone⟩ := hV
    refine Extension.wp_bind (Extension.wp_mono (cwp_release hHere (hDead v hCalms hGone)) ?_)
    rintro (error | value) u _ hU
    · exact hU
    · exact Extension.wp_raise hU.1

theorem spawned_cons {os : Os} {host : String} {other : Nat}
    (h : Spawned found { os with masters := ⟨pid, host, true⟩ :: os.masters } other) :
    other = pid ∨ Spawned found os other := by
  obtain ⟨⟨master, hMaster, hPid, hAlive⟩, hNew⟩ := h
  rcases List.mem_cons.mp hMaster with rfl | hOld
  · exact Or.inl hPid.symm
  · exact Or.inr ⟨⟨master, hOld, hPid, hAlive⟩, hNew⟩

/-- A master that has come up is waited for, and stopped again if it is not ready. -/
theorem cwp_ready (hTends : Tends task w) (hOnly : Only found pid w) (hMaster : w.state.transport.master = some pid) :
    Cwp config found op task ((waitUntilReady config).tryCatch fun error => do
      stopOwnedMaster
      releaseMasterState
      Coro.raise error) (fun _ v => Tends task v) w := by
  refine Extension.wp_tryCatch (Extension.wp_mono (sparing_attends.waitUntilReady op task w) ?_)
  rintro (error | value) v _ hV
  · obtain ⟨hSpares, hCalms⟩ := hV hTends
    refine Extension.wp_mono (cwp_undo error (hSpares.holder.trans hTends) fun u hCalms' hDead => ?_) ?_
    · exact ((hOnly.calms hCalms).calms hCalms').bare (hDead pid (hSpares.master.trans hMaster))
    · rintro (error | value) u _ hU
      · exact hU
      · exact hU.elim
  · exact (hV hTends).1.holder.trans hTends

/-- Between a new master and its receipt, only the writing of the receipt can fail. -/
theorem cwp_spawn (hTends : Tends task w) (hBare : Bare found w) :
    Cwp config found op task ((wait (.spawnMaster (masterArgv config))).tryCatch (fun
      | .osError message => do
          releaseMasterState
          Coro.raise (.connectionUnavailable ("could not launch OpenSSH master: " ++ message))
      | error => Coro.raise error) >>= fun (pid : Nat) => do
        Coro.update fun state => { state with transport := { state.transport with master := some pid } }
        (writeMasterOwner pid).tryCatch fun
          | .osError message => do
              stopOwnedMaster
              releaseMasterState
              Coro.raise (.connectionUnavailable ("could not persist OpenSSH master ownership: " ++ message))
          | error => Coro.raise error
        (waitUntilReady config).tryCatch fun error => do
          stopOwnedMaster
          releaseMasterState
          Coro.raise error) (fun _ v => Tends task v) w := by
  intro start hStart
  refine Extension.along_bind (Extension.along_tryCatch (Extension.along_suspend hStart trivial ?_))
  intro later reply state _ hOld hRely hSpares hDeliver _
  have hLater := hSpares hTends
  have hHere : Tends task later := hLater.holder.trans hTends
  have hNone : Bare found later := hBare.calms ⟨hRely.grows.history, hLater.owner, hLater.masters⟩
  cases reply with
  | error error =>
      have hFails : Host.deliver config op task (.spawnMaster (masterArgv config)) (.error error) later.state =
          some state := hDeliver
      have hState := spares_fails hFails
      have hAct : (custody config found).Act task later
          (later.act task (Host.note op (.spawnMaster (masterArgv config)) (.error error)) state) := custody_spares hOld hState
      have hThere : Tends task (later.act task (Host.note op (.spawnMaster (masterArgv config)) (.error error)) state) :=
        hState.holder.trans hHere
      cases error with
      | osError message =>
          refine Extension.along_mono ((Extension.wp_bind (Extension.wp_mono
            (cwp_release hThere (hNone.calms (calms_act hState))) ?_) : Cwp config found op task _ (Fails task) _) later hAct) ?_
          · rintro (error | value) v _ hV
            · exact hV
            · exact Extension.wp_raise hV.1
          · rintro (error | value) s v ⟨hEnd, hV⟩
            · exact ⟨hEnd, hV⟩
            · exact hV.elim
      | _ => exact ⟨hAct, hThere⟩
  | ok pid =>
      simp only [gateway, Host.deliver, Host.returns, Option.ite_none_right_eq_some] at hDeliver
      obtain ⟨os, hSpawn, rfl⟩ := Option.map_eq_some_iff.mp hDeliver.2
      simp only [Os.spawn, Option.ite_none_right_eq_some, Option.some.injEq] at hSpawn
      obtain ⟨⟨hPid, -⟩, rfl⟩ := hSpawn
      refine Extension.along_bind (Extension.along_update fun _ => ?_)
      refine Extension.along_bind (Extension.along_tryCatch (Extension.along_bind (Extension.along_get_bind ?_)))
      have hOthers : ∀ other, other ≠ task → ¬later.state.sup.repairLock.holder = some other := fun other hOther hHolder =>
        hOther (Option.some.inj (hHolder.symm.trans hHere))
      have hOnly : Always (Trusty found) later.trace → ∀ other, Spawned found
          { later.state.os with masters := ⟨pid, config.settings.host, true⟩ :: later.state.os.masters } other →
          other = pid := fun hTrusty other hSpawned =>
        (spawned_cons hSpawned).resolve_right (hNone hTrusty other)
      split
      · intro _
        let written : GatewayWorld := later.act task none { later.state with
          os := { later.state.os with
            masters := ⟨pid, config.settings.host, true⟩ :: later.state.os.masters
            owner := some (ownerReceipt pid) }
          transport := { later.state.transport with master := some pid } }
        have hAct : (custody config found).Act task later written := by
          refine ⟨fun hTrusty other hSpawned => ?_, fun other hOther hHolder => absurd hHolder (hOthers other hOther)⟩
          obtain rfl := hOnly hTrusty other hSpawned
          exact ⟨hPid, rfl⟩
        exact @cwp_ready found pid config op task written hHere hOnly rfl later hAct
      · next message hFault =>
          intro _
          let failed : GatewayWorld := later.act task (some (.fault .writeOwner)) { later.state with
            os := { later.state.os with masters := ⟨pid, config.settings.host, true⟩ :: later.state.os.masters }
            transport := { later.state.transport with master := some pid } }
          have hVoid : ¬Always (Trusty found) failed.trace := fun hTrusty => hTrusty.1
          have hAct : (custody config found).Act task later failed :=
            ⟨fun hTrusty => absurd hTrusty hVoid, fun other hOther hHolder => absurd hHolder (hOthers other hOther)⟩
          have hUndo := @cwp_undo found config op task Unit failed
            (.connectionUnavailable ("could not persist OpenSSH master ownership: " ++ message)) hHere
            (fun v hCalms _ hTrusty => absurd (hTrusty.suffix hCalms.history) hVoid) later hAct
          change (custody config found).along op task (stopOwnedMaster.bind fun _ => releaseMasterState.bind fun _ =>
            (Coro.raise (.connectionUnavailable ("could not persist OpenSSH master ownership: " ++ message)) : Py Unit))
            _ later failed
          refine Extension.along_mono hUndo ?_
          rintro (error | value) s v ⟨hEnd, hV⟩
          · exact ⟨hEnd, hV⟩
          · exact hV.elim

theorem cwp_startMaster (hTends : Tends task w) (hBare : Bare found w) :
    Cwp config found op task (startMaster config) (fun _ v => Tends task v) w := by
  refine cwp_seq (sparing_mark _) hTends (fun _ v1 h1 _ c1 => ?_) fun _ _ hV _ _ => hV
  refine cwp_seq (sparing_fileOp _) h1 (fun _ v2 h2 _ c2 => ?_) fun _ _ hV _ _ => hV
  refine cwp_seq (sparing_fileOp _) h2 (fun _ v3 h3 _ c3 => ?_) fun _ _ hV _ _ => hV
  refine cwp_seq (sparing_update fun _ => ⟨rfl, rfl, rfl, Loses.of_same rfl⟩) h3 (fun _ v4 h4 _ c4 => ?_)
    fun _ _ hV _ _ => hV
  refine cwp_seq (sparing_update fun _ => ⟨rfl, rfl, rfl, Loses.of_same rfl⟩) h4 (fun _ v5 h5 _ c5 => ?_)
    fun _ _ hV _ _ => hV
  refine cwp_seq (sparing_fileOp _) h5 (fun _ v6 h6 _ c6 => ?_) fun _ _ hV _ _ => hV
  refine cwp_seq (sparing_update fun _ => ⟨rfl, rfl, rfl, Loses.of_same rfl⟩) h6 (fun _ v7 h7 _ c7 => ?_)
    fun _ _ hV _ _ => hV
  have hCalms : Calms w v7 := c1.trans (c2.trans (c3.trans (c4.trans (c5.trans (c6.trans c7)))))
  exact cwp_spawn h7 (hBare.calms hCalms)

open Supervisor

/-- Masters are started only where none is left. -/
theorem cwp_startAttempts (attempt : Nat) (detail : String) (remaining : Nat) (hTends : Tends task w) (hBare : Bare found w) :
    Cwp config found op task (startAttempts config attempt detail remaining) (fun _ v => Tends task v) w := by
  induction remaining generalizing attempt detail w with
  | zero => exact Extension.wp_pure hTends
  | succ remaining ih =>
      have hRetry : ∀ message v, Tends task v → Cwp config found op task ((stopMaster config).bind fun _ =>
          if classifyConnectionFailure message = .authenticationRequired then
            (.pure (some message) : Py (Option String))
          else (Coro.when (remaining ≠ 0) (sleep (min 2 (1 / 2 * 2 ^ attempt)))).bind fun _ =>
            Supervisor.startAttempts config (attempt + 1) message remaining) (fun _ u => Tends task u) v := by
        intro message v hV
        refine Extension.wp_bind (Extension.wp_mono (cwp_stopMaster hV) ?_)
        rintro (error | value) u _ hU
        · exact hU
        · exact Extension.wp_ite (fun _ => Extension.wp_pure hU.1) fun _ =>
            cwp_seq ((sparing_compositional config found).when (sparing_attends.sleep _)) hU.1
              (fun _ x hX _ hCalms => ih (attempt + 1) message hX (hU.2.calms hCalms)) fun _ _ hX _ _ => hX
      refine Extension.wp_bind (Extension.wp_attempt (Extension.wp_mono (cwp_startMaster hTends hBare) ?_))
      rintro (error | value) v _ hV
      · cases error with
        | connectionUnavailable message => exact hRetry message v hV
        | commandTimedOut message => exact hRetry message v hV
        | _ => exact Extension.wp_raise hV
      · exact cwp_seq (sparing_record fun _ => ⟨rfl, rfl, rfl, Loses.of_same rfl⟩) hV
          (fun _ _ hU _ _ => Extension.wp_pure hU) fun _ _ hU _ _ => hU

/-- Code that holds the repair lock throughout. -/
def Guarded (config : Config) (found : Os) {α : Type} (code : Py α) : Prop :=
  ∀ op task w, Tends task w → Cwp config found op task code (fun _ v => Tends task v) w

theorem Sparing.guarded {code : Py α} (h : Sparing config found code) : Guarded config found code :=
  fun op task w hTends => Extension.wp_mono (h op task w) fun _ _ _ hV => (hV hTends).1.holder.trans hTends

theorem guarded_record {event : Event} {f : State → State} (h : ∀ state, Spares state (f state)) :
    Guarded config found (Coro.record event f) := (sparing_record h).guarded

theorem guarded_update {f : State → State} (h : ∀ state, Spares state (f state)) :
    Guarded config found (Coro.update f) := (sparing_update h).guarded

theorem guarded_compositional (config : Config) (found : Os) : Compositional (Guarded config found) where
  pure := fun _ _ _ _ h => Extension.wp_pure h
  throw := fun _ _ _ _ h => Extension.wp_throw h
  read := fun hNext op task w h => Extension.wp_read (hNext task w.state op task w h)
  bind := by
    intro α β code next hCode hNext op task w h
    refine Extension.wp_bind (Extension.wp_mono (hCode op task w h) ?_)
    rintro (error | value) v _ hV
    · exact hV
    · exact hNext value op task v hV
  attempt := fun hCode op task w h => Extension.wp_attempt (hCode op task w h)

theorem guarded_stopMaster : Guarded config found (stopMaster config) := by
  refine fun op task w hTends => Extension.wp_mono (cwp_stopMaster hTends) ?_
  rintro (error | value) v _ hV
  · exact hV
  · exact hV.1

theorem guarded_repair : Guarded config found (repair config) := by
  have hGuarded := guarded_compositional config found
  intro op task w hTends
  refine cwp_seq (sparing_record fun _ => ⟨rfl, rfl, rfl, Loses.of_same rfl⟩) hTends (fun _ v hV _ _ => ?_) fun _ _ hV _ _ => hV
  refine Extension.wp_bind (Extension.wp_mono (cwp_stopMaster hV) ?_)
  rintro (error | value) u _ hU
  · exact hU
  refine Extension.wp_bind (Extension.wp_mono (cwp_startAttempts 0 _ _ hU.1 hU.2) ?_)
  rintro (error | detail) x _ hX
  · exact hX
  cases detail with
  | none => exact Extension.wp_pure hX
  | some detail =>
      have hRecord : Guarded config found (recordFailure detail) := by
        refine hGuarded.get fun state => ?_
        split
        · exact guarded_record fun _ => ⟨rfl, rfl, rfl, Loses.of_same rfl⟩
        · exact hGuarded.bind (guarded_record fun _ => ⟨rfl, rfl, rfl, Loses.of_same rfl⟩) fun _ => hGuarded.throw _
      exact (hGuarded.bind hRecord fun _ => raiseUnavailable hGuarded) op task x hX

theorem guarded_attends : Attends config (Guarded config found) where
  toCompositional := guarded_compositional config found
  mark := fun _ _ _ => (sparing_mark _).guarded
  launch := fun argv => (sparing_polls.launch argv).guarded
  process := fun argv stdin deadline limit => (sparing_polls.process argv stdin deadline limit).guarded
  sleep := fun seconds => (sparing_attends.sleep seconds).guarded
  never := sparing_attends.never.guarded
  recorded := fun pid => (sparing_attends.recorded pid).guarded
  probe := sparing_attends.probe.guarded

theorem guarded_repairs : Repairs config (Guarded config found) where
  toAttends := guarded_attends
  enter := fun _ _ _ _ hBooked => (sparing_record fun state => ⟨congrArg Lock.holder (hBooked state).lock,
    congrArg Os.owner (hBooked state).os, congrArg Transport.master (hBooked state).transport,
    Loses.of_same (congrArg Os.masters (hBooked state).os)⟩).guarded
  replace := by
    have hGuarded := guarded_compositional config found
    refine hGuarded.tryCatch guarded_repair fun error => ?_
    cases error with
    | connectionUnavailable message => exact hGuarded.throw _
    | _ => exact hGuarded.bind (sparing_mark _).guarded fun _ => hGuarded.throw _

end Tending

end Pazuzu.Supervision
