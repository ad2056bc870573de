import Pazuzu.Supervision.Harmless
import Pazuzu.Supervision.Runs

/-! Gateways that follow one another on a control path. A master outlives the
gateway that started it, and the next one adopts what answers on the path
without asking for whom it was started. -/
namespace Pazuzu

/-- Whether a master is connected here. -/
def Event.connects : Event → Bool
  | .masterConnected => true
  | _ => false

theorem Event.eq_of_connects {event : Event} (h : event.connects = true) : event = .masterConnected := by
  cases event <;> first | rfl | cases h

end Pazuzu

namespace Pazuzu.Supervision

open Asyncio

section Masters

/-- Every living master was started for this host. -/
def OwnMasters (host : String) (os : Os) : Prop :=
  ∀ master ∈ os.masters, master.alive = true → master.host = host

/-- The living master behind the control path, if any, was started for this
host. -/
def OwnConnection (host : String) (os : Os) : Prop :=
  ∀ master ∈ os.masters, os.controlSocket = some master.pid → master.alive = true → master.host = host

theorem OwnMasters.connection {host : String} {os : Os} (h : OwnMasters host os) :
    OwnConnection host os := fun master hMaster _ => h master hMaster

theorem OwnMasters.loses {host : String} {before after : State} (h : OwnMasters host before.os)
    (hLoses : Loses before after) : OwnMasters host after.os :=
  fun master hMaster hAlive => h master (hLoses master hMaster hAlive) hAlive

theorem OwnMasters.spawn {config : Config} {os after : Os} {pid : Nat}
    (h : OwnMasters config.settings.host os) (hSpawn : os.spawn config pid = some after) :
    OwnMasters config.settings.host after := by
  simp only [Os.spawn, Option.ite_none_right_eq_some, Option.some.injEq] at hSpawn
  rw [← hSpawn.2]
  intro master hMaster hAlive
  rcases List.mem_cons.mp hMaster with rfl | hOld
  · rfl
  · exact h master hOld hAlive

theorem OwnMasters.move {config : Config} {os after : Os} {move : Move}
    (h : OwnMasters config.settings.host os) (hMove : move.apply config os = some after) :
    OwnMasters config.settings.host after := by
  cases move with
  | tick | masterBinds | leaseTaken | leaseFreed =>
      simp only [Move.apply, Option.ite_none_right_eq_some, Option.some.injEq] at hMove
      rw [← hMove.2]
      exact h
  | masterExits pid =>
      cases hMove
      exact fun master hMaster hAlive => h master (Loses.kill { os } pid master hMaster hAlive) hAlive
  | lateSpawn pid =>
      simp only [Move.apply, Option.ite_none_right_eq_some] at hMove
      have hFewer : OwnMasters config.settings.host { os with pendingSpawns := os.pendingSpawns - 1 } := h
      exact hFewer.spawn hMove.2
  | _ =>
      cases hMove
      exact h

theorem OwnMasters.returns {config : Config} {task : Nat} {state after : State} {wait : Wait}
    {reply : wait.Reply} (h : OwnMasters config.settings.host state.os)
    (hReturns : Host.returns config task state wait reply = some after) :
    OwnMasters config.settings.host after.os := by
  rcases Host.returns_cases hReturns with rfl | ⟨argv, pid, os, -, hSpawn, rfl⟩
  · exact h
  · exact h.spawn hSpawn

theorem masters_cancel {op : Op} {state after : State} (h : Host.cancel op state = some after) :
    after.os = state.os := by
  cases op with
  | job id =>
      simp only [Host.cancel, Option.ite_none_right_eq_some, Option.some.injEq] at h
      rw [← h.2]
  | _ =>
      cases h
      rfl

theorem masters_abandon (wait : Wait) (state : State) :
    (Host.abandon wait state).os.masters = state.os.masters := by
  cases wait <;> rfl

theorem masters_accept {op : Op} {state after : State} (h : Host.accept op state = some after) :
    after.os = state.os := by
  cases op with
  | job id =>
      simp only [Host.accept, Option.ite_none_right_eq_some, Option.some.injEq] at h
      rw [← h.2]
  | _ =>
      cases h
      rfl

/-- A gateway never brings up a master for another host. -/
theorem preserves_ownMasters (config : Config) :
    (gateway config).Preserves Loses fun state => OwnMasters config.settings.host state.os where
  body := harmless_serve config
  step := fun _ _ hLoses h => h.loses hLoses
  accept := by
    intro op before after hAccept h
    rwa [masters_accept hAccept]
  deliver := by
    intro op task wait reply before after hDeliver h
    cases reply with
    | ok value => exact OwnMasters.returns h hDeliver
    | error error =>
        simp only [gateway, Host.deliver] at hDeliver
        split at hDeliver
        · cases hDeliver
          exact h
        · split at hDeliver
          · obtain ⟨middle, hCancel, rfl⟩ := Option.map_eq_some_iff.mp hDeliver
            refine h.loses (Loses.of_same ?_)
            rw [masters_abandon, masters_cancel hCancel]
          · cases hDeliver
  disturb := by
    intro move before after hDisturb h
    obtain ⟨os, hMove, rfl⟩ := Option.map_eq_some_iff.mp hDisturb
    exact h.move hMove

end Masters

section Lifetimes

/-- A world that some run of a gateway reaches. -/
def Reaches (config : Config) (found : Os) (world : GatewayWorld) : Prop :=
  ∃ (choices : List (Choice (gateway config))) (final : Loop (gateway config)),
    gatewayRun config found choices = some final ∧ final.world = world

/-- One gateway process, from what it finds to where its run ends. A run can
end anywhere: after `close`, after `detach`, or by a crash. -/
structure Lifetime where
  config : Config
  found : Os
  world : GatewayWorld
  run : Reaches config found world

namespace Lifetime

def host (lifetime : Lifetime) : String := lifetime.config.settings.host

def path (lifetime : Lifetime) : String := lifetime.config.settings.controlPath

def left (lifetime : Lifetime) : Os := lifetime.world.state.os

end Lifetime

/-- No master lives. -/
def Barren (os : Os) : Prop := ∀ master ∈ os.masters, master.alive = false

/-- Of the masters one gateway leaves, the next one finds those that are still
alive. Whatever else it finds is open. -/
def Outlive (left found : Os) : Prop :=
  ∀ master ∈ found.masters, master.alive = true → master ∈ left.masters

/-- Gateways on one control path, the latest first. -/
inductive Succession (path : String) : List Lifetime → Prop
  | first (lifetime : Lifetime) (hPath : lifetime.path = path) (hFound : Barren lifetime.found) :
      Succession path [lifetime]
  | next (earlier later : Lifetime) (rest : List Lifetime) (hEarlier : Succession path (earlier :: rest))
      (hPath : later.path = path) (hFound : Outlive earlier.left later.found) :
      Succession path (later :: earlier :: rest)

/-- The host changes only when no master is left alive. -/
def ChangesClean (lifetimes : List Lifetime) : Prop :=
  lifetimes.IsChain fun later earlier => later.host = earlier.host ∨ Barren later.found

theorem Barren.ownMasters {os : Os} (h : Barren os) (host : String) : OwnMasters host os := by
  intro master hMaster hAlive
  rw [h master hMaster] at hAlive
  cases hAlive

theorem Lifetime.throughout (lifetime : Lifetime) (h : OwnMasters lifetime.host lifetime.found) :
    lifetime.world.Throughout fun state : State => OwnMasters lifetime.host state.os := by
  obtain ⟨choices, final, hRun, hWorld⟩ := lifetime.run
  have hBoot : OwnMasters lifetime.config.settings.host (State.boot lifetime.found).os := h
  rw [← hWorld]
  exact (preserves_ownMasters lifetime.config).run hBoot hRun

/-- Each gateway finds and keeps masters for its own host only. -/
theorem Succession.ownMasters {path : String} {lifetimes : List Lifetime}
    (hSuccession : Succession path lifetimes) (hClean : ChangesClean lifetimes) :
    ∀ lifetime ∈ lifetimes, OwnMasters lifetime.host lifetime.found := by
  induction hSuccession with
  | first lifetime hPath hFound =>
      intro other hOther
      rw [List.mem_singleton.mp hOther]
      exact hFound.ownMasters _
  | next earlier later rest hEarlier hPath hFound ih =>
      obtain ⟨hChange, hRest⟩ := List.isChain_cons_cons.mp hClean
      have hOthers := ih hRest
      refine List.forall_mem_cons.mpr ⟨?_, hOthers⟩
      rcases hChange with hHost | hBarren
      · have hLeft := (earlier.throughout (hOthers earlier List.mem_cons_self)).1
        intro master hMaster hAlive
        rw [hHost]
        exact hLeft master (hFound master hMaster hAlive) hAlive
      · exact hBarren.ownMasters _

/-- Where the host changes only over a path without a living master, every
gateway of a succession uses connections to its own host only, whenever it
records anything. -/
theorem ownConnection_of_succession {path : String} {lifetimes : List Lifetime}
    (hSuccession : Succession path lifetimes) (hClean : ChangesClean lifetimes) :
    ∀ lifetime ∈ lifetimes, ∀ entry ∈ lifetime.world.trace,
      OwnConnection lifetime.host entry.state.os := by
  intro lifetime hLifetime entry hEntry
  have hFound := hSuccession.ownMasters hClean lifetime hLifetime
  exact ((lifetime.throughout hFound).2 entry hEntry).connection

/-- A lifetime replayed by evaluation. -/
def Lifetime.replay (config : Config) (found : Os) (choices : List (Choice (gateway config)))
    (h : (gatewayRun config found choices).isSome = true) : Lifetime where
  config := config
  found := found
  world := ((gatewayRun config found choices).get h).world
  run := ⟨choices, _, (Option.some_get h).symm, rfl⟩

def hosted (host : String) : Config := ⟨{ host, controlPath := "/c" }, 5⟩

/-- What a gateway for the host `b` leaves that starts a master, runs a command
and is stopped with its master preserved. -/
def preserved : Os := { controlSocket := some 9, masters := [⟨9, "b", true⟩] }

def founder : Lifetime :=
  .replay (hosted "b") {} ([.start (.execute "x" [] 100 false), .resume 0 (oblige 0 .ok),
    .disturb (.masterBinds 9), .disturb (.tick 1)] ++
      List.replicate 7 (.resume 0 (oblige 0 .ok)) ++ [.start .detach]) (by decide +kernel)

/-- A second gateway for the same host runs its command through that master. -/
def heir : Lifetime :=
  .replay (hosted "b") preserved (.start (.execute "x" [] 100 false) ::
    List.replicate 6 (.resume 0 (oblige 0 .ok))) (by decide +kernel)

/-- A second gateway for another host does so as well. -/
def usurper : Lifetime :=
  .replay (hosted "h") preserved (.start (.execute "x" [] 100 false) ::
    List.replicate 6 (.resume 0 (oblige 0 .ok))) (by decide +kernel)

theorem founder_left : founder.left.masters = preserved.masters := by decide +kernel

theorem succession_founder : Succession "/c" [founder] :=
  .first founder rfl fun _ hMaster => by cases hMaster

theorem succession_heir : Succession "/c" [heir, founder] :=
  .next founder heir [] succession_founder rfl fun _ hMaster _ => founder_left ▸ hMaster

theorem succession_usurper : Succession "/c" [usurper, founder] :=
  .next founder usurper [] succession_founder rfl fun _ hMaster _ => founder_left ▸ hMaster

theorem ownConnection_heir : ∃ entry ∈ heir.world.trace,
    entry.event = .masterConnected ∧ OwnConnection heir.host entry.state.os := by
  have hRun : (heir.world.trace.any fun entry => entry.event.connects) = true := by decide +kernel
  obtain ⟨entry, hEntry, hConnects⟩ := List.any_eq_true.mp hRun
  have hClean : ChangesClean [heir, founder] := List.isChain_cons_cons.mpr ⟨Or.inl rfl, .singleton founder⟩
  exact ⟨entry, hEntry, Event.eq_of_connects hConnects,
    ownConnection_of_succession succession_heir hClean heir List.mem_cons_self entry hEntry⟩

/-- The second gateway is connected by adopting the master of another host. -/
theorem adopted_foreign : ¬∀ (path : String) (lifetimes : List Lifetime), Succession path lifetimes →
    ∀ lifetime ∈ lifetimes, ∀ entry ∈ lifetime.world.trace, entry.event = .masterConnected →
      OwnConnection lifetime.host entry.state.os := by
  intro hClaim
  have hRun : (usurper.world.trace.any fun entry => entry.event.connects ∧
      entry.state.os.masters = preserved.masters ∧ entry.state.os.controlSocket = some 9) = true := by
    decide +kernel
  obtain ⟨entry, hEntry, hFound⟩ := List.any_eq_true.mp hRun
  obtain ⟨hConnects, hMasters, hSocket⟩ := of_decide_eq_true hFound
  have hMaster : (⟨9, "b", true⟩ : Master) ∈ entry.state.os.masters := by
    rw [hMasters]
    exact List.mem_cons_self
  have hHost := hClaim "/c" _ succession_usurper usurper List.mem_cons_self entry hEntry
    (Event.eq_of_connects hConnects) ⟨9, "b", true⟩ hMaster hSocket rfl
  exact absurd hHost (by decide)

end Lifetimes
end Pazuzu.Supervision
