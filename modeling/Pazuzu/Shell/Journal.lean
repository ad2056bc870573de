import Pazuzu.Shell

/-! The law of a shell's journal: what must have happened before each entry. -/
namespace Pazuzu.Shell

open Asyncio Python

section Readings

def Happening.exitCode : Happening → Option Int
  | .exited code => some code
  | _ => none

def Happening.health : Happening → Option Health
  | .observed health => some health
  | _ => none

def Happening.report : Happening → Option Text
  | .reported state _ => some state
  | _ => none

def Happening.isReconnect : Happening → Bool
  | .called .reconnect => true
  | _ => false

def Happening.isSpawn : Happening → Bool
  | .spawned _ => true
  | _ => false

/-- What has happened since the last spawn began. -/
def sinceSpawn (journal : List Happening) : List Happening :=
  journal.takeWhile fun happening => !happening.isSpawn

/-- The exit code of the last spawn; none while it runs, and none if it raised. -/
def lastExit (journal : List Happening) : Option Int := (sinceSpawn journal).findSome? Happening.exitCode

/-- The health that was observed last. -/
def lastHealth (journal : List Happening) : Option Health := journal.findSome? Happening.health

def lastReported (journal : List Happening) : Option Text := journal.findSome? Happening.report

/-- What has happened since the last spawn ended. -/
def sinceExit (journal : List Happening) : List Happening :=
  (sinceSpawn journal).takeWhile fun happening => happening.exitCode.isNone

/-- The reconnects asked for since the last spawn began. -/
def reconnects (journal : List Happening) : Nat := (sinceSpawn journal).countP Happening.isReconnect

end Readings

section Law

/-- Since the last spawn ended, this descriptor was returned by a call made
since then. -/
def Gained (attachment : SshAttachment) (journal : List Happening) : Prop :=
  ∃ newer middle older, sinceExit journal =
      newer ++ .attached attachment :: (middle ++ .called .getAttachment :: older) ∧
    ∀ happening ∈ middle, happening = .cancelled

/-- Nothing was spawned yet, or the last spawn has ended with a lost connection
and one reconnect has been asked for since. -/
def MaySpawn (journal : List Happening) : Prop :=
  (∀ happening ∈ journal, happening.isSpawn = false) ∨
    lastExit journal = some 255 ∧ reconnects journal = 1

/-- The last spawn has not ended, and nothing was asked for meanwhile. -/
structure Running (journal : List Happening) : Prop where
  spawned : ∃ happening ∈ journal, happening.isSpawn = true
  exit : lastExit journal = none
  reconnects : reconnects journal = 0

/-- The latest observed state is `connected`. -/
def SeenConnected (journal : List Happening) : Prop :=
  ∃ health, lastHealth journal = some health ∧ connectionState health = .ok connected

def MayCall : Call → List Happening → Prop
  | .getAttachment, journal => SeenConnected journal
  | .reconnect, journal => lastExit journal = some 255 ∧ reconnects journal = 0
  | .status, _ | .sleep _, _ => True

/-- What an entry demands of those before it. -/
def Allowed (session : Word) : Happening → List Happening → Prop
  | .called call, earlier => .cancelled ∉ earlier ∧ MayCall call earlier
  | .reported state _, earlier => lastReported earlier ≠ some state
  | .spawned argv, earlier =>
      (∃ attachment, argv = shellArgv attachment session ∧ Gained attachment earlier) ∧ MaySpawn earlier
  | .launched _, earlier => .cancelled ∉ earlier
  | .exited _, earlier => Running earlier
  | .returned code, earlier =>
      (.cancelled ∈ earlier → code = 130) ∧
        (.cancelled ∉ earlier → lastExit earlier = some code ∧ code ≠ 255)
  | .cancelled, _ | .observed _, _ | .attached _, _ => True

/-- Every entry is allowed after those before it. -/
def Lawful (session : Word) : List Happening → Prop
  | [] => True
  | happening :: earlier => Allowed session happening earlier ∧ Lawful session earlier

end Law

section Growth

variable {added journal : List Happening}

/-- Neither a spawn, nor its exit, nor a reconnect. -/
def Happening.isMinor (happening : Happening) : Bool :=
  happening.exitCode.isNone && !happening.isReconnect && !happening.isSpawn

theorem findSome_append_of_none {α : Type} {f : Happening → Option α}
    (h : ∀ happening ∈ added, f happening = none) :
    (added ++ journal).findSome? f = journal.findSome? f := by
  rw [List.findSome?_append, List.findSome?_eq_none_iff.mpr h, Option.none_or]

theorem exitCode_of_isMinor {happening : Happening} (h : happening.isMinor = true) :
    happening.exitCode = none :=
  Option.isNone_iff_eq_none.mp (Bool.and_eq_true_iff.mp (Bool.and_eq_true_iff.mp h).1).1

theorem isReconnect_of_isMinor {happening : Happening} (h : happening.isMinor = true) :
    happening.isReconnect = false :=
  (Bool.not_eq_true' _).mp (Bool.and_eq_true_iff.mp (Bool.and_eq_true_iff.mp h).1).2

theorem isSpawn_of_isMinor {happening : Happening} (h : happening.isMinor = true) :
    happening.isSpawn = false :=
  (Bool.not_eq_true' _).mp (Bool.and_eq_true_iff.mp h).2

theorem sinceSpawn_append (h : ∀ happening ∈ added, happening.isSpawn = false) :
    sinceSpawn (added ++ journal) = added ++ sinceSpawn journal :=
  List.takeWhile_append_of_pos fun happening hMem => by rw [h happening hMem]; rfl

theorem sinceExit_append (h : ∀ happening ∈ added, happening.isMinor = true) :
    sinceExit (added ++ journal) = added ++ sinceExit journal := by
  unfold sinceExit
  rw [sinceSpawn_append fun happening hMem => isSpawn_of_isMinor (h happening hMem)]
  refine List.takeWhile_append_of_pos fun happening hMem => ?_
  rw [exitCode_of_isMinor (h happening hMem)]
  rfl

theorem lastExit_append (h : ∀ happening ∈ added, happening.isMinor = true) :
    lastExit (added ++ journal) = lastExit journal := by
  unfold lastExit
  rw [sinceSpawn_append fun happening hMem => isSpawn_of_isMinor (h happening hMem)]
  exact findSome_append_of_none fun happening hMem => exitCode_of_isMinor (h happening hMem)

theorem reconnects_append (h : ∀ happening ∈ added, happening.isMinor = true) :
    reconnects (added ++ journal) = reconnects journal := by
  have hNone : added.countP Happening.isReconnect = 0 :=
    List.countP_eq_zero.mpr fun happening hMem => by
      rw [isReconnect_of_isMinor (h happening hMem)]
      exact Bool.false_ne_true
  unfold reconnects
  rw [sinceSpawn_append fun happening hMem => isSpawn_of_isMinor (h happening hMem), List.countP_append,
    hNone, Nat.zero_add]

theorem MaySpawn.append (hSpawn : MaySpawn journal) (h : ∀ happening ∈ added, happening.isMinor = true) :
    MaySpawn (added ++ journal) := by
  unfold MaySpawn
  rw [lastExit_append h, reconnects_append h]
  refine hSpawn.imp_left fun hNone happening hMem => ?_
  rcases List.mem_append.mp hMem with hAdded | hEarlier
  · exact isSpawn_of_isMinor (h happening hAdded)
  · exact hNone happening hEarlier

theorem Running.spawn {argv : List Word} : Running (.spawned argv :: journal) :=
  ⟨⟨_, List.mem_cons_self, rfl⟩, rfl, rfl⟩

theorem Running.append (hRunning : Running journal) (h : ∀ happening ∈ added, happening.isMinor = true) :
    Running (added ++ journal) := by
  obtain ⟨spawn, hMem, hSpawn⟩ := hRunning.spawned
  exact ⟨⟨spawn, List.mem_append_right _ hMem, hSpawn⟩, (lastExit_append h).trans hRunning.exit,
    (reconnects_append h).trans hRunning.reconnects⟩

theorem SeenConnected.append (hSeen : SeenConnected journal)
    (h : ∀ happening ∈ added, happening.health = none) : SeenConnected (added ++ journal) := by
  obtain ⟨health, hLast, hConnected⟩ := hSeen
  exact ⟨health, (findSome_append_of_none h).trans hLast, hConnected⟩

theorem Gained.append {attachment : SshAttachment} (hGained : Gained attachment journal)
    (h : ∀ happening ∈ added, happening.isMinor = true) : Gained attachment (added ++ journal) := by
  obtain ⟨newer, middle, older, hSince, hMiddle⟩ := hGained
  refine ⟨added ++ newer, middle, older, ?_, hMiddle⟩
  rw [sinceExit_append h, hSince, List.append_assoc]

theorem mem_cancels {happening : Happening} {count : Nat}
    (h : happening ∈ List.replicate count .cancelled) : happening = .cancelled :=
  List.eq_of_mem_replicate h

end Growth

end Pazuzu.Shell
