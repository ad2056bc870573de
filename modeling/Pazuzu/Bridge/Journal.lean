import Pazuzu.Bridge
import Mathlib.Data.List.Forall2

/-! What a bridge's journal says about its stop requests and its forwards, and
what its surroundings can change while it does nothing. -/
namespace Pazuzu.Bridge

open Asyncio

/-- A forward that is known to be registered. -/
def Happening.succeeds : Happening → Bool
  | .controlled .forward (.exited code _) => code = 0
  | _ => false

/-- The launch after a forward is over, one way or the other. -/
def Happening.settles : Happening → Bool
  | .assigned | .unlaunched => true
  | _ => false

/-- Whether the newest forward has succeeded and its channel cannot be seen by
the handler yet. -/
def launching : List Happening → Bool
  | [] => false
  | happening :: earlier => happening.succeeds || !happening.settles && launching earlier

/-- No forward succeeds after a signal, and no signal comes between a success
and the assignment of the channel. -/
def Punctual : List Happening → Prop
  | [] => True
  | happening :: earlier =>
      (happening = .signalled → launching earlier = false) ∧
        (happening.succeeds = true → .signalled ∉ earlier) ∧ Punctual earlier

/-- No channel is launched after a signal. -/
def NoneLate : List Happening → Prop
  | [] => True
  | happening :: earlier =>
      (∀ registered, happening = .launched registered → .signalled ∉ earlier) ∧ NoneLate earlier

/-- The master took a forward whose command timed out. -/
def Happening.strays : Happening → Bool
  | .controlled .forward (.timedOut reached _) => reached
  | _ => false

/-- A forward that timed out was taken by the master, and none has succeeded
since. -/
def leftover : List Happening → Bool
  | [] => false
  | happening :: earlier => !happening.succeeds && (happening.strays || leftover earlier)

/-- While a launch is under way, a stop request would have come at the wrong time. -/
theorem Punctual.unsignalled {journal : List Happening} (h : Punctual journal)
    (hLaunching : launching journal = true) : .signalled ∉ journal := by
  induction journal with
  | nil => cases hLaunching
  | cons happening earlier ih =>
      obtain ⟨hSignal, hForward, hEarlier⟩ := h
      simp only [launching, Bool.or_eq_true, Bool.and_eq_true, Bool.not_eq_true'] at hLaunching
      rw [List.mem_cons, not_or]
      rcases hLaunching with hSucceeds | ⟨-, hEarlierLaunching⟩
      · refine ⟨fun hEq => ?_, hForward hSucceeds⟩
        subst hEq
        cases hSucceeds
      · refine ⟨fun hEq => ?_, ih hEarlier hEarlierLaunching⟩
        rw [hSignal hEq.symm] at hEarlierLaunching
        cases hEarlierLaunching

/-- What a channel can become by itself: it ends, or loses its stdin. -/
def Channel.Fades (before after : Channel) : Prop :=
  (after.running = true → before.running = true) ∧ (after.leased = true → before.leased = true)

theorem Channel.Fades.refl (channel : Channel) : channel.Fades channel := ⟨id, id⟩

theorem Channel.Fades.trans {a b c : Channel} (h : a.Fades b) (h' : b.Fades c) : a.Fades c :=
  ⟨fun hc => h.1 (h'.1 hc), fun hc => h.2 (h'.2 hc)⟩

theorem Channel.exit_fades (channel : Channel) : Channel.Fades channel channel.exit :=
  ⟨fun h => Bool.noConfusion h, id⟩

theorem Channel.close_fades (channel : Channel) : Channel.Fades channel channel.close :=
  ⟨id, fun h => Bool.noConfusion h⟩

theorem Channel.closeStdin_fades (channel : Channel) : channel.Fades channel.closeStdin := by
  unfold closeStdin
  split
  · exact close_fades channel
  · exact .refl _

theorem fades_trans {first second third : List Channel}
    (h : List.Forall₂ Channel.Fades first second) (h' : List.Forall₂ Channel.Fades second third) :
    List.Forall₂ Channel.Fades first third := by
  induction h generalizing third with
  | nil => exact h'
  | cons hHead _ ih =>
      cases h' with
      | cons hHead' hTail' => exact .cons (hHead.trans hHead') (ih hTail')

theorem fades_modifyHead {f : Channel → Channel} (h : ∀ channel, Channel.Fades channel (f channel))
    (channels : List Channel) : List.Forall₂ Channel.Fades channels (channels.modifyHead f) := by
  cases channels with
  | nil => exact .nil
  | cons channel rest => exact .cons (h channel) (List.forall₂_same.mpr fun _ _ => .refl _)

theorem fades_modify {f : Channel → Channel} (h : ∀ channel, Channel.Fades channel (f channel))
    (channels : List Channel) (index : Nat) :
    List.Forall₂ Channel.Fades channels (channels.modify index f) := by
  induction channels generalizing index with
  | nil =>
      rw [List.modify_nil]
      exact .nil
  | cons channel rest ih =>
      cases index with
      | zero => exact .cons (h channel) (List.forall₂_same.mpr fun _ _ => .refl _)
      | succ index => exact .cons (.refl _) (ih index)

/-- What the surroundings leave as it is, and how the rest can change. -/
structure Meanwhile (before after : State) : Prop where
  child : after.child = before.child
  forwardRegistered : after.forwardRegistered = before.forwardRegistered
  registered : after.registered = before.registered
  channels : List.Forall₂ Channel.Fades before.channels after.channels
  journal : ∃ count, after.journal = List.replicate count .signalled ++ before.journal

theorem Meanwhile.refl (state : State) : Meanwhile state state :=
  ⟨rfl, rfl, rfl, List.forall₂_same.mpr fun _ _ => .refl _, 0, rfl⟩

theorem Meanwhile.trans {a b c : State} (h : Meanwhile a b) (h' : Meanwhile b c) : Meanwhile a c := by
  obtain ⟨first, hFirst⟩ := h.journal
  obtain ⟨second, hSecond⟩ := h'.journal
  refine ⟨h'.child.trans h.child, h'.forwardRegistered.trans h.forwardRegistered,
    h'.registered.trans h.registered, ?_, second + first, ?_⟩
  · exact fades_trans h.channels h'.channels
  · rw [hSecond, hFirst, ← List.append_assoc, List.replicate_append_replicate]

theorem launching_replicate (count : Nat) (journal : List Happening) :
    launching (List.replicate count .signalled ++ journal) = launching journal := by
  induction count with
  | zero => rfl
  | succ count ih => exact ih

theorem leftover_replicate (count : Nat) (journal : List Happening) :
    leftover (List.replicate count .signalled ++ journal) = leftover journal := by
  induction count with
  | zero => rfl
  | succ count ih => exact ih

theorem Meanwhile.launching {before after : State} (h : Meanwhile before after) :
    launching after.journal = launching before.journal := by
  obtain ⟨count, hJournal⟩ := h.journal
  rw [hJournal, launching_replicate]

theorem Meanwhile.leftover {before after : State} (h : Meanwhile before after) :
    leftover after.journal = leftover before.journal := by
  obtain ⟨count, hJournal⟩ := h.journal
  rw [hJournal, leftover_replicate]

/-- No service channel is running. -/
def Ended (channels : List Channel) : Prop := ∀ channel ∈ channels, channel.running = false

theorem Ended.fades {before after : List Channel} (h : Ended before)
    (hFades : List.Forall₂ Channel.Fades before after) : Ended after := by
  induction hFades with
  | nil => exact h
  | cons hHead _ ih =>
      obtain ⟨hFirst, hRest⟩ := List.forall_mem_cons.mp h
      refine List.forall_mem_cons.mpr ⟨?_, ih hRest⟩
      exact Bool.eq_false_iff.mpr fun hRunning => by rw [hHead.1 hRunning] at hFirst; cases hFirst

theorem meanwhile_of_disturb {move : Move} {before after : State}
    (h : disturb move before = some after) : Meanwhile before after := by
  cases move with
  | signal =>
      simp only [disturb, Option.ite_none_right_eq_some, Option.some.injEq] at h
      obtain ⟨-, rfl⟩ := h
      refine ⟨rfl, rfl, rfl, ?_, 1, rfl⟩
      unfold relaySignal
      split
      · exact fades_modifyHead Channel.closeStdin_fades _
      · exact List.forall₂_same.mpr fun _ _ => .refl _
  | exit index =>
      cases h
      exact ⟨rfl, rfl, rfl, fades_modify Channel.exit_fades _ _, 0, rfl⟩
  | pass seconds =>
      simp only [disturb, Option.ite_none_right_eq_some, Option.some.injEq] at h
      obtain ⟨-, rfl⟩ := h
      exact ⟨rfl, rfl, rfl, List.forall₂_same.mpr fun _ _ => .refl _, 0, rfl⟩

theorem meanwhile {before after : State} (h : surroundings.Drifts before after) :
    Meanwhile before after :=
  h.lift Meanwhile.refl (fun _ _ _ => Meanwhile.trans) fun _ _ _ => meanwhile_of_disturb

end Pazuzu.Bridge
