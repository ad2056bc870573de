import Pazuzu.Python.Strings
import Pazuzu.Bridge

/-! The forwarding rule as OpenSSH reads it: four fields between colons, where
a host with colons stands in brackets. -/
namespace Pazuzu.Bridge

open Asyncio Python

variable {request other : Request} {spec : String} {field host rest : Word} {more : Option Word}

section Reader

/-- The four fields of a rule. -/
structure Forward where
  listenHost : Word
  listenPort : Nat
  remoteHost : Word
  remotePort : Nat
  deriving DecidableEq

/-- One field: in brackets, or up to the next colon. -/
def takeField : Word → Option (Word × Option Word)
  | '[' :: text =>
      match cutAt ']' text with
      | (field, [_]) => some (field, none)
      | (field, _ :: ':' :: more) => some (field, some more)
      | _ => none
  | text =>
      match cutAt ':' text with
      | (field, []) => some (field, none)
      | (field, _ :: more) => some (field, some more)

def readPort (field : Word) : Option Nat :=
  if field ≠ [] ∧ field.all Char.isDigit then some (Nat.ofDigitChars 10 field 0) else none

/-- The bracket rule alone: a colon ends a field unless the field begins with a
bracket. It is not the parser of `ssh`, which also knows of backslashes, `${VAR}`
and leading blanks. -/
def readRule (rule : Word) : Option Forward :=
  match takeField rule with
  | some (listenHost, some rest) =>
      match takeField rest with
      | some (listenPort, some rest) =>
          match takeField rest with
          | some (remoteHost, some rest) =>
              match takeField rest with
              | some (remotePort, none) =>
                  match readPort listenPort, readPort remotePort with
                  | some first, some second => some ⟨listenHost, first, remoteHost, second⟩
                  | _, _ => none
              | _ => none
          | _ => none
      | _ => none
  | _ => none

/-- Text that is read as the one field it is. -/
def IsPlain (text : Word) : Prop := ':' ∉ text ∧ text.head? ≠ some '['

theorem takeField_unbracketed {text : Word} (h : text.head? ≠ some '[') : takeField text =
    match cutAt ':' text with
    | (field, []) => some (field, none)
    | (field, _ :: more) => some (field, some more) := by
  rcases text with _ | ⟨first, text⟩
  · rfl
  · have hFirst : first ≠ '[' := fun hSame => h (by rw [hSame]; rfl)
    rw [takeField]
    exact fun text hText => hFirst (List.cons.inj hText).1

theorem takeField_colon (h : IsPlain field) : takeField (field ++ ':' :: rest) = some (field, some rest) := by
  have hHead : (field ++ ':' :: rest).head? ≠ some '[' := by
    rcases field with _ | ⟨first, field⟩
    · simp
    · simpa using h.2
  rw [takeField_unbracketed hHead, cutAt_of_notMem h.1]

theorem takeField_last (h : IsPlain field) : takeField field = some (field, none) := by
  rw [takeField_unbracketed h.2, cutAt_all h.1]

/-- A word is not in front of itself. -/
theorem not_prefix_self {c stop : Char} (hStop : c ≠ stop) : ¬c :: host <+: host ++ stop :: rest := by
  induction host with
  | nil => simpa using hStop
  | cons first host ih =>
      intro hPrefix
      obtain ⟨rfl, hTail⟩ := List.cons_prefix_cons.mp hPrefix
      exact ih hTail

/-- Only plain text is read as itself. -/
theorem plain_of_takeField (h : takeField (host ++ ':' :: rest) = some (host, more)) : IsPlain host := by
  by_cases hBracket : host.head? = some '['
  · obtain ⟨tail, rfl⟩ : ∃ tail, host = '[' :: tail := by
      rcases host with _ | ⟨first, tail⟩
      · cases hBracket
      · exact ⟨tail, by rw [Option.some.inj hBracket]⟩
    have hField : (tail ++ ':' :: rest).takeWhile (· ≠ ']') = '[' :: tail := by
      simp only [List.cons_append, takeField, cutAt] at h
      split at h
      · next hTaken =>
          rw [(Prod.mk.inj hTaken).1]
          exact (Prod.mk.inj (Option.some.inj h)).1
      · next hTaken =>
          rw [(Prod.mk.inj hTaken).1]
          exact (Prod.mk.inj (Option.some.inj h)).1
      · cases h
    exact absurd (hField ▸ List.takeWhile_prefix _) (not_prefix_self (by decide))
  · have hHead : (host ++ ':' :: rest).head? ≠ some '[' := by
      rcases host with _ | ⟨first, tail⟩
      · simp
      · simpa using hBracket
    rw [takeField_unbracketed hHead] at h
    have hField : (host ++ ':' :: rest).takeWhile (· ≠ ':') = host := by
      simp only [cutAt] at h
      split at h
      · next hTaken =>
          rw [(Prod.mk.inj hTaken).1]
          exact (Prod.mk.inj (Option.some.inj h)).1
      · next hTaken =>
          rw [(Prod.mk.inj hTaken).1]
          exact (Prod.mk.inj (Option.some.inj h)).1
    refine ⟨fun hColon => ?_, hBracket⟩
    rw [← hField] at hColon
    simpa using List.mem_takeWhile_imp hColon

end Reader

section Ports

theorem readPort_toString {port : Int} (h : 1 ≤ port) :
    readPort (toString port).toList = some port.toNat ∧ IsPlain (toString port).toList := by
  obtain ⟨n, rfl⟩ := Int.eq_ofNat_of_zero_le (show 0 ≤ port by omega)
  have hText : (toString (n : Int)).toList = Nat.toDigits 10 n := by
    change (toString n).toList = _
    rw [Nat.toString_eq_ofList_toDigits, String.toList_ofList]
  have hDigits : ∀ c ∈ Nat.toDigits 10 n, c.isDigit = true := fun _ hIn =>
    Nat.isDigit_of_mem_toDigits (by decide) (by decide) hIn
  rw [hText]
  refine ⟨?_, fun hColon => absurd (hDigits _ hColon) (by decide), fun hHead => ?_⟩
  · rw [readPort, if_pos ⟨Nat.toDigits_ne_nil, List.all_eq_true.mpr hDigits⟩]
    exact congrArg some Nat.ofDigitChars_ten_toDigits
  · exact absurd (hDigits _ (List.mem_of_mem_head? hHead)) (by decide)

end Ports

section Rules

/-- What a bridge is asked to forward. -/
def Request.asked (request : Request) : Forward :=
  ⟨request.listenHost.toList, request.listenPort.toNat, request.remoteHost.toList, request.remotePort.toNat⟩

/-- An accepted rule joins the four fields. -/
theorem rule_fields (h : bridgeSpec request = .ok spec) :
    1 ≤ request.listenPort ∧ 1 ≤ request.remotePort ∧
      spec.toList = request.listenHost.toList ++ ':' :: ((toString request.listenPort).toList ++
        ':' :: (request.remoteHost.toList ++ ':' :: (toString request.remotePort).toList)) := by
  simp only [bridgeSpec, bind, Except.bind] at h
  split at h
  · cases h
  · split at h
    · cases h
    · split at h
      · cases h
      · next hPorts =>
          cases h
          have hRange := not_not.mp hPorts
          exact ⟨hRange.1, hRange.2.2.1, by simp⟩

theorem readRule_plain (h : bridgeSpec request = .ok spec) (hListen : IsPlain request.listenHost.toList)
    (hRemote : IsPlain request.remoteHost.toList) : readRule spec.toList = some request.asked := by
  obtain ⟨hListenPort, hRemotePort, hSpec⟩ := rule_fields h
  obtain ⟨hFirst, hFirstPlain⟩ := readPort_toString hListenPort
  obtain ⟨hSecond, hSecondPlain⟩ := readPort_toString hRemotePort
  rw [hSpec, readRule, takeField_colon hListen]
  simp only [takeField_colon hFirstPlain, takeField_colon hRemote, takeField_last hSecondPlain, hFirst, hSecond]
  rfl

theorem plain_of_readRule (h : bridgeSpec request = .ok spec) (hRead : readRule spec.toList = some request.asked) :
    IsPlain request.listenHost.toList ∧ IsPlain request.remoteHost.toList := by
  obtain ⟨hListenPort, -, hSpec⟩ := rule_fields h
  obtain ⟨-, hPortPlain⟩ := readPort_toString hListenPort
  rw [hSpec, readRule] at hRead
  have hListen : IsPlain request.listenHost.toList := by
    split at hRead
    · next host rest hField =>
        split at hRead
        · split at hRead
          · split at hRead
            · split at hRead
              · obtain rfl : host = request.listenHost.toList := (Forward.mk.inj (Option.some.inj hRead)).1
                exact plain_of_takeField hField
              · cases hRead
            · cases hRead
          · cases hRead
        · cases hRead
    · cases hRead
  refine ⟨hListen, ?_⟩
  simp only [takeField_colon hListen, takeField_colon hPortPlain] at hRead
  split at hRead
  · next host rest hField =>
      split at hRead
      · split at hRead
        · obtain rfl : host = request.remoteHost.toList := (Forward.mk.inj (Option.some.inj hRead)).2.2.1
          exact plain_of_takeField hField
        · cases hRead
      · cases hRead
  · cases hRead

theorem count_rule (h : bridgeSpec request = .ok spec) :
    spec.toList.count ':' = request.listenHost.toList.count ':' + request.remoteHost.toList.count ':' + 3 := by
  obtain ⟨hListenPort, hRemotePort, hSpec⟩ := rule_fields h
  have hFirst := List.count_eq_zero.mpr (readPort_toString hListenPort).2.1
  have hSecond := List.count_eq_zero.mpr (readPort_toString hRemotePort).2.1
  rw [hSpec]
  simp only [List.count_append, List.count_cons_self, hFirst, hSecond]
  omega

/-- Of two texts before the first colon. -/
theorem cut_unique {front front' rest' : Word} (hFront : ':' ∉ front) (hFront' : ':' ∉ front')
    (h : front ++ ':' :: rest = front' ++ ':' :: rest') : front = front' ∧ rest = rest' := by
  have hCut := congrArg (cutAt ':') h
  rw [cutAt_of_notMem hFront, cutAt_of_notMem hFront'] at hCut
  obtain ⟨hSame, hRest⟩ := Prod.mk.inj hCut
  exact ⟨hSame, (List.cons.inj hRest).2⟩

/-- A rule without colons in its hosts comes from one request only. -/
theorem asked_unique (h : bridgeSpec request = .ok spec) (hListen : ':' ∉ request.listenHost.toList)
    (hRemote : ':' ∉ request.remoteHost.toList) (hOther : bridgeSpec other = .ok spec) :
    other.asked = request.asked := by
  have hCount := count_rule h
  rw [count_rule hOther, List.count_eq_zero.mpr hListen, List.count_eq_zero.mpr hRemote] at hCount
  have hListenOther : ':' ∉ other.listenHost.toList := List.count_eq_zero.mp (by omega)
  have hRemoteOther : ':' ∉ other.remoteHost.toList := List.count_eq_zero.mp (by omega)
  obtain ⟨hPort, hLast, hSpec⟩ := rule_fields h
  obtain ⟨hPortOther, hLastOther, hSpecOther⟩ := rule_fields hOther
  rw [hSpecOther] at hSpec
  obtain ⟨hHost, hSpec⟩ := cut_unique hListenOther hListen hSpec
  obtain ⟨hListenPort, hSpec⟩ :=
    cut_unique (readPort_toString hPortOther).2.1 (readPort_toString hPort).2.1 hSpec
  obtain ⟨hRemoteHost, hRemotePort⟩ := cut_unique hRemoteOther hRemote hSpec
  have hFirst := (readPort_toString hPortOther).1
  have hSecond := (readPort_toString hLastOther).1
  rw [hListenPort, (readPort_toString hPort).1] at hFirst
  rw [hRemotePort, (readPort_toString hLast).1] at hSecond
  simp only [Request.asked, hHost, hRemoteHost, Option.some.inj hFirst, Option.some.inj hSecond]

/-- An accepted rule is read as what was asked for, and stands for nothing else,
exactly if neither host has a colon or begins with a bracket. -/
theorem rule_read_iff (h : bridgeSpec request = .ok spec) :
    (readRule spec.toList = some request.asked ∧
        ∀ other, bridgeSpec other = .ok spec → other.asked = request.asked) ↔
      IsPlain request.listenHost.toList ∧ IsPlain request.remoteHost.toList := by
  constructor
  · rintro ⟨hRead, -⟩
    exact plain_of_readRule h hRead
  · rintro ⟨hListen, hRemote⟩
    exact ⟨readRule_plain h hListen hRemote, fun other => asked_unique h hListen.1 hRemote.1⟩

/-- A forward between two hosts. -/
def forwarding (listenHost remoteHost : String) : Request :=
  { settings := { host := "h", controlPath := "/c" }, listenHost, listenPort := 80, remoteHost
    remotePort := 90, remoteCommand := ["s"] }

theorem rule_read_loopback : readRule "127.0.0.1:80:r:90".toList = some (forwarding "127.0.0.1" "r").asked := by
  have hAccepted : bridgeSpec (forwarding "127.0.0.1" "r") = .ok "127.0.0.1:80:r:90" := rfl
  refine ((rule_read_iff hAccepted).mpr ⟨?_, ?_⟩).1
  · exact ⟨by decide, by decide⟩
  · exact ⟨by decide, by decide⟩

/-- An IPv6 address is not put in brackets. -/
theorem rule_misread : ¬∀ request spec, bridgeSpec request = .ok spec →
    readRule spec.toList = some request.asked ∧
      ∀ other, bridgeSpec other = .ok spec → other.asked = request.asked := by
  intro hClaim
  have hAccepted : bridgeSpec (forwarding "::1" "r") = .ok "::1:80:r:90" := rfl
  have hPlain := (plain_of_readRule hAccepted (hClaim _ _ hAccepted).1).1
  exact absurd hPlain.1 (by decide)

-- Two requests share one rule.
example : bridgeSpec { forwarding "a" "b:2:c" with listenPort := 1 } = .ok "a:1:b:2:c:90" ∧
    bridgeSpec { forwarding "a:1:b" "c" with listenPort := 2 } = .ok "a:1:b:2:c:90" := ⟨rfl, rfl⟩

end Rules
end Pazuzu.Bridge
