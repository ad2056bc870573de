import Pazuzu.Asyncio.Raising
import Pazuzu.Host
import Pazuzu.Supervision.Receipt

/-! The owner file that a crash or another program has left behind, and what
becomes of `stop_master` when it reads it. -/
namespace Pazuzu.Transport

open Asyncio Python

variable {content digits : Bytes} {config : Config} {seen : State → Prop} {may : Error → Prop}

section Content

theorem receipt_ascii (pid : Nat) : ∀ byte ∈ ownerReceipt pid, byte < 128 := by
  intro byte hIn
  rw [ownerReceipt_eq, List.mem_append, List.mem_singleton] at hIn
  rcases hIn with hDigit | rfl
  · have hBounds := digitBytes_decimal pid byte hDigit
    rw [UInt8.lt_iff_toNat_lt]
    exact hBounds.2.trans_lt (by decide)
  · decide

end Content

section Stopping

/-- The owner file, if there is one, has this content. -/
def Holds (content : Bytes) (state : State) : Prop := ∀ found ∈ state.os.owner, found = content

/-- `ssh` can be launched for a control command: no word holds a NUL. -/
def Launches (config : Config) : Prop :=
  Host.isArgv [config.settings.sshBinary, config.settings.controlPath, config.settings.host] = true

variable {legible : Nat → Prop}

end Stopping
end Pazuzu.Transport
