import Pazuzu.Gateway.Socket
import Pazuzu.Gateway.Shutdown
import Pazuzu.Process.Group
import Pazuzu.Shell.Reattach
import Pazuzu.Shell.Names
import Pazuzu.Bridge.Forwards
import Pazuzu.Bridge.Remote
import Pazuzu.Bridge.Rule
import Pazuzu.Bridge.Residence
import Pazuzu.Transfer.Options
import Pazuzu.Transfer.Operands
import Pazuzu.Transfer.Places
import Pazuzu.Transport.Owner
import Pazuzu.Transport.Identity
import Pazuzu.Slurm.Status
import Pazuzu.Slurm.Logs
import Pazuzu.Slurm.Script
import Pazuzu.Supervision.Walk
import Pazuzu.Supervision.Slots
import Pazuzu.Supervision.Orphans
import Pazuzu.Supervision.Deadline
import Pazuzu.Supervision.Acting
import Pazuzu.Asyncio.Leaving
import Pazuzu.Supervision.Tolerance
import Pazuzu.Supervision.Constancy
import Pazuzu.Supervision.Pause
import Pazuzu.Supervision.Patience
import Pazuzu.Sessions.Starvation
import Pazuzu.Supervision.Replacement
import Pazuzu.Supervision.Replay
import Pazuzu.Supervision.Succession
import Pazuzu.Supervision.Certainty
import Pazuzu.Supervision.Confirmation
import Pazuzu.Supervision.Survival
import Pazuzu.Supervision.Abandonment
import Pazuzu.Gateway.Encoding
import Pazuzu.Gateway.Handling
import Pazuzu.Client.Status
import Pazuzu.Client.Served
import Pazuzu.Launchd.Install
import Pazuzu.Bridge.Service
import Pazuzu.Publication
import Pazuzu.Gateway.Descriptor
import Pazuzu.Process.Pipes
import Pazuzu.Gateway.Transfers
