import Goisis.Config.Repair
import Goisis.Server.AttachedDefault
import Goisis.Server.CircuitIDs
import Goisis.Server.Connected
import Goisis.Server.CsnpBurst
import Goisis.Server.Designated
import Goisis.Server.Election
import Goisis.Server.Lan
import Goisis.Server.Lifetime
import Goisis.Server.Mgmt
import Goisis.Server.NextHopFamilies
import Goisis.Server.OneAdvert
import Goisis.Server.PadHello
import Goisis.Server.ParallelLinks
import Goisis.Server.Readdress
import Goisis.Server.RestartHold
import Goisis.Server.Selection
import Goisis.Server.SidProgramming
import Goisis.Server.SplitLinks
import Goisis.Server.SyncWindow
import Goisis.Server.TentSet
import Goisis.Server.UpdateOrder
import Goisis.Server.Watch
