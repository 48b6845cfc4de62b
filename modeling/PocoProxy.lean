import PocoProxy.CallRuns
import PocoProxy.DayLogRuns
import PocoProxy.Decimals
import PocoProxy.Directories
import PocoProxy.EmulatorEnds
import PocoProxy.FindPacket
import PocoProxy.Identity
import PocoProxy.IniValues
import PocoProxy.Initialising
import PocoProxy.MemorySizes
import PocoProxy.PacketChecks
import PocoProxy.PacketExchange
import PocoProxy.VialOffsets
