import Fundex.F64
import Fundex.MovingStats
import Fundex.QueryEffort
import Fundex.KillState
import Fundex.LoadManager
import Fundex.Safety
import Fundex.Races
import Fundex.Stopwatch
import Fundex.SectionGuards
import Fundex.Retry
import Fundex.Ethereum
import Fundex.EventLookup
import Fundex.OverloadLog
import Fundex.Http
import Fundex.Settings
