import Wise1511.Lib.Mealy
import Wise1511.Lib.CArray
import Wise1511.Lib.SpiBus
import Wise1511.Lib.Transaction
import Wise1511.Lib.Decimal
import Wise1511.Lib.Strtol
import Wise1511.Lib.NearestEven
import Wise1511.Lib.Binary32
import Wise1511.Defs
import Wise1511.Chip
import Wise1511.RegAccess
import Wise1511.ChipFrames
import Wise1511.RegisterStore
import Wise1511.RadioDriver
import Wise1511.FreqError
import Wise1511.RadioRead
import Wise1511.FifoAccess
import Wise1511.StatusByte
import Wise1511.ConfigTables
import Wise1511.ConfigLoaders
import Wise1511.DeviceId
import Wise1511.RadioFreq
import Wise1511.BerTest
import Wise1511.BurstPacket
import Wise1511.RxBer
import Wise1511.BerLink
import Wise1511.RadioWait
import Wise1511.RxBounds
import Wise1511.Console
import Wise1511.LineEditor
import Wise1511.Overflow
import Wise1511.ConsoleCalls
import Wise1511.Menu
import Wise1511.MenuInterpreter
import Wise1511.PinTest
import Wise1511.RadioCalls
import Wise1511.SpectrumTables
import Wise1511.RfTest
import Wise1511.BerTurns
import Wise1511.BurstLink
import Wise1511.BerPolling
import Wise1511.RfHandlers
import Wise1511.MenuListing
import Wise1511.MenuSessions
import Wise1511.RfMenu
import Wise1511.IoMenus
import Wise1511.IoLabels
import Wise1511.IoSessions
import Wise1511.Keystrokes
