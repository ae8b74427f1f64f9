import AkNano.Memory
import AkNano.Interrupted
import AkNano.Platform
import AkNano.FlashRead
import AkNano.SwapState
import AkNano.SlotLayout
import AkNano.SwapEffects
import AkNano.VerifyImage
import AkNano.ImageVerdict
import AkNano.ImageGrammar
import AkNano.ImageExtent
import AkNano.ImageFormat
import AkNano.FlashTraffic
import AkNano.Session
import AkNano.SwapRuns
import AkNano.Confirmation
import AkNano.Retries
import AkNano.Commuting
import AkNano.UpdateOrder
import AkNano.Rollback
import AkNano.Readback
import AkNano.Marking
import AkNano.TrialProtocol
import AkNano.Lifetime
import AkNano.UpdateCycles
import AkNano.Fallback
import AkNano.SwapBuild
import AkNano.Attempts
import AkNano.BuildNumber
import AkNano.FlexspiOps
import AkNano.Priority
import AkNano.BoardMpu
import AkNano.Deliveries
import AkNano.Exchanges
import AkNano.TestedImage
import AkNano.WallClock
import AkNano.StartUp
import AkNano.EpochReads
import AkNano.ButtonTask
import AkNano.WrapperCalls
import AkNano.FlashReadCalls
import AkNano.RandomBytes
