import Revm.Database.CacheRefinement
import Revm.Database.BundleDiff
import Revm.Database.BundleRevert
import Revm.Database.InMemory
import Revm.Journal.Revert
import Revm.Journal.Discard
import Revm.Journal.AccountWarmth
import Revm.Journal.SlotWarmth
import Revm.Journal.Conservation
import Revm.Interpreter.MemoryRun
import Revm.Interpreter.Refund
import Revm.Handler.Settlement
import Revm.Interpreter.CodeRun
import Revm.Interpreter.PushSlice
import Revm.Interpreter.NetGas
import Revm.Database.Flatten
import Revm.Database.StateRef
import Revm.Database.BundleSize
import Revm.Precompile.ModExpRefinement
import Revm.Optimism.CatchError
import Revm.Inspector.Transparent
import Revm.Handler.Decodable
import Revm.Bal.PostBlock
import Revm.Bal.Replay
import Revm.Handler.StaticCall
import Revm.Journal.SkipCold
import Revm.Journal.FailedTransfer
import Revm.Handler.CallerFee
import Revm.Bal.History
import Revm.Bal.PerTransaction
import Revm.Bal.DebugCheck
import Revm.Bal.Alloy
import Revm.Bal.SharedCache
import Revm.Handler.JournalRun
