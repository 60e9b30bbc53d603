import Lotus.Chain.Beacon
import Lotus.Chain.Canonical
import Lotus.Chain.CidArrs
import Lotus.Chain.Election
import Lotus.Chain.SingleFlight
import Lotus.Chain.SkipIndex
import Lotus.Chain.Supply
import Lotus.Chain.WaitMessage
import Lotus.Events.Confidence
import Lotus.Events.Delivery
import Lotus.Events.DiffAdt
import Lotus.Events.Timeouts
import Lotus.Market.FundMgr
import Lotus.Miner.Loop
import Lotus.Miner.Penalties
import Lotus.Mpool.Nonces
import Lotus.Paych.Spendable
import Lotus.Paych.Vouchers
import Lotus.State.Resolution
import Lotus.Storage.WdPost
import Lotus.Storage.WdPostSched
import Lotus.Sub.WorkerKeys
import Lotus.Sync.HeadMessages
import Lotus.Sync.Scheduler
import Lotus.Sync.Stranded
import Lotus.Util.Incrt
import Lotus.Vm.Copy
import Lotus.Vm.ErrorClass
import Lotus.Vm.Isolation
import Lotus.Vm.Metering
import Lotus.Vm.NewAddress
