import L1xCore.Consensus.Gate
import L1xCore.System.Binding
import L1xCore.System.EthTransaction
import L1xCore.Mempool.RewardTransactions
import L1xCore.Mempool.Selected
import L1xCore.Validate.DenyList
import L1xCore.Node.BlockPaths
import L1xCore.Consensus.StoredBlocks
import L1xCore.Consensus.DeliveryOrder
import L1xCore.Execute.BurntGas
import L1xCore.Execute.EvmGas
import L1xCore.Validate.StakeLimits
import L1xCore.State.LostRecords
import L1xCore.Consensus.Retry
import L1xCore.VoteResult.Counting
import L1xCore.Consensus.ProposerSelection
import L1xCore.Validator.Committee
import L1xCore.Mempool.Priority
import L1xCore.Execute.PoolOwner
import L1xCore.Vm.HostFunctions
import L1xCore.Node.Sync
import L1xCore.Execute.FutureAddress
import L1xCore.Execute.CallFrames
import L1xCore.ContractInstanceManager.StorageFaults
import L1xCore.System.HealthMedian
import L1xCore.Server.LogFilters
