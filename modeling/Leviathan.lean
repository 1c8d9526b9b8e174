import Leviathan.Client.Filing
import Leviathan.Client.Session
import Leviathan.Coordinator.Audits
import Leviathan.Coordinator.Expiry
import Leviathan.Coordinator.LastStep
import Leviathan.Coordinator.Pausing
import Leviathan.Coordinator.Warmup
import Leviathan.Core.IntervalTree
import Leviathan.Core.MerkleTree
import Leviathan.Core.SlotVec
import Leviathan.DataProvider.Samples
import Leviathan.DataProvider.Weighted
import Leviathan.Distributor.Payout
import Leviathan.EventSourcing.Refresh
import Leviathan.EventSourcing.Scrubbing
import Leviathan.Instance.Configuration
import Leviathan.Instance.Seats
import Leviathan.Instance.Timeouts
import Leviathan.MiningPool.Shares
import Leviathan.Network.Peers
import Leviathan.Network.Permits
import Leviathan.Network.Registry
import Leviathan.Network.Streaming
import Leviathan.Optimizer.Divisors
import Leviathan.Optimizer.Packing
import Leviathan.Trainer.Barrier
import Leviathan.Trainer.MicroBatches
import Leviathan.Treasurer.Appeals
import Leviathan.Treasurer.Bounty
import Leviathan.Treasurer.Claims
import Leviathan.Treasurer.Joining
import Leviathan.Treasurer.Windows
import Leviathan.Verifier.Dumps
import Leviathan.Website.Indexer
import Leviathan.Website.Lottery
import Leviathan.Website.Sampling
