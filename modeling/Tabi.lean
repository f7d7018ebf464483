import Tabi.Ante.AuthzNested
import Tabi.Ante.Replay
import Tabi.Ante.Sender
import Tabi.Association.Bijection
import Tabi.Association.Migration
import Tabi.BaseFee.Direction
import Tabi.Block.Replay
import Tabi.BlockGas.Exact
import Tabi.EthTx.NoPanic
import Tabi.EthTx.RoundTrip
import Tabi.Genesis.RoundTrip
import Tabi.Genesis.Streamed
import Tabi.Mempool.CheckTx
import Tabi.Optimistic.Safety
import Tabi.Precompile.Batch
import Tabi.Precompile.InternalCalls
import Tabi.Precompile.Json
import Tabi.Precompile.RemainingGas
import Tabi.Precompile.SendNative
import Tabi.Precompile.Versions
import Tabi.Receipts.Calls
import Tabi.Receipts.Immutable
import Tabi.Receipts.Invariant
import Tabi.Registry.Consistent
import Tabi.Registry.Lookups
import Tabi.Registry.Registrations
import Tabi.Rpc.BlockCache
import Tabi.Rpc.BlockGas
import Tabi.Rpc.FeeHistory
import Tabi.Rpc.GasPrice
import Tabi.Rpc.LogIndex
import Tabi.Rpc.MergeLogs
import Tabi.Rpc.NewHeads
import Tabi.Rpc.OpenEnded
import Tabi.Rpc.Shutdown
import Tabi.Rpc.StorageProof
import Tabi.Settlement.Completes
import Tabi.Settlement.Conservation
import Tabi.StateDB.Conservation
import Tabi.StateDB.Destroyed
import Tabi.StateDB.OrderFree
import Tabi.StateDB.Snapshots
import Tabi.Supply.Exact
import Tabi.Synthetic.Owners
import Tabi.Tools.XorHasher
