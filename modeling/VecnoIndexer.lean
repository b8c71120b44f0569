import VecnoIndexer.Balances.Composition
import VecnoIndexer.Balances.Incremental
import VecnoIndexer.Balances.Reorgs
import VecnoIndexer.Blocks.FetchBlocks
import VecnoIndexer.Blocks.Handover
import VecnoIndexer.Checkpoint.ExactlyOnce
import VecnoIndexer.Checkpoint.Intervals
import VecnoIndexer.Checkpoint.Order
import VecnoIndexer.Checkpoint.Remembered
import VecnoIndexer.Prune.Acceptances
import VecnoIndexer.Prune.Checkpoints
import VecnoIndexer.Prune.OneDelete
import VecnoIndexer.Prune.ReadBack
import VecnoIndexer.Sql.StoredLists
import VecnoIndexer.Startup.Baseline
import VecnoIndexer.Startup.Schema
import VecnoIndexer.System.Acceptances
import VecnoIndexer.System.Gaps
import VecnoIndexer.System.Links
import VecnoIndexer.System.Origins
import VecnoIndexer.System.Pruning
import VecnoIndexer.System.ReadBack
import VecnoIndexer.System.Shutdown
import VecnoIndexer.Tasks.Blocking
import VecnoIndexer.Tasks.Inserts
import VecnoIndexer.Transactions.Origins
import VecnoIndexer.Transactions.SameIndex
import VecnoIndexer.Transactions.SubnetworkKeys
import VecnoIndexer.UtxoImport.Completeness
import VecnoIndexer.UtxoImport.Progress
import VecnoIndexer.UtxoImport.Unaddressed
import VecnoIndexer.VirtualChain.ChainBlocks
import VecnoIndexer.VirtualChain.Gate
import VecnoIndexer.VirtualChain.Restart
import VecnoIndexer.VirtualChain.TipDistance
