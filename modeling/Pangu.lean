import Pangu.Lib.Rlp
import Pangu.Lib.Go
import Pangu.Lib.Interleave
import Pangu.Lib.DeferScan
import Pangu.Common.Types
import Pangu.AccessList.Basic
import Pangu.Types.Transaction
import Pangu.Rlp.Encode
import Pangu.Types.Hashing
import Pangu.Types.Signer
import Pangu.State.StateDB
import Pangu.Evm.Basic
import Pangu.Evm.Interpreter
import Pangu.Evm.JumpTable
import Pangu.Evm.Conflict
import Pangu.Core.Transition
import Pangu.Core.Process
import Pangu.Core.Classify
import Pangu.TxPool.Validation
import Pangu.TxPool.SortedMap
import Pangu.Executor.Server
import Pangu.AccessList.Invariant
import Pangu.State.Journal
import Pangu.Types.Wire
import Pangu.Lib.KeyedList
import Pangu.TxPool.Avl
import Pangu.TxPool.AvlSpec
import Pangu.Types.Receipt
import Pangu.Core.Chain
import Pangu.Executor.Loop
import Pangu.Core.Thread
import Pangu.Evm.Halts
import Pangu.Evm.Log
import Pangu.Evm.Gas
import Pangu.Lib.ByteBits
import Pangu.Evm.Analysis
import Pangu.Evm.Reaches
import Pangu.Evm.Jump
import Pangu.Evm.Instructions
import Pangu.Evm.Frontier
import Pangu.Lib.Heap
import Pangu.Lib.Json
import Pangu.Lib.JsonDecode
import Pangu.Lib.Base64
import Pangu.Common.Hexutil
import Pangu.Types.Json
