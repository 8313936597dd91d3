import SQLess.BlockProducer.TxState
import SQLess.BlockProducer.Reload
import SQLess.BlockProducer.Crash
import SQLess.Kayak.Execution
import SQLess.Kayak.Resolution
import SQLess.SQLChain.Restart
import SQLess.SQLChain.Acks
import SQLess.SQLChain.Turns
import SQLess.SQLChain.Binding
import SQLess.Storage.Outcome
import SQLess.BlockProducer.Isolation
import SQLess.BlockProducer.TopUp
import SQLess.BlockProducer.Operations
import SQLess.Xenomint.Truncation
import SQLess.Kayak.WalRecovery
import SQLess.SQLChain.Billing
import SQLess.Chainbus.Bus
import SQLess.Rpc.Pool
import SQLess.Worker.BusService
import SQLess.Etls.Conn
import SQLess.Storage.Dsn
import SQLess.Consistent.Ring
import SQLess.Crypto.Padding
import SQLess.Worker.Eviction
import SQLess.Pow.CpuMiner
import SQLess.Route.IPv6
import SQLess.Xenomint.PoolIndex
import SQLess.BlockProducer.Agreement
import SQLess.Kayak.Durability
