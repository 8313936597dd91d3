import Mathlib.Data.UInt

/-! Data of the block producer chain, of `types/` and `blockproducer/interfaces/`. Token amounts,
prices and nonces are machine words; heights and counts are natural numbers. -/

namespace SQLess

abbrev Hash := BitVec 256

abbrev AccountAddress := Hash

abbrev AccountNonce := UInt32

abbrev NodeID := String

abbrev Time := Int

/-- `proto.DatabaseID`: the text of a hash, represented by that hash. -/
structure DatabaseID where
  raw : Hash
  deriving DecidableEq

def databaseID (address : AccountAddress) : DatabaseID := ⟨address⟩

def DatabaseID.accountAddress (id : DatabaseID) : AccountAddress := id.raw

structure PublicKey where
  x : Nat
  y : Nat
  deriving DecidableEq

structure PrivateKey where
  d : Nat
  deriving DecidableEq

structure Signature where
  r : Nat
  s : Nat
  deriving DecidableEq

structure Float64 where
  bits : BitVec 64
  deriving DecidableEq

namespace Float64

def zero : Float64 := ⟨0⟩

def magnitude (value : Float64) : Nat := value.bits.toNat % 2 ^ 63

def isNaN (value : Float64) : Bool := decide (0x7FF0000000000000 < value.magnitude)

def order (value : Float64) : Int :=
  if value.bits.toNat < 2 ^ 63 then value.magnitude else -value.magnitude

def gt (left right : Float64) : Bool :=
  !left.isNaN && !right.isNaN && decide (right.order < left.order)

end Float64

inductive Token where
  | particle
  | wave
  deriving DecidableEq

abbrev TokenType := Int

def Token.tokenType : Token → TokenType
  | .particle => 0
  | .wave => 1

def TokenType.token? (tokenType : TokenType) : Option Token :=
  if tokenType = 0 then some .particle else if tokenType = 1 then some .wave else none

structure TokenBalance where
  particle : UInt64
  wave : UInt64
  deriving DecidableEq

namespace TokenBalance

def zero : TokenBalance := ⟨0, 0⟩

variable (balance : TokenBalance)

def get : Token → UInt64
  | .particle => balance.particle
  | .wave => balance.wave

def set (token : Token) (amount : UInt64) : TokenBalance :=
  match token with
  | .particle => { balance with particle := amount }
  | .wave => { balance with wave := amount }

lemma get_set (token query amount) : (balance.set token amount).get query =
      if query = token then amount else balance.get query := by
  cases token <;> cases query <;> rfl

end TokenBalance

structure Account where
  address : AccountAddress
  tokenBalance : TokenBalance
  nextNonce : AccountNonce
  deriving DecidableEq

def Account.new (address : AccountAddress) : Account := ⟨address, .zero, 0⟩

structure UserPermission where
  role : BitVec 32
  patterns : List String
  deriving DecidableEq

namespace UserPermission

def read : BitVec 32 := 1
def write : BitVec 32 := 2
def super : BitVec 32 := 4
def admin : BitVec 32 := read ||| write ||| super
def void : BitVec 32 := 0

def fromRole (role : BitVec 32) : UserPermission := ⟨role, []⟩

def hasSuperPermission : Option UserPermission → Bool
  | none => false
  | some permission => permission.role &&& super != 0

end UserPermission

inductive Status where
  | unknownStatus
  | normal
  | reminder
  | arrears
  | arbitration
  deriving DecidableEq

def Status.enableQuery : Status → Bool
  | .normal | .reminder => true
  | _ => false

structure SQLChainUser where
  address : AccountAddress
  permission : Option UserPermission
  advancePayment : UInt64
  arrears : UInt64
  deposit : UInt64
  status : Status
  deriving DecidableEq

structure UserArrears where
  user : AccountAddress
  arrears : UInt64
  deriving DecidableEq

structure MinerInfo where
  address : AccountAddress
  nodeID : NodeID
  pendingIncome : UInt64
  receivedIncome : UInt64
  userArrears : List UserArrears
  deposit : UInt64
  encryptionKey : String
  deriving DecidableEq

structure ResourceMeta where
  targetMiners : List AccountAddress
  node : UInt16
  space : UInt64
  memory : UInt64
  loadAvgPerCPU : Float64
  encryptionKey : String
  useEventualConsistency : Bool
  consistencyLevel : Float64
  isolationLevel : Int
  deriving DecidableEq

structure SQLChainProfile where
  id : DatabaseID
  address : AccountAddress
  period : UInt64
  gasPrice : UInt64
  lastUpdatedHeight : Nat
  tokenType : TokenType
  owner : AccountAddress
  miners : List MinerInfo
  users : List SQLChainUser
  encodedGenesis : List UInt8
  resourceMeta : ResourceMeta
  deriving DecidableEq

structure ProviderProfile where
  provider : AccountAddress
  space : UInt64
  memory : UInt64
  loadAvgPerCPU : Float64
  targetUser : List AccountAddress
  deposit : UInt64
  gasPrice : UInt64
  tokenType : TokenType
  nodeID : NodeID
  deriving DecidableEq

abbrev TransactionType := UInt32

def transactionTypeTransfer : TransactionType := 1
def transactionTypeBaseAccount : TransactionType := 7
def transactionTypeCreateDatabase : TransactionType := 8
def transactionTypeProvideService : TransactionType := 9
def transactionTypeUpdatePermission : TransactionType := 10
def transactionTypeIssueKeys : TransactionType := 11
def transactionTypeUpdateBilling : TransactionType := 12

/-- The mixin is decoded with the message and is not covered by any hash, so the
type tag need not name the kind of the transaction that carries it. -/
structure TransactionTypeMixin where
  txType : TransactionType
  timestamp : Time
  deriving DecidableEq

structure HashSignVerifier where
  dataHash : Hash
  signee : Option PublicKey
  signature : Option Signature
  deriving DecidableEq

structure TransferHeader where
  sender : AccountAddress
  receiver : AccountAddress
  nonce : AccountNonce
  amount : UInt64
  tokenType : TokenType
  deriving DecidableEq

structure CreateDatabaseHeader where
  owner : AccountAddress
  resourceMeta : ResourceMeta
  gasPrice : UInt64
  advancePayment : UInt64
  tokenType : TokenType
  nonce : AccountNonce
  deriving DecidableEq

structure ProvideServiceHeader where
  space : UInt64
  memory : UInt64
  loadAvgPerCPU : Float64
  targetUser : List AccountAddress
  gasPrice : UInt64
  tokenType : TokenType
  nodeID : NodeID
  nonce : AccountNonce
  deriving DecidableEq

structure UpdatePermissionHeader where
  targetSQLChain : AccountAddress
  targetUser : AccountAddress
  permission : Option UserPermission
  nonce : AccountNonce
  deriving DecidableEq

structure MinerKey where
  miner : AccountAddress
  encryptionKey : String
  deriving DecidableEq

structure IssueKeysHeader where
  targetSQLChain : AccountAddress
  minerKeys : List MinerKey
  nonce : AccountNonce
  deriving DecidableEq

structure MinerIncome where
  miner : AccountAddress
  income : UInt64
  deriving DecidableEq

structure UserCost where
  user : AccountAddress
  cost : UInt64
  miners : List (Option MinerIncome)
  deriving DecidableEq

structure UpdateBillingHeader where
  receiver : AccountAddress
  nonce : AccountNonce
  users : List (Option UserCost)
  rangeFrom : Nat
  rangeTo : Nat
  version : Int
  deriving DecidableEq

structure SignedTx (H : Type) where
  header : H
  mixin : TransactionTypeMixin
  verifier : HashSignVerifier
  deriving DecidableEq

inductive Transaction where
  | transfer (tx : SignedTx TransferHeader)
  | baseAccount (account : Account) (mixin : TransactionTypeMixin)
  | provideService (tx : SignedTx ProvideServiceHeader)
  | createDatabase (tx : SignedTx CreateDatabaseHeader)
  | updatePermission (tx : SignedTx UpdatePermissionHeader)
  | issueKeys (tx : SignedTx IssueKeysHeader)
  | updateBilling (tx : SignedTx UpdateBillingHeader)
  | wrapper (inner : Transaction)
  deriving DecidableEq

inductive TxHeader where
  | transfer (header : TransferHeader)
  | provideService (header : ProvideServiceHeader)
  | createDatabase (header : CreateDatabaseHeader)
  | updatePermission (header : UpdatePermissionHeader)
  | issueKeys (header : IssueKeysHeader)
  | updateBilling (header : UpdateBillingHeader)
  deriving DecidableEq

structure BPHeader where
  version : Int
  producer : AccountAddress
  merkleRoot : Hash
  parentHash : Hash
  timestamp : Time
  deriving DecidableEq

structure BPBlock where
  header : BPHeader
  verifier : HashSignVerifier
  transactions : List Transaction
  deriving DecidableEq

namespace BPBlock

def timestamp (block : BPBlock) : Time := block.header.timestamp
def producer (block : BPBlock) : AccountAddress := block.header.producer
def parentHash (block : BPBlock) : Hash := block.header.parentHash
def blockHash (block : BPBlock) : Hash := block.verifier.dataHash

end BPBlock

end SQLess
