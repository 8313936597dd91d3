import SQLess.Merkle.MerkleCore

/-! Hashes and signatures of transactions and blocks (`crypto/verifier/` and `types/`). The hash
functions, the curve and the encoders are fields of `Env`. -/

namespace SQLess

inductive Err where
  | parentNotFound
  | existedTx
  | parentNotMatch
  | tooManyTransactionsInBlock
  | balanceOverflow
  | insufficientBalance
  | insufficientTransfer
  | accountNotFound
  | accountExists
  | databaseNotFound
  | databaseExists
  | databaseUserExists
  | invalidAccountNonce
  | invalidSender
  | invalidRange
  | noSuchMiner
  | noEnoughMiner
  | accountPermissionDeny
  | noSuperUserLeft
  | minerUserNotMatch
  | insufficientAdvancePayment
  | multipleGenesis
  | genesisHashNotMatch
  | invalidGasPrice
  | invalidMinerCount
  | noAvailableBranch
  | wrongTokenType
  | hashValueNotMatch
  | signatureNotMatch
  | merkleRootVerification
  | encoding
  | signing
  | nilPublicKey
  | gasPriceMismatch
  | loadAverageMismatch
  | memoryMismatch
  | diskSpaceMismatch
  | tokenTypeMismatch
  | storage
  | wrapped (context : String) (cause : Err)
  deriving DecidableEq

structure Env where
  pubKeyHash : PublicKey → Option AccountAddress
  txHeaderHash : TxHeader → Option Hash
  bpHeaderHash : BPHeader → Option Hash
  mergeTwoHash : Hash → Hash → Hash
  verifySignature : Signature → Hash → PublicKey → Bool
  signHash : PrivateKey → Hash → Option Signature
  pubKey : PrivateKey → PublicKey
  /-- `hash.THashH` of the text of the address followed by the decimal nonce. -/
  accountNonceHash : AccountAddress → AccountNonce → Hash
  encodeGenesis : Time → Option (List UInt8)
  /-- `uint64(float64(income) * (float64(payment) / float64(cost)))`. -/
  scaleIncome : UInt64 → UInt64 → UInt64 → UInt64
  minProviderDeposit : UInt64
  qps : UInt32
  billingBlockCount : UInt64

def maxPendingTxsPerAccount : AccountNonce := 1000
def maxTransactionsPerBlock : Nat := 10000
def bpHeightCIPFixProvideService : Nat := 675550

def fromAccountAndNonce (env : Env) (address : AccountAddress) (nonce : AccountNonce) :
    DatabaseID :=
  ⟨env.accountNonceHash address nonce⟩

def pubKeyHash (env : Env) : Option PublicKey → Except Err AccountAddress
  | none => .error .nilPublicKey
  | some key =>
    match env.pubKeyHash key with
    | some address => .ok address
    | none => .error .encoding

def signeeAddress (env : Env) (signee : Option PublicKey) : AccountAddress :=
  match pubKeyHash env signee with
  | .ok address => address
  | .error _ => 0

namespace HashSignVerifier

def verifyHash (impl : HashSignVerifier) (computed : Option Hash) : Except Err Unit :=
  match computed with
  | none => .error .encoding
  | some hash => if impl.dataHash = hash then .ok () else .error .hashValueNotMatch

def signatureValid (env : Env) (impl : HashSignVerifier) : Bool :=
  match impl.signature, impl.signee with
  | some signature, some signee => env.verifySignature signature impl.dataHash signee
  | _, _ => false

def verifySignature (env : Env) (impl : HashSignVerifier) : Except Err Unit :=
  if impl.signatureValid env then .ok () else .error .signatureNotMatch

def verify (env : Env) (impl : HashSignVerifier) (computed : Option Hash) : Except Err Unit :=
  match impl.verifyHash computed with
  | .error error => .error error
  | .ok () => impl.verifySignature env

lemma verify_eq_ok (env) (impl : HashSignVerifier) (computed) : impl.verify env computed = .ok () ↔
      computed = some impl.dataHash ∧ impl.signatureValid env = true := by
  cases computed with
  | none => simp [verify, verifyHash]
  | some hash =>
    simp only [verify, verifyHash, verifySignature, Option.some.injEq]
    by_cases same : impl.dataHash = hash
    · simp [same]
    · simp [same, Ne.symm same]

end HashSignVerifier

namespace Transaction

def signed : Transaction → Option (TxHeader × HashSignVerifier)
  | .transfer tx => some (.transfer tx.header, tx.verifier)
  | .baseAccount _ _ => none
  | .provideService tx => some (.provideService tx.header, tx.verifier)
  | .createDatabase tx => some (.createDatabase tx.header, tx.verifier)
  | .updatePermission tx => some (.updatePermission tx.header, tx.verifier)
  | .issueKeys tx => some (.issueKeys tx.header, tx.verifier)
  | .updateBilling tx => some (.updateBilling tx.header, tx.verifier)
  | .wrapper inner => inner.signed

def hash (tx : Transaction) : Hash :=
  match tx.signed with
  | some (_, impl) => impl.dataHash
  | none => 0

def verify (env : Env) (tx : Transaction) : Except Err Unit :=
  match tx.signed with
  | some (header, impl) => impl.verify env (env.txHeaderHash header)
  | none => .ok ()

def getTransactionType : Transaction → TransactionType
  | .transfer tx => tx.mixin.txType
  | .baseAccount _ mixin => mixin.txType
  | .provideService tx => tx.mixin.txType
  | .createDatabase tx => tx.mixin.txType
  | .updatePermission tx => tx.mixin.txType
  | .issueKeys tx => tx.mixin.txType
  | .updateBilling tx => tx.mixin.txType
  | .wrapper inner => inner.getTransactionType

def getAccountNonce : Transaction → AccountNonce
  | .transfer tx => tx.header.nonce
  | .baseAccount _ _ => 0
  | .provideService tx => tx.header.nonce
  | .createDatabase tx => tx.header.nonce
  | .updatePermission tx => tx.header.nonce
  | .issueKeys tx => tx.header.nonce
  | .updateBilling tx => tx.header.nonce
  | .wrapper inner => inner.getAccountNonce

def getAccountAddress (env : Env) : Transaction → AccountAddress
  | .transfer tx => tx.header.sender
  | .baseAccount account _ => account.address
  | .provideService tx => signeeAddress env tx.verifier.signee
  | .createDatabase tx => signeeAddress env tx.verifier.signee
  | .updatePermission tx => signeeAddress env tx.verifier.signee
  | .issueKeys tx => signeeAddress env tx.verifier.signee
  | .updateBilling tx => signeeAddress env tx.verifier.signee
  | .wrapper inner => inner.getAccountAddress env

def unwrap : Transaction → Transaction
  | .wrapper inner => inner.unwrap
  | tx => tx

def isBaseAccount : Transaction → Bool
  | .baseAccount _ _ => true
  | .wrapper inner => inner.isBaseAccount
  | _ => false

def isProvideService : Transaction → Bool
  | .provideService _ => true
  | .wrapper inner => inner.isProvideService
  | _ => false

end Transaction

namespace BPBlock

variable (env : Env) (block : BPBlock)

def getTxHashes : List Hash := block.transactions.map Transaction.hash

def merkleRoot (transactions : List Transaction) : Option Hash :=
  Merkle.root env.mergeTwoHash (transactions.map Transaction.hash)

def verifyMerkleRoot : Option (Except Err Unit) :=
  (merkleRoot env block.transactions).map fun root =>
    if root = block.header.merkleRoot then .ok () else .error .merkleRootVerification

def verifyHash : Option (Except Err Unit) :=
  (block.verifyMerkleRoot env).map fun checked =>
    match checked with
    | .error error => .error error
    | .ok () => block.verifier.verifyHash (env.bpHeaderHash block.header)

def verify : Option (Except Err Unit) :=
  (block.verifyMerkleRoot env).map fun checked =>
    match checked with
    | .error error => .error error
    | .ok () => block.verifier.verify env (env.bpHeaderHash block.header)

def packAndSign (header : BPHeader) (transactions : List Transaction)
    (signer : PrivateKey) : Option (Except Err BPBlock) :=
  (merkleRoot env transactions).map fun root =>
    let header := { header with merkleRoot := root }
    match env.bpHeaderHash header with
    | none => .error .encoding
    | some hash =>
      match env.signHash signer hash with
      | none => .error .signing
      | some signature =>
        .ok ⟨header, ⟨hash, some (env.pubKey signer), some signature⟩, transactions⟩

end BPBlock

end SQLess
