import L1xCore.System.Transaction

/-!
# `System.Block` — blocks, votes and vote results

The messages of the consensus and how their signatures are checked. Every signed message converts its
signature and key to arrays of a fixed length first; a message whose key has another length is
rejected before the curve library is asked.
-/

namespace L1xCore

inductive BlockType where
  | L1XTokenBlock
  | L1XContractBlock
  | XTalkTokenBlock
  | XTalkContractBlock
  | SuperBlock
  | SystemBlock
  deriving DecidableEq, Repr

structure BlockHeader where
  blockNumber : BlockNumber
  blockHash : BlockHash
  parentHash : BlockHash
  blockType : BlockType
  clusterAddress : Address
  timestamp : BlockTimeStamp
  numTransactions : Int32
  epoch : Epoch
  blockVersion : BitVec 32
  stateHash : BlockHash
  deriving DecidableEq

structure Block where
  blockHeader : BlockHeader
  transactions : List Transaction
  deriving DecidableEq

def Block.isSystemBlock (block : Block) : Bool := block.blockHeader.blockType = .SystemBlock

structure BlockPayload where
  block : Block
  signature : SignatureBytes
  verifyingKey : VerifyingKeyBytes
  sender : Address
  deriving DecidableEq

structure VoteSignPayload where
  blockNumber : BlockNumber
  epoch : Epoch
  blockHash : BlockHash
  clusterAddress : Address
  vote : Bool
  deriving DecidableEq, Repr

structure Vote where
  data : VoteSignPayload
  validatorAddress : Address
  signature : SignatureBytes
  verifyingKey : VerifyingKeyBytes
  deriving DecidableEq

structure VoteResultSignPayload where
  blockNumber : BlockNumber
  blockHash : BlockHash
  clusterAddress : Address
  votePassed : Bool
  votes : List Vote
  deriving DecidableEq

structure VoteResult where
  data : VoteResultSignPayload
  validatorAddress : Address
  signature : SignatureBytes
  verifyingKey : VerifyingKeyBytes
  deriving DecidableEq

structure BlockProposerPayload where
  /-- The proposer of each epoch, for each cluster. -/
  clusterBlockProposers : List (Address × List (Epoch × Address))
  signature : SignatureBytes
  verifyingKey : VerifyingKeyBytes
  sender : Address
  deriving DecidableEq

/-- The byte encodings of the messages, as they are signed. -/
structure MessageCodec where
  block : Block → Bytes
  voteSignPayload : VoteSignPayload → Bytes
  voteResultSignPayload : VoteResultSignPayload → Bytes
  clusterBlockProposers : List (Address × List (Epoch × Address)) → Bytes
  /-- `BlockManager::compute_block_hash`. -/
  blockHash : Block → BlockHash

/-- The libraries a node is built on. -/
structure Runtime where
  crypto : Crypto
  codec : Codec
  messages : MessageCodec

namespace Runtime

variable (rt : Runtime)

/-- The way every message checks its signature; `keyLength` is the length of the array the key is
    converted to. -/
def verify (keyLength : Nat) (signature : SignatureBytes) (verifyingKey : VerifyingKeyBytes)
    (message : Bytes) (invalid : Error) : Except Error Unit :=
  if signature.length ≠ 64 then .error "Unable to get signature_bytes"
  else if verifyingKey.length ≠ keyLength then .error "Unable to get verifying_bytes"
  else
    match rt.codec.signatureFromBytes signature with
    | none => .error "Failed to get signature from bytes"
    | some signature =>
      match rt.crypto.publicKeyFromSlice verifyingKey with
      | none => .error "Invalid public key"
      | some publicKey =>
        if rt.crypto.ecdsaVerify publicKey message signature then .ok () else .error invalid

def verifyBlockPayload (payload : BlockPayload) : Except Error Unit :=
  rt.verify 33 payload.signature payload.verifyingKey (rt.messages.block payload.block)
    "BlockPayload: Signature is not valid"

def verifyVote (vote : Vote) : Except Error Unit :=
  rt.verify 33 vote.signature vote.verifyingKey (rt.messages.voteSignPayload vote.data)
    "Vote type verify_signature(): Signature is not valid"

def verifyVoteResult (voteResult : VoteResult) : Except Error Unit :=
  rt.verify 33 voteResult.signature voteResult.verifyingKey
    (rt.messages.voteResultSignPayload voteResult.data) "Signature on vote result is not valid"

/-- The key of this message is converted to an array of **32** bytes. -/
def verifyBlockProposerPayload (payload : BlockProposerPayload) : Except Error Unit :=
  rt.verify 32 payload.signature payload.verifyingKey
    (rt.messages.clusterBlockProposers payload.clusterBlockProposers)
    "BlockProposerPayload: Signature is not valid"

end Runtime

/-! ## A runtime to run the model with

A hash that takes the bytes as digits, keys of 33 bytes whose address is their last byte, and signatures made
of the key and the hash of the message. -/

namespace Small

def hash (bytes : Bytes) : BitVec 256 :=
  bytes.foldl (fun h b => h * 257 + b.toBitVec.setWidth 256) 0

/-- The key of the address `n`. -/
def key (n : UInt8) : VerifyingKeyBytes := List.replicate 32 0 ++ [n]

def sign (verifyingKey : VerifyingKeyBytes) (message : Bytes) : SignatureBytes :=
  verifyingKey.drop 1 ++ toBytes 32 (hash message)

def crypto : Crypto where
  keccak256 := hash
  sha256 := hash
  publicKeyFromSlice bytes := if bytes.length = 33 then some bytes else none
  ecdsaVerify publicKey message signature := signature = sign publicKey message

def codec : Codec where
  transactionBytes tx := u128ToBeBytes tx.nonce ++ u128ToBeBytes tx.feeLimit ++ tx.verifyingKey
  v1SignPayload payload := u128ToBeBytes payload.nonce ++ u128ToBeBytes payload.feeLimit
  v3SignPayload payload :=
    (payload.nonce ++ "," ++ payload.feeLimit).toList.map fun c => UInt8.ofNat c.toNat
  signatureFromBytes bytes := if bytes.length = 64 then some bytes else none
  newFromEth _ := .error "not an Ethereum transaction"
  ethTransactionHash _ := .error "not an Ethereum transaction"

def messages : MessageCodec where
  block block := toBytes 32 block.blockHeader.blockHash
  voteSignPayload data := u128ToBeBytes data.blockNumber ++ toBytes 32 data.blockHash ++ toBytes 8 data.epoch
  voteResultSignPayload data := u128ToBeBytes data.blockNumber ++ toBytes 32 data.blockHash
  clusterBlockProposers proposers := [UInt8.ofNat proposers.length]
  blockHash block :=
    hash (u128ToBeBytes block.blockHeader.blockNumber ++ toBytes 8 block.blockHeader.epoch ++
      toBytes 8 block.blockHeader.timestamp)

def runtime : Runtime := ⟨crypto, codec, messages⟩

theorem addressOf_key (n : UInt8) : Account.addressOf crypto (key n) = .ok (n.toBitVec.setWidth 160) := by
  simp [Account.addressOf, crypto, key, hash, Account.ofHash, List.replicate]

def header : BlockHeader :=
  { blockNumber := 1, blockHash := 0, parentHash := 0, blockType := .L1XTokenBlock,
    clusterAddress := 0, timestamp := 0, numTransactions := 0, epoch := 0, blockVersion := 1,
    stateHash := 0 }

end Small

end L1xCore
