import L1xCore.System.Block
import L1xCore.Lib.Table

/-!
# `System.NodeRecords` — what nodes say about themselves and about each other

`system/src/node_info.rs` and `system/src/node_health.rs`. A node info names an address and a peer id, but
the signature in it is one of its `data`, which has neither of them. A node health report is signed as a
whole. The key is part of both messages.

The two measures of a report that are floating-point numbers stay abstract: what is computed with them is
the median, which asks for no more than the operations of `Measure`.
-/

namespace L1xCore

structure NodeInfoSignPayload where
  ipAddress : Bytes
  metadata : Bytes
  clusterAddress : Address
  deriving DecidableEq, Repr

structure NodeInfo where
  peerId : String
  data : NodeInfoSignPayload
  address : Address
  joinedEpoch : Epoch
  signature : SignatureBytes
  verifyingKey : VerifyingKeyBytes
  deriving DecidableEq, Repr

/-- `F` stands for `f64`. -/
structure NodeHealth (F : Type) where
  measuredPeerId : String
  peerId : String
  epoch : Epoch
  joinedEpoch : Epoch
  uptimePercentage : F
  responseTimeMs : BitVec 64
  transactionCount : BitVec 64
  blockProposalCount : BitVec 64
  anomalyScore : F
  nodeHealthVersion : BitVec 32
  deriving DecidableEq, Repr

structure NodeHealthPayload (F : Type) where
  nodeHealth : NodeHealth F
  signature : SignatureBytes
  verifyingKey : VerifyingKeyBytes
  sender : Address
  deriving DecidableEq, Repr

/-- The byte encodings of the two messages, as they are signed. -/
structure RecordCodec (F : Type) where
  nodeInfoSignPayload : NodeInfoSignPayload → Bytes
  nodeHealth : NodeHealth F → Bytes

namespace Runtime

variable {F : Type} (rt : Runtime) (records : RecordCodec F)

/-- Only the `data` of the record is signed. -/
def verifyNodeInfo (info : NodeInfo) : Except Error Unit :=
  rt.verify 33 info.signature info.verifyingKey (records.nodeInfoSignPayload info.data)
    "NodeInfo: Signature is not valid"

/-- Nothing is converted to an array here. -/
def verifyNodeHealthPayload (payload : NodeHealthPayload F) : Except Error Unit :=
  match rt.codec.signatureFromBytes payload.signature with
  | none => .error "Failed to get signature from bytes"
  | some signature =>
    match rt.crypto.publicKeyFromSlice payload.verifyingKey with
    | none => .error "Invalid public key"
    | some publicKey =>
      if rt.crypto.ecdsaVerify publicKey (records.nodeHealth payload.nodeHealth) signature then .ok ()
      else .error "NodeInfo: Signature is not valid"

end Runtime

/-! ## The aggregation of reports -/

/-- What `median` asks of its type: `PartialOrd + Add + Div + From<u8>`. -/
class Measure (T : Type) where
  partialCmp : T → T → Option Ordering
  add : T → T → T
  div : T → T → T
  ofByte : BitVec 8 → T

/-- `u64`; the sum of the two middle values wraps. -/
instance : Measure (BitVec 64) where
  partialCmp a b := some (compare a.toNat b.toNat)
  add a b := a + b
  div a b := a / b
  ofByte b := b.setWidth 64

/-- Values that cannot be compared count as equal. -/
def Measure.le {T : Type} [Measure T] (a b : T) : Prop := (partialCmp a b).getD .eq ≠ .gt

instance {T : Type} [Measure T] : DecidableRel (Measure.le (T := T)) :=
  fun _ _ => inferInstanceAs (Decidable (_ ≠ _))

namespace NodeHealth

def median {T : Type} [Measure T] (values : List T) : T :=
  let sorted := values.insertionSort Measure.le
  let len := sorted.length
  let middle (i : Nat) : T := sorted.getD i (Measure.ofByte 0)
  if len = 0 then Measure.ofByte 0
  else if len % 2 = 0 then
    Measure.div (Measure.add (middle (len / 2 - 1)) (middle (len / 2))) (Measure.ofByte 2)
  else middle (len / 2)

def maximum (counts : List (BitVec 64)) : BitVec 64 :=
  counts.foldl (fun count other => if count < other then other else count) 0

variable {F : Type} [Measure F]

/-- The peer and the epoch are those of the first report; counts are maxima, and the rest are medians. -/
def aggregate : List (NodeHealth F) → Option (NodeHealth F)
  | [] => none
  | first :: others =>
    let reports := first :: others
    some
      { measuredPeerId := first.measuredPeerId
        peerId := first.measuredPeerId
        epoch := first.epoch
        joinedEpoch := 0
        uptimePercentage := median (reports.map (·.uptimePercentage))
        responseTimeMs := median (reports.map (·.responseTimeMs))
        transactionCount := maximum (reports.map (·.transactionCount))
        blockProposalCount := maximum (reports.map (·.blockProposalCount))
        anomalyScore := median (reports.map (·.anomalyScore))
        nodeHealthVersion := 0 }

/-- `aggregate_network_health`, without the peer ids, which are not used. -/
def aggregateNetworkHealth (reports : Table String (List (NodeHealth F))) : List (NodeHealth F) :=
  reports.entries.filterMap fun entry => aggregate entry.2

end NodeHealth

end L1xCore
