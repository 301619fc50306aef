import L1xCore.Consensus.ProposerAuthority
import L1xCore.Lib.Trace
import L1xCore.Validator.RecordsRead

/-!
# `Consensus.NodeRecords` — who has signed what the selection reads

`consensus/src/consensus.rs` has four handlers for the records of nodes.

* `receive_node_info` asks for a signature of the `data` under the key that comes with it. This key is not
  compared with the address of the record, and the peer id is not signed.
* `receive_signed_node_health` asks for a signature of the report under the key that comes with it. The key
  is not compared with the proposer of the epoch.
* `receive_node_health` collects reports at the proposer, and `aggregate_and_broadcast_node_health` makes
  records of them.

So a record that the selection reads has been signed by someone. In a run whose senders are those the code
takes them for, it has been signed by the node it speaks for, or by the proposer of its epoch
(`reads_authentic`).
-/

namespace L1xCore

open Fallible Node ChainTables ValidatorManager List
open Account (addressOf)

variable {info : NodeInfo} {epoch : Epoch} {lastBlockHeader : BlockHeader}

/-- A node with its tables of records. -/
structure RecordState (F : Type) where
  node : NodeState
  tables : NodeTables F
  nodeHealthReports : Table String (List (NodeHealth F))
  /-- The records the node has written as the proposer; the code keeps no such list. -/
  aggregated : List (NodeHealth F)

abbrev RecordOp (F α : Type) : Type := Fallible (RecordState F) Error α

/-- A node, the encodings of the records, and how it selects validators. -/
structure RecordingNode (F : Type) where
  node : Node
  records : RecordCodec F
  manager : ValidatorManager (NodeHealth F)

/-- A call of a handler: one of those that work on blocks, or one of those for records. -/
inductive RecordInput (F : Type) where
  | consensus (input : NodeInput)
  | receiveNodeInfo (info : NodeInfo)
  | receiveNodeHealth (nodeHealths : List (NodeHealth F))
  | receiveSignedNodeHealth (signedNodeHealths : List (NodeHealthPayload F))
  | aggregateAndBroadcastNodeHealth (order : IterationOrder F) (epoch : Epoch)

/-- A call, with the rows its queries pick. -/
structure RecordCall (F : Type) where
  rows : RowChoice
  healths : HealthChoice F
  input : RecordInput F

namespace RecordingNode

variable {F : Type} (r : RecordingNode F) (choice : RowChoice)

/-! ## The handlers -/

def onTables {α : Type} (x : Fallible (NodeTables F) Error α) : RecordOp F α :=
  zoom RecordState.tables (fun tables s => { s with tables }) x

def verifyNodeInfo (info : NodeInfo) : Except Error Unit :=
  r.node.platform.rt.verifyNodeInfo r.records info

def verifyNodeHealthPayload (payload : NodeHealthPayload F) : Except Error Unit :=
  r.node.platform.rt.verifyNodeHealthPayload r.records payload

def receiveNodeInfo (info : NodeInfo) : RecordOp F Unit := do
  lift (r.verifyNodeInfo info)
  onTables (update (·.createOrUpdate info))

/-- One more report on the measured peer. -/
def collect (reports : Table String (List (NodeHealth F))) (health : NodeHealth F) :
    Table String (List (NodeHealth F)) :=
  reports.insert health.measuredPeerId
    ((reports.lookup health.measuredPeerId).getD [] ++ [health])

/-- The epoch is that of the first report. -/
def receiveNodeHealth (nodeHealths : List (NodeHealth F)) : RecordOp F Unit :=
  match nodeHealths with
  | [] => fail "No node health data received"
  | first :: _ => do
    let s ← state
    let blockProposer ← lift
      (s.node.chain.loadBlockProposer choice r.node.clusterAddress first.epoch)
    if r.node.nodeAddress = blockProposer.address then
      update fun s => { s with nodeHealthReports := nodeHealths.foldl collect s.nodeHealthReports }
    else pure ()

def receiveSignedNodeHealth (signedNodeHealths : List (NodeHealthPayload F)) : RecordOp F Unit :=
  forEach signedNodeHealths fun payload =>
    match r.verifyNodeHealthPayload payload with
    | .ok () => onTables (NodeTables.storeNodeHealth payload.nodeHealth)
    -- only a warning
    | .error _ => pure ()

/-- A record of the node itself. -/
def storeAggregated (health : NodeHealth F) : RecordOp F Unit := do
  onTables (NodeTables.storeNodeHealth health)
  update fun s => { s with aggregated := s.aggregated ++ [health] }

def aggregateAndBroadcastNodeHealth [Measure F] (order : IterationOrder F) (epoch : Epoch) :
    RecordOp F Unit := do
  let s ← state
  let blockProposer ← lift (s.node.chain.loadBlockProposer choice r.node.clusterAddress epoch)
  if r.node.nodeAddress = blockProposer.address then do
    update fun s => { s with nodeHealthReports := ∅ }
    forEach (order.arrange (NodeHealth.aggregateNetworkHealth s.nodeHealthReports)) storeAggregated
  else pure ()

/-- The node as it selects validators from the tables. -/
def selecting (healths : HealthChoice F) (t : NodeTables F) : Node :=
  { r.node with selectValidatorsForEpoch := (r.manager.reading healths t).selectValidatorsForEpoch }

/-- The state after a call. -/
def step [Measure F] (s : RecordState F) (call : RecordCall F) : RecordState F :=
  match call.input with
  | .consensus input =>
    { s with node := (r.selecting call.healths s.tables).step s.node (call.rows, input) }
  | .receiveNodeInfo info => ((r.receiveNodeInfo info).run s).2
  | .receiveNodeHealth nodeHealths => ((r.receiveNodeHealth call.rows nodeHealths).run s).2
  | .receiveSignedNodeHealth payloads => ((r.receiveSignedNodeHealth payloads).run s).2
  | .aggregateAndBroadcastNodeHealth order epoch =>
    ((r.aggregateAndBroadcastNodeHealth call.rows order epoch).run s).2

def run [Measure F] (s : RecordState F) (calls : List (RecordCall F)) : RecordState F :=
  calls.foldl r.step s

/-! ## What a call writes -/

/-- The node info of a call that is accepted and written. -/
def acceptedInfos (s : RecordState F) : RecordInput F → List NodeInfo
  | .receiveNodeInfo info =>
    if r.verifyNodeInfo info = .ok () ∧ s.tables.isOpen info.address = true then [info] else []
  | _ => []

/-- The node health of a call that is accepted. -/
def acceptedHealths : RecordInput F → List (NodeHealthPayload F)
  | .receiveSignedNodeHealth payloads =>
    payloads.filter fun payload => r.verifyNodeHealthPayload payload = .ok ()
  | _ => []

/-- All that was written are accepted records and records of the node itself. -/
structure Adds (infos : List NodeInfo) (healths : List (NodeHealthPayload F))
    (s s' : RecordState F) : Prop where
  proposers : s.node.chain.blockProposer ⊆ s'.node.chain.blockProposer
  aggregated : s.aggregated ⊆ s'.aggregated
  nodeInfo : ∀ address info, s'.tables.nodeInfo.lookup address = some info →
    s.tables.nodeInfo.lookup address = some info ∨ (info ∈ infos ∧ info.address = address)
  nodeHealth : ∀ health ∈ s'.tables.nodeHealth, health ∈ s.tables.nodeHealth ∨
    health ∈ s'.aggregated ∨ ∃ payload ∈ healths, payload.nodeHealth = health

variable {r choice} {infos : List NodeInfo} {payloads : List (NodeHealthPayload F)} {s s' : RecordState F}

theorem eq_of_mem_acceptedInfos {other : NodeInfo} (h : other ∈ r.acceptedInfos s (.receiveNodeInfo info)) :
    other = info := by
  simp only [acceptedInfos] at h
  split at h
  · exact mem_singleton.mp h
  · cases h

instance : Std.Refl (Adds infos payloads) where
  refl _ := ⟨List.Subset.refl _, List.Subset.refl _, fun _ _ h => .inl h, fun _ h => .inl h⟩

instance : IsTrans (RecordState F) (Adds infos payloads) where
  trans s₁ s₂ s₃ h₁ h₂ := by
    refine ⟨List.Subset.trans h₁.proposers h₂.proposers, List.Subset.trans h₁.aggregated h₂.aggregated,
      ?_, ?_⟩
    · intro address info hinfo
      rcases h₂.nodeInfo address info hinfo with hold | hnew
      · exact h₁.nodeInfo address info hold
      · exact .inr hnew
    · intro health hhealth
      rcases h₂.nodeHealth health hhealth with hold | hnew
      · rcases h₁.nodeHealth health hold with hold | hown | hnew
        · exact .inl hold
        · exact .inr (.inl (h₂.aggregated hown))
        · exact .inr (.inr hnew)
      · exact .inr hnew

theorem adds_of_sameTables (hproposers : s.node.chain.blockProposer ⊆ s'.node.chain.blockProposer)
    (hown : s'.aggregated = s.aggregated) (htables : s'.tables = s.tables) : Adds infos payloads s s' := by
  refine ⟨hproposers, ?_, ?_, ?_⟩
  · rw [hown]
    exact .refl _
  · intro address info hinfo
    rw [htables] at hinfo
    exact .inl hinfo
  · intro health hhealth
    rw [htables] at hhealth
    exact .inl hhealth

theorem storeNodeHealth_adds {payload : NodeHealthPayload F} (hmem : payload ∈ payloads) :
    Moves (Adds infos payloads) (onTables (NodeTables.storeNodeHealth payload.nodeHealth)) := by
  intro s
  unfold onTables
  rw [run_zoom]
  rcases NodeTables.storeNodeHealth_cases with ⟨e, hrun⟩ | hrun
  · rw [hrun]
    exact refl_of (Adds infos payloads) s
  · rw [hrun]
    refine ⟨.refl _, .refl _, fun _ _ h => .inl h, ?_⟩
    intro health hhealth
    rcases mem_append.mp hhealth with hold | hnew
    · exact .inl hold
    · exact .inr (.inr ⟨payload, hmem, (mem_singleton.mp hnew).symm⟩)

theorem storeAggregated_adds (health : NodeHealth F) :
    Moves (Adds infos payloads) (storeAggregated health) := by
  intro s
  unfold storeAggregated
  have hzoom : (onTables (NodeTables.storeNodeHealth health)).run s = _ := run_zoom _ _ _ s
  rcases NodeTables.storeNodeHealth_cases with ⟨e, hrun⟩ | hrun
  · rw [hrun] at hzoom
    rw [run_bind_of_error hzoom]
    exact refl_of (Adds infos payloads) s
  · rw [hrun] at hzoom
    rw [run_bind_of_ok hzoom, run_update]
    refine ⟨.refl _, subset_append_left _ _, fun _ _ h => .inl h, ?_⟩
    intro other hother
    rcases mem_append.mp hother with hold | hnew
    · exact .inl hold
    · exact .inr (.inl (mem_append_right _ hnew))

theorem receiveNodeInfo_adds :
    Adds (r.acceptedInfos s (.receiveNodeInfo info)) payloads s ((r.receiveNodeInfo info).run s).2 := by
  unfold receiveNodeInfo
  cases hverified : r.verifyNodeInfo info with
  | error e => exact refl_of (Adds _ _) s
  | ok =>
    show Adds _ payloads s { s with tables := s.tables.createOrUpdate info }
    rcases NodeTables.createOrUpdate_cases with hsame | ⟨hopen, hwritten⟩
    · rw [hsame]
      exact refl_of (Adds _ _) s
    · have hinfos : r.acceptedInfos s (.receiveNodeInfo info) = [info] := if_pos ⟨hverified, hopen⟩
      rw [hinfos, hwritten]
      refine ⟨.refl _, .refl _, ?_, fun _ h => .inl h⟩
      intro address found hfound
      by_cases haddress : info.address = address
      · subst haddress
        rw [AList.lookup_insert] at hfound
        cases hfound
        exact .inr ⟨mem_singleton_self info, rfl⟩
      · rw [AList.lookup_insert_ne (symm haddress)] at hfound
        exact .inl hfound

end RecordingNode

/-! ### Proposers stay -/

namespace Node

variable {n : Node} {condition : NodeState → NodeInput → Prop} {s s' : NodeState}

theorem storeBlockProposer_subset (proposer : BlockProposer) :
    Moves (fun t t' : ChainTables => t.blockProposer ⊆ t'.blockProposer) (storeBlockProposer proposer) := by
  intro t row hrow
  exact mem_insertProposer.mpr (.inl hrow)

theorem Effect.proposers_subset (h : n.Effect condition s s') :
    s.chain.blockProposer ⊆ s'.chain.blockProposer := by
  have hsame : ∀ {rows : List BlockProposer}, rows = s.chain.blockProposer →
      s.chain.blockProposer ⊆ rows := by
    rintro _ rfl
    exact .refl _
  cases h with
  | vote | accept | pass | finish | propose | storeValidators | keepVote | keepVoteResult | keepBlock
  | remove | dropConflicting => exact .refl _
  | select proposer => exact storeBlockProposer_subset proposer s.chain
  | @announce payload hvalid =>
    have : Std.Refl fun t t' : ChainTables => t.blockProposer ⊆ t'.blockProposer := ⟨fun _ => .refl _⟩
    have hmoves := Moves.forEach
      (fun cluster : Address × List (Epoch × Address) => .forEach
        (fun row : Epoch × Address => storeBlockProposer_subset ⟨cluster.1, row.1, row.2⟩) cluster.2)
      payload.clusterBlockProposers
    exact hmoves s.chain
  | storeApproved | storeReceived => exact hsame (storeBlock_blockProposer _)
  | storeVoteResult voteResult =>
    exact hsame (storeVoteResult_blockProposer voteResult s.chain)
  | @execute block hstored =>
    rcases World.executeBlock_chain_cases with hchain | hmarked
    · exact hsame (congrArg blockProposer hchain)
    · exact hsame ((congrArg blockProposer hmarked).trans (setBlockExecuted_blockProposer _ _))

theorem step_proposers_subset {call : RowChoice × NodeInput} :
    s.chain.blockProposer ⊆ (n.step s call).chain.blockProposer := by
  have hreach : n.Reach (fun _ _ => True) s (n.step s call) := n.reach_step s call trivial
  refine hreach.preserves (I := fun t => s.chain.blockProposer ⊆ t.chain.blockProposer) ?_
    (.refl _)
  intro t t' heffect hsub
  exact Subset.trans hsub heffect.proposers_subset

end Node

namespace RecordingNode

variable {F : Type} [Measure F] {r : RecordingNode F}

/-- **What one call writes.** -/
theorem step_adds (s : RecordState F) (call : RecordCall F) :
    Adds (r.acceptedInfos s call.input) (r.acceptedHealths call.input) s (r.step s call) := by
  unfold step
  cases call.input with
  | consensus input => exact adds_of_sameTables step_proposers_subset rfl rfl
  | receiveNodeInfo info => exact receiveNodeInfo_adds
  | receiveNodeHealth nodeHealths =>
    dsimp only [receiveNodeHealth]
    split
    · exact Moves.fail (R := Adds _ _) _ s
    · refine Moves.bind (R := Adds _ _) .state (fun s => (Moves.lift _).bind fun blockProposer => ?_) s
      split
      · exact .update fun s => adds_of_sameTables (.refl _) rfl rfl
      · exact .pure ()
  | receiveSignedNodeHealth payloads =>
    refine Moves.forEach_mem (R := Adds _ _) (fun payload hpayload => ?_) s
    split
    · next hverified =>
        apply storeNodeHealth_adds
        exact mem_filter.mpr ⟨hpayload, decide_eq_true hverified⟩
    · exact .pure ()
  | aggregateAndBroadcastNodeHealth order epoch =>
    refine Moves.bind (R := Adds _ _) .state (fun s => (Moves.lift _).bind fun blockProposer => ?_) s
    split
    · refine .bind (.update fun s => ?_) fun _ => .forEach storeAggregated_adds _
      exact adds_of_sameTables (.refl _) rfl rfl
    · exact .pure ()

end RecordingNode

/-! ## Authentic records -/

/-- What the holders of keys have signed. A node info is signed for a peer id, though the bytes that are
    signed do not have it. -/
structure Signatures (F : Type) where
  nodeInfo : VerifyingKeyBytes → String → NodeInfoSignPayload → Prop
  nodeHealth : VerifyingKeyBytes → NodeHealth F → Prop

namespace RecordingNode

variable {F : Type} (r : RecordingNode F) (signed : Signatures F) (s : RecordState F)

/-- The node info is that of a key with this address, the peer id included. -/
def InfoAuthentic (address : Address) (info : NodeInfo) : Prop :=
  ∃ key, addressOf r.node.platform.rt.crypto key = .ok address ∧ signed.nodeInfo key info.peerId info.data

/-- The node has made the record itself, or it was signed with a key of a proposer of the epoch. -/
def HealthAuthentic (epoch : Epoch) (health : NodeHealth F) : Prop :=
  health ∈ s.aggregated ∨
    ∃ key proposer, addressOf r.node.platform.rt.crypto key = .ok proposer ∧
      ⟨r.node.clusterAddress, epoch, proposer⟩ ∈ s.node.chain.blockProposer ∧ signed.nodeHealth key health

def Authentic : RecordRead F → Prop
  | .nodeInfo address info => r.InfoAuthentic signed address info
  | .nodeHealth epoch health => r.HealthAuthentic signed s epoch health

/-- Every record in the tables is authentic. -/
structure Authenticated : Prop where
  nodeInfo : ∀ address info, s.tables.nodeInfo.lookup address = some info →
    r.InfoAuthentic signed address info
  nodeHealth : ∀ health ∈ s.tables.nodeHealth, r.HealthAuthentic signed s health.epoch health

/-- Signatures are not forged: what is accepted was signed with the key that comes with it. -/
structure Unforged (input : RecordInput F) : Prop where
  nodeInfo : ∀ info ∈ r.acceptedInfos s input, ∃ peerId, signed.nodeInfo info.verifyingKey peerId info.data
  nodeHealth : ∀ payload ∈ r.acceptedHealths input, signed.nodeHealth payload.verifyingKey payload.nodeHealth

/-- The key that comes with a node info has its address, and the data was signed for no other peer id; the
    key that comes with a node health is that of a proposer of its epoch. -/
structure FromItsOwner (input : RecordInput F) : Prop where
  nodeInfo : ∀ info ∈ r.acceptedInfos s input,
    addressOf r.node.platform.rt.crypto info.verifyingKey = .ok info.address ∧
      ∀ peerId, signed.nodeInfo info.verifyingKey peerId info.data → peerId = info.peerId
  nodeHealth : ∀ payload ∈ r.acceptedHealths input, ∃ proposer,
    addressOf r.node.platform.rt.crypto payload.verifyingKey = .ok proposer ∧
      ⟨r.node.clusterAddress, payload.nodeHealth.epoch, proposer⟩ ∈ s.node.chain.blockProposer

variable {r signed s} {payloads : List (NodeHealthPayload F)} {choice : HealthChoice F}
  {record : RecordRead F}

theorem Unforged.ofNodeInfo (h : ∃ peerId, signed.nodeInfo info.verifyingKey peerId info.data) :
    r.Unforged signed s (.receiveNodeInfo info) := by
  refine ⟨fun other hother => ?_, fun _ hpayload => nomatch hpayload⟩
  rw [eq_of_mem_acceptedInfos hother]
  exact h

theorem Unforged.ofNodeHealth
    (h : ∀ payload ∈ payloads, signed.nodeHealth payload.verifyingKey payload.nodeHealth) :
    r.Unforged signed s (.receiveSignedNodeHealth payloads) :=
  ⟨fun _ hinfo => (nomatch hinfo), fun payload hpayload => h payload (mem_of_mem_filter hpayload)⟩

theorem FromItsOwner.ofNodeInfo
    (hkey : addressOf r.node.platform.rt.crypto info.verifyingKey = .ok info.address)
    (honly : ∀ peerId, signed.nodeInfo info.verifyingKey peerId info.data → peerId = info.peerId) :
    r.FromItsOwner signed s (.receiveNodeInfo info) := by
  refine ⟨fun other hother => ?_, fun _ hpayload => nomatch hpayload⟩
  rw [eq_of_mem_acceptedInfos hother]
  exact ⟨hkey, honly⟩

theorem FromItsOwner.ofNodeHealth
    (h : ∀ payload ∈ payloads, ∃ proposer,
      addressOf r.node.platform.rt.crypto payload.verifyingKey = .ok proposer ∧
        ⟨r.node.clusterAddress, payload.nodeHealth.epoch, proposer⟩ ∈ s.node.chain.blockProposer) :
    r.FromItsOwner signed s (.receiveSignedNodeHealth payloads) :=
  ⟨fun _ hinfo => (nomatch hinfo), fun payload hpayload => h payload (mem_of_mem_filter hpayload)⟩

/-- A call that comes from the owners of its records keeps the tables authentic. -/
theorem Authenticated.step [Measure F] {call : RecordCall F} (hunforged : r.Unforged signed s call.input)
    (howner : r.FromItsOwner signed s call.input) (hs : r.Authenticated signed s) :
    r.Authenticated signed (r.step s call) := by
  have hadds := r.step_adds s call
  constructor
  · intro address info hinfo
    rcases hadds.nodeInfo address info hinfo with hold | ⟨hnew, rfl⟩
    · exact hs.nodeInfo address info hold
    · obtain ⟨hkey, honly⟩ := howner.nodeInfo info hnew
      obtain ⟨peerId, hsigned⟩ := hunforged.nodeInfo info hnew
      rw [honly peerId hsigned] at hsigned
      exact ⟨info.verifyingKey, hkey, hsigned⟩
  · intro health hhealth
    rcases hadds.nodeHealth health hhealth with hold | hown | ⟨payload, hpayload, rfl⟩
    · rcases hs.nodeHealth health hold with hown | ⟨key, proposer, hkey, hrow, hsigned⟩
      · exact .inl (hadds.aggregated hown)
      · exact .inr ⟨key, proposer, hkey, hadds.proposers hrow, hsigned⟩
    · exact .inl hown
    · obtain ⟨proposer, hkey, hrow⟩ := howner.nodeHealth payload hpayload
      exact .inr ⟨payload.verifyingKey, proposer, hkey, hadds.proposers hrow,
        hunforged.nodeHealth payload hpayload⟩

theorem Authenticated.selectionReads (hs : r.Authenticated signed s) {w : World}
    (h : record ∈ r.manager.selectionReads choice s.tables w lastBlockHeader epoch) :
    r.Authentic signed s record := by
  unfold ValidatorManager.selectionReads at h
  split at h
  · next config stakingInfo _ _ =>
      generalize stakingInfo.nodes.entries = nodes at h
      induction nodes with
      | nil => cases h
      | cons node nodes ih =>
        rcases mem_append.mp h with hfirst | hothers
        · unfold candidateReads at hfirst
          split at hfirst
          · cases hfirst
          split at hfirst
          · cases hfirst
          next found hfound =>
          rcases mem_cons.mp hfirst with rfl | hfirst
          · exact hs.nodeInfo _ found (NodeTables.lookup_of_loadNodeInfo hfound)
          split at hfirst
          · cases hfirst
          obtain ⟨health, hhealth, rfl⟩ := mem_map.mp hfirst
          obtain ⟨hmem, -, hepoch⟩ := NodeTables.mem_of_loadNodeHealth (Option.mem_toList.mp hhealth)
          have hauthentic := hs.nodeHealth health hmem
          rw [hepoch] at hauthentic
          exact hauthentic
        · split at hothers
          · cases hothers
          · exact ih hothers
  · cases h

variable [Measure F]

/-- **The selection reads authentic records**, in every state of a run in which no signature is forged and
    every record comes from its owner: whatever world the state has got to in the middle of a call, and
    whichever rows the queries pick. -/
theorem reads_authentic {calls : List (RecordCall F)} (hstart : r.Authenticated signed s)
    (hcalls : Trace.AllMeet r.step
      (fun s call => r.Unforged signed s call.input ∧ r.FromItsOwner signed s call.input) s calls)
    (choice : HealthChoice F) (w : World) (lastBlockHeader : BlockHeader) (epoch : Epoch) :
    ∀ record ∈ r.manager.selectionReads choice (r.run s calls).tables w lastBlockHeader epoch,
      r.Authentic signed (r.run s calls) record := by
  intro record hrecord
  have hend : r.Authenticated signed (r.run s calls) :=
    hcalls.foldl (fun s call hcall hs => hs.step hcall.1 hcall.2) hstart
  exact hend.selectionReads hrecord

/-! ## Two nodes with stake

Nodes 5 and 6 have stake, and the proposer of epoch 1 is node 9. The records are received by node 1. -/

/-- The data is encoded by its first part, and a report by its peer. -/
def smallRecords : RecordCodec (BitVec 64) where
  nodeInfoSignPayload data := data.ipAddress
  nodeHealth health := health.peerId.toList.map fun c => UInt8.ofNat c.toNat

def receiver : RecordingNode (BitVec 64) where
  node := Small.node 1 fun _ => []
  records := smallRecords
  manager :=
    { crypto := Small.crypto
      loadNodeInfo := fun _ _ => .error "Diesel query failed: Record not found"
      loadNodeHealth := fun _ _ _ => .ok none
      calculateXscore := fun _ _ _ _ => .ok 1
      partialShuffle := fun _ validators amount => validators.take amount
      partialShuffle_subperm := fun _ => take_subperm
      length_partialShuffle := fun _ _ _ => length_take }

def firstHealth : HealthChoice (BitVec 64) where
  pick := List.head?
  mem_of_pick := mem_of_mem_head?
  eq_nil_of_pick := List.head?_eq_none_iff.mp

def withStake : World :=
  let w := Small.atHead 150 [] [⟨0, 1, 9⟩]
  { w with
    caches.stakingInfo := some (.refresh
      ((∅ : Table Address NodePoolInfo).insert 5 ⟨20, 5, 10⟩ |>.insert 6 ⟨20, 6, 10⟩)) }

/-- Nothing is known of any node. -/
def noRecords : RecordState (BitVec 64) := ⟨start withStake, ⟨∅, []⟩, ∅, []⟩

theorem noRecords_authenticated {signed : Signatures (BitVec 64)} :
    receiver.Authenticated signed noRecords := by
  constructor
  · intro address info hinfo
    cases hinfo
  · intro health hhealth
    cases hhealth

/-- The node info of an address, with a signature of some key. -/
def infoFor (signer : UInt8) (address : Address) (peerId : String) : NodeInfo :=
  { peerId, data := ⟨[signer], [], 0⟩, address, joinedEpoch := 0
    signature := Small.sign (Small.key signer) [signer]
    verifyingKey := Small.key signer }

/-- A report on a peer in epoch 1, with a signature of some key. -/
def healthOf (signer : UInt8) (peerId : String) : NodeHealthPayload (BitVec 64) :=
  let health : NodeHealth (BitVec 64) := ⟨peerId, peerId, 1, 0, 99, 1, 0, 0, 0, 0⟩
  { nodeHealth := health
    signature := Small.sign (Small.key signer) (smallRecords.nodeHealth health)
    verifyingKey := Small.key signer
    sender := signer.toBitVec.setWidth 160 }

def received (input : RecordInput (BitVec 64)) : RecordCall (BitVec 64) := ⟨.first, firstHealth, input⟩

/-- The records that the selection at block 150 reads after some messages. -/
def readAfter (inputs : List (RecordInput (BitVec 64))) : List (RecordRead (BitVec 64)) :=
  receiver.manager.selectionReads firstHealth (receiver.run noRecords (inputs.map received)).tables
    withStake { Small.header with blockNumber := 150 } 2

/-- Node 5 is known as `five`, and the proposer reports on it. -/
def honestMessages : List (RecordInput (BitVec 64)) :=
  [.receiveNodeInfo (infoFor 5 5 "five"), .receiveSignedNodeHealth [healthOf 9 "five"]]

def honestSignatures : Signatures (BitVec 64) where
  nodeInfo key peerId _ := key = Small.key 5 ∧ peerId = "five"
  nodeHealth key _ := key = Small.key 9

theorem five_reads_authentic :
    RecordRead.nodeInfo 5 (infoFor 5 5 "five") ∈ readAfter honestMessages ∧
      RecordRead.nodeHealth 1 (healthOf 9 "five").nodeHealth ∈ readAfter honestMessages ∧
      ∀ record ∈ readAfter honestMessages, receiver.Authentic honestSignatures
        (receiver.run noRecords (honestMessages.map received)) record := by
  refine ⟨by decide +kernel, by decide +kernel, ?_⟩
  apply reads_authentic noRecords_authenticated
  refine ⟨⟨.ofNodeInfo ⟨"five", rfl, rfl⟩, .ofNodeInfo (Small.addressOf_key 5) ?_⟩,
    ⟨.ofNodeHealth ?_, .ofNodeHealth ?_⟩, trivial⟩
  · rintro peerId ⟨-, rfl⟩
    rfl
  · intro payload hpayload
    cases mem_singleton.mp hpayload
    rfl
  · intro payload hpayload
    cases mem_singleton.mp hpayload
    exact ⟨9, Small.addressOf_key 9, by decide +kernel⟩

/-- Node 5 is selected, by these two records. -/
theorem five_judgedBy :
    let t := (receiver.run noRecords (honestMessages.map received)).tables
    let header := { Small.header with blockNumber := 150 }
    ∃ config : RuntimeConfig, ∃ selected, selected.map (·.address) = [5] ∧
      (receiver.manager.reading firstHealth t).selectValidatorsForEpoch withStake header 2 = .ok selected ∧
      ∀ validator ∈ selected, validator.address ∈ config.orgNodes ∨
        JudgedBy receiver.manager withStake header (readAfter honestMessages) validator := by
  intro t header
  have hselected : (receiver.manager.reading firstHealth t).selectValidatorsForEpoch withStake header 2 =
      .ok [⟨5, 0, 2, 20, 1⟩] := by decide +kernel
  obtain ⟨config, -, hjudged⟩ := judgedBy_of_selected hselected
  exact ⟨config, _, rfl, hselected, hjudged⟩

/-- Node 2 calls itself the node 5, sends the node info of node 6 with another peer id, and reports on
    itself. -/
def forgedMessages : List (RecordInput (BitVec 64)) :=
  [.receiveNodeInfo (infoFor 2 5 "two"), .receiveNodeInfo (infoFor 6 6 "two"),
    .receiveSignedNodeHealth [healthOf 2 "two"]]

/-- Each key has signed for its own peer only. -/
def ownSignatures : Signatures (BitVec 64) where
  nodeInfo key peerId _ := (key = Small.key 2 ∧ peerId = "two") ∨ (key = Small.key 6 ∧ peerId = "six")
  nodeHealth key _ := key = Small.key 2

/-- No signature is forged, and the selection reads three records that are not authentic. -/
theorem forged_records_read :
    receiver.Authenticated ownSignatures noRecords ∧
      Trace.AllMeet receiver.step (fun s call => receiver.Unforged ownSignatures s call.input) noRecords
        (forgedMessages.map received) ∧
      (∀ record ∈ [RecordRead.nodeInfo 5 (infoFor 2 5 "two"), .nodeInfo 6 (infoFor 6 6 "two"),
          .nodeHealth 1 (healthOf 2 "two").nodeHealth],
        record ∈ readAfter forgedMessages ∧ ¬ receiver.Authentic ownSignatures
          (receiver.run noRecords (forgedMessages.map received)) record) := by
  refine ⟨noRecords_authenticated, ?_, ?_⟩
  · refine ⟨.ofNodeInfo ⟨"two", .inl ⟨rfl, rfl⟩⟩, .ofNodeInfo ⟨"six", .inr ⟨rfl, rfl⟩⟩,
      .ofNodeHealth ?_, trivial⟩
    intro payload hpayload
    cases mem_singleton.mp hpayload
    rfl
  · -- the keys that signed have the addresses 2 and 6
    have htwo := Small.addressOf_key 2
    have hsix := Small.addressOf_key 6
    simp only [forall_mem_cons, not_mem_nil, false_implies, implies_true, and_true]
    refine ⟨⟨by decide +kernel, ?_⟩, ⟨by decide +kernel, ?_⟩, by decide +kernel, ?_⟩
    · rintro ⟨key, hkey, ⟨rfl, -⟩ | ⟨rfl, -⟩⟩
      · cases htwo.symm.trans hkey
      · cases hsix.symm.trans hkey
    · rintro ⟨key, hkey, ⟨rfl, -⟩ | ⟨-, hpeer⟩⟩
      · cases htwo.symm.trans hkey
      · revert hpeer
        decide
    · rintro (hown | ⟨key, proposer, hkey, hrow, rfl⟩)
      · revert hown
        decide +kernel
      · cases htwo.symm.trans hkey
        revert hrow
        decide +kernel

end RecordingNode

end L1xCore
