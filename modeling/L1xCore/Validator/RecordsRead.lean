import L1xCore.System.NodeRecords
import L1xCore.Validator.ValidatorManager

/-!
# `Validator.RecordsRead` — what the selection of validators reads

The selection reads two tables: the node info of an address, for its peer id, and the node health of that
peer in the current epoch (`node_info/src/state_pg.rs`, `l1x_node_health/src/state_pg.rs`). `selectionReads`
lists the records one call reads. Every selected validator that is no node of the organisation was judged by
two of them (`judgedBy_of_selected`).
-/

namespace L1xCore

open Fallible Node Except List

variable {validator : Validator}

/-! ## The tables -/

/-- The row a `LIMIT 1` query picks: one of the matching rows, if there is any. -/
structure HealthChoice (F : Type) where
  pick : List (NodeHealth F) → Option (NodeHealth F)
  mem_of_pick : ∀ {rows row}, pick rows = some row → row ∈ rows
  eq_nil_of_pick : ∀ {rows}, pick rows = none → rows = []

/-- The order in which a hash map is visited. -/
structure IterationOrder (F : Type) where
  arrange : List (NodeHealth F) → List (NodeHealth F)
  perm_arrange : ∀ healths, (arrange healths).Perm healths

structure NodeTables (F : Type) where
  nodeInfo : Table Address NodeInfo
  /-- The key is made of both peer ids and the epoch. -/
  nodeHealth : List (NodeHealth F)

namespace NodeTables

variable {F : Type} (t : NodeTables F)

/-- `create_or_update`: a record with a peer id is never replaced. -/
def createOrUpdate (info : NodeInfo) : NodeTables F :=
  match t.nodeInfo.lookup info.address with
  | some existing =>
    if existing.peerId.isEmpty then { t with nodeInfo := t.nodeInfo.insert info.address info } else t
  | none => { t with nodeInfo := t.nodeInfo.insert info.address info }

def loadNodeInfo (address : Address) : Except Error NodeInfo :=
  match t.nodeInfo.lookup address with
  | some info => .ok info
  | none => .error "Diesel query for load node info failed: Record not found"

/-- A plain `INSERT`. -/
def storeNodeHealth (health : NodeHealth F) : Fallible (NodeTables F) Error Unit := do
  let t ← state
  if t.nodeHealth.any fun row => row.measuredPeerId = health.measuredPeerId ∧
      row.peerId = health.peerId ∧ row.epoch = health.epoch then
    fail "Failed to create node health: duplicate key value violates unique constraint"
  else
    update fun t => { t with nodeHealth := t.nodeHealth ++ [health] }

def loadNodeHealth (choice : HealthChoice F) (peerId : String) (epoch : Epoch) : Option (NodeHealth F) :=
  choice.pick (t.nodeHealth.filter fun health => health.peerId = peerId ∧ health.epoch = epoch)

/-- A node info for the address would be written. -/
def isOpen (address : Address) : Bool := (t.nodeInfo.lookup address).all (·.peerId.isEmpty)

variable {t} {health : NodeHealth F} {info : NodeInfo}

theorem createOrUpdate_cases :
    t.createOrUpdate info = t ∨ (t.isOpen info.address = true ∧
      t.createOrUpdate info = { t with nodeInfo := t.nodeInfo.insert info.address info }) := by
  unfold createOrUpdate isOpen
  cases hexisting : t.nodeInfo.lookup info.address with
  | none => exact .inr ⟨rfl, rfl⟩
  | some existing =>
    by_cases hempty : existing.peerId.isEmpty = true
    · refine .inr ⟨hempty, ?_⟩
      simp only [hempty, if_true]
    · refine .inl ?_
      simp only [hempty, if_false, Bool.false_eq_true]

theorem lookup_of_loadNodeInfo {address : Address}
    (h : t.loadNodeInfo address = .ok info) : t.nodeInfo.lookup address = some info := by
  unfold loadNodeInfo at h
  split at h
  · next found hfound =>
      cases h
      exact hfound
  · cases h

theorem mem_of_loadNodeHealth {choice : HealthChoice F} {peerId : String} {epoch : Epoch}
    (h : t.loadNodeHealth choice peerId epoch = some health) :
    health ∈ t.nodeHealth ∧ health.peerId = peerId ∧ health.epoch = epoch := by
  obtain ⟨hmem, hmatch⟩ := mem_filter.mp (choice.mem_of_pick h)
  exact ⟨hmem, of_decide_eq_true hmatch⟩

theorem storeNodeHealth_cases {t : NodeTables F} :
    (∃ e, (storeNodeHealth health).run t = (.error e, t)) ∨
      (storeNodeHealth health).run t = (.ok (), { t with nodeHealth := t.nodeHealth ++ [health] }) := by
  unfold storeNodeHealth
  rw [run_bind_of_ok (run_state t)]
  split
  · exact .inl ⟨_, rfl⟩
  · exact .inr rfl

end NodeTables

/-! ## What the selection reads -/

/-- A record that was read, with the address or the epoch it was read for. -/
inductive RecordRead (F : Type) where
  | nodeInfo (address : Address) (info : NodeInfo)
  | nodeHealth (epoch : Epoch) (health : NodeHealth F)
  deriving DecidableEq

namespace ValidatorManager

variable {F : Type} (m : ValidatorManager (NodeHealth F)) (choice : HealthChoice F) (t : NodeTables F)
  (w : World) (config : RuntimeConfig) (lastBlockHeader : BlockHeader) (epoch : Epoch)

/-- The selection from the two tables. -/
def reading : ValidatorManager (NodeHealth F) :=
  { m with
    loadNodeInfo := fun _ address => (t.loadNodeInfo address).map NodeInfo.peerId
    loadNodeHealth := fun _ peerId epoch => .ok (t.loadNodeHealth choice peerId epoch) }

/-- The records that one round of the loop reads. -/
def candidateReads (nodeAddress : Address) (info : NodePoolInfo) : List (RecordRead F) :=
  if nodeAddress ∈ config.orgNodes ∨ info.stakedBalance < info.minPoolBalance then []
  else
    match t.loadNodeInfo nodeAddress with
    | .error _ => []
    | .ok nodeInfo =>
      let currentEpoch := calculateCurrentEpoch lastBlockHeader.blockNumber
      .nodeInfo nodeAddress nodeInfo ::
        if nodeInfo.peerId.isEmpty then []
        else (t.loadNodeHealth choice nodeInfo.peerId currentEpoch).toList.map (.nodeHealth currentEpoch)

/-- An error ends the loop. -/
def eligibleReads : List (Sigma fun _ : Address => NodePoolInfo) → List (RecordRead F)
  | [] => []
  | node :: nodes =>
    candidateReads choice t config lastBlockHeader node.1 node.2 ++
      match (m.reading choice t).candidate w config lastBlockHeader epoch node.1 node.2 with
      | .error _ => []
      | .ok _ => eligibleReads nodes

/-- The records that `select_validators_for_epoch` reads. -/
def selectionReads : List (RecordRead F) :=
  match w.caches.getConfig, w.caches.getStakingInfo with
  | .ok config, .ok stakingInfo =>
    m.eligibleReads choice t w config lastBlockHeader epoch stakingInfo.nodes.entries
  | _, _ => []

variable {m choice t w config lastBlockHeader epoch}

/-- A candidate was judged by its node info and by a node health of its peer in the current epoch. -/
structure JudgedBy (m : ValidatorManager (NodeHealth F)) (w : World) (lastBlockHeader : BlockHeader)
    (reads : List (RecordRead F)) (validator : Validator) : Prop where
  records : ∃ info health, RecordRead.nodeInfo validator.address info ∈ reads ∧
    RecordRead.nodeHealth (calculateCurrentEpoch lastBlockHeader.blockNumber) health ∈ reads ∧
    health.peerId = info.peerId ∧
    m.calculateXscore w validator.address lastBlockHeader health = .ok validator.xscore

theorem JudgedBy.mono {reads reads' : List (RecordRead F)} (h : JudgedBy m w lastBlockHeader reads validator)
    (hsub : reads ⊆ reads') : JudgedBy m w lastBlockHeader reads' validator := by
  obtain ⟨info, health, hinfo, hhealth, hscore⟩ := h.records
  exact ⟨info, health, hsub hinfo, hsub hhealth, hscore⟩

/-- Every candidate was judged by records that the loop has read. -/
theorem judgedBy_of_eligible {nodes : List (Sigma fun _ : Address => NodePoolInfo)}
    {eligible : List Validator}
    (h : (m.reading choice t).eligibleValidators w config lastBlockHeader epoch nodes = .ok eligible) :
    ∀ validator ∈ eligible, JudgedBy m w lastBlockHeader
      (m.eligibleReads choice t w config lastBlockHeader epoch nodes) validator := by
  induction nodes generalizing eligible with
  | nil =>
    cases h
    intro validator hvalidator
    cases hvalidator
  | cons node nodes ih =>
    obtain ⟨found, hfound, h⟩ := bind_eq_ok.mp h
    obtain ⟨others, hothers, h⟩ := bind_eq_ok.mp h
    cases h
    intro validator hvalidator
    rw [eligibleReads, hfound]
    rcases mem_append.mp hvalidator with hmem | hmem
    · rw [Option.mem_toList] at hmem
      rw [hmem] at hfound
      refine JudgedBy.mono ?_ (subset_append_left _ _)
      unfold candidate at hfound
      unfold candidateReads
      split at hfound
      · cases hfound
      next hskip =>
      rw [if_neg hskip]
      cases hinfo : t.loadNodeInfo node.1 with
      | error e =>
        simp only [reading, hinfo] at hfound
        cases hfound
      | ok info =>
        simp only [reading, hinfo, Except.map] at hfound
        split at hfound
        · cases hfound
        next hpeer =>
        obtain ⟨health, hhealth, hfound⟩ := bind_eq_ok.mp hfound
        cases hhealth
        split at hfound
        · cases hfound
        next health hloaded =>
        obtain ⟨xscore, hscore, hfound⟩ := bind_eq_ok.mp hfound
        cases hfound
        refine ⟨info, health, mem_cons_self, mem_cons_of_mem _ ?_,
          (NodeTables.mem_of_loadNodeHealth hloaded).2.1, hscore⟩
        simp only [hpeer, hloaded]
        exact mem_singleton_self _
    · exact (ih hothers validator hmem).mono (subset_append_right _ _)

/-- **The committee comes from the records that were read**, the nodes of the organisation apart. -/
theorem judgedBy_of_selected {selected : List Validator}
    (h : (m.reading choice t).selectValidatorsForEpoch w lastBlockHeader epoch = .ok selected) :
    ∃ config, w.caches.getConfig = .ok config ∧ ∀ validator ∈ selected,
      validator.address ∈ config.orgNodes ∨
        JudgedBy m w lastBlockHeader (m.selectionReads choice t w lastBlockHeader epoch) validator := by
  obtain ⟨config, hconfig, h⟩ := bind_eq_ok.mp h
  obtain ⟨stakingInfo, hstaking, h⟩ := bind_eq_ok.mp h
  obtain ⟨eligible, heligible, h⟩ := bind_eq_ok.mp h
  cases h
  refine ⟨config, hconfig, ?_⟩
  intro validator hvalidator
  have hmem := (m.partialShuffle_subperm _ _ _).subset hvalidator
  rcases mem_append.mp hmem with hmem | hmem
  · have hfiltered := (mem_insertionSort _).mp hmem
    rw [selectionReads, hconfig, hstaking]
    exact .inr (judgedBy_of_eligible heligible validator (mem_of_mem_filter hfiltered))
  · obtain ⟨address, haddress, rfl⟩ := mem_map.mp hmem
    exact .inl (mem_of_mem_take haddress)

end ValidatorManager

end L1xCore
