import L1xCore.State.Commit

/-!
# `Server.LogFilters` — logs that are filtered

A filter has a range of blocks, addresses, and topics by position. It is read twice: `get_filtered_events`
makes a query of it, and `subscribe_future_events` tests each event that is broadcast. The query does not use
the addresses. The subscription panics where a position is absent, takes an empty list of addresses at its
word, compares no more topics than an event has, ends at the first event past the range, and goes on when it
has lagged behind and events were overwritten.

A log has the columns of a row or the fields of an event, and stands for it here.
-/

namespace L1xCore.Eth

open UpdatedState (eventRow)

/-- `types::eth::block::BlockNumber`. -/
inductive BlockNumber where
  | hash (hash : BlockHash) (requireCanonical : Bool)
  | num (n : BitVec 64)
  | latest
  | earliest
  | pending
  | safe
  | finalized

def BlockNumber.gte (blockNumber : L1xCore.BlockNumber) : BlockNumber → Bool
  | num n => blockNumber.toNat ≤ n.toNat
  | latest => true
  | _ => false

def BlockNumber.lte (blockNumber : L1xCore.BlockNumber) : BlockNumber → Bool
  | num n => n.toNat ≤ blockNumber.toNat
  | earliest => true
  | _ => false

inductive VariadicValue (T : Type) where
  | single (value : T)
  | multiple (values : List T)
  | null

def VariadicValue.toOptVec {T : Type} : VariadicValue T → Option (List T)
  | single value => some [value]
  | multiple values => some values
  | null => none

abbrev H256 := BitVec 256

abbrev Topic := VariadicValue (Option H256)

/-- `types::eth::filter::Filter`, without the block hash, which is not read. -/
structure Filter where
  fromBlock : Option BlockNumber
  toBlock : Option BlockNumber
  address : VariadicValue Address
  topics : Vector (Option Topic) 4

/-! ## Stored events -/

/-- The conditions that the topics add to the query: a column, and what it has to be equal to. -/
def topicConditions (i : Nat) : List (Option Topic) → Except Error (List (Nat × H256))
  | [] => .ok []
  | none :: topics => topicConditions (i + 1) topics
  | some (.single none) :: topics => topicConditions (i + 1) topics
  | some (.single (some topic)) :: topics => do
    let conditions ← topicConditions (i + 1) topics
    return if i < 4 then (i, topic) :: conditions else conditions
  | some (.multiple _) :: _ => .error "Filtering by topic array is not supported yet"
  | some .null :: _ => .error "Anonymous filtering is not supported yet"

def getFilteredEvents (rows : List EventRow) (filter : Filter) : Except Error (List EventRow) :=
  let fromBlock : BitVec 64 :=
    match filter.fromBlock with
    | some (.num n) => n
    | _ => 0
  match filter.toBlock with
  | some (.num toBlock) => do
    let conditions ← topicConditions 0 filter.topics.toList
    let result := rows.filter fun row =>
      fromBlock.toNat ≤ row.blockNumber.toNat && row.blockNumber.toNat ≤ toBlock.toNat &&
        conditions.all fun condition => row.topics[condition.1]? = some condition.2
    if result.all (·.blockNumber.toNat < 2 ^ 64) then return result
    else .error "Failed to convert BigDecimal to u128"
  | _ => .error "Filtering by block number is only supported for the Number variant right now (ethers_core::types::BlockNumber::Number)"

/-! ## Broadcast events -/

/-- `EventBroadcast::Evm`. -/
structure EvmEvent where
  address : Address
  topics : List H256
  data : Bytes
  blockNumber : L1xCore.BlockNumber
  blockHash : BlockHash
  txnHash : TransactionHash
  txnIndex : BitVec 64
  logIndex : BitVec 64
  deriving DecidableEq

/-- What `recv` returns: an event, or that the receiver has lagged behind these, of which it is told the number.
    The end of a list is the closed channel. -/
inductive RecvResult where
  | evm (event : EvmEvent)
  | lagged (overwritten : List EvmEvent)

/-- The values that are wanted at each position, where `none` is any. An absent position panics. -/
def paramTopics : List (Option Topic) → Option (List (Option (List H256)))
  | [] => some []
  | none :: _ => none
  | some topic :: topics =>
    let wanted :=
      match topic.toOptVec with
      | some values => if none ∈ values then none else some (values.filterMap id)
      | none => none
    (paramTopics topics).map (wanted :: ·)

def topicMatchCriteria (topics : List H256) (params : List (Option (List H256))) : Bool :=
  (topics.zip params).all fun pair => pair.2.all fun values => values.contains pair.1

/-- The loop over what is received. A block number that does not fit panics. -/
def sendLogs (addresses : List Address) (params : List (Option (List H256)))
    (fromBlock toBlock : Option BlockNumber) : List RecvResult → Option (List EvmEvent)
  | [] => some []
  | .lagged _ :: results => sendLogs addresses params fromBlock toBlock results
  | .evm event :: results =>
    if !toBlock.all (·.gte event.blockNumber) then some []
    else if fromBlock.all (·.lte event.blockNumber) && addresses.contains event.address &&
        topicMatchCriteria event.topics params then
      if event.blockNumber.toNat < 2 ^ 64 then
        (sendLogs addresses params fromBlock toBlock results).map (event :: ·)
      else none
    else sendLogs addresses params fromBlock toBlock results

/-- The events of which the subscriber gets a log; `none` is a panic. -/
def subscribeFutureEvents (params : Option Filter) (results : List RecvResult) : Option (List EvmEvent) :=
  match params with
  | some filter => do
    let topics ← paramTopics filter.topics.toList
    sendLogs (filter.address.toOptVec.getD []) topics filter.fromBlock filter.toBlock results
  | none => sendLogs [] [] (some (.num 0)) (some (.num (BitVec.allOnes 64))) results

/-! ## What a filter says -/

/-- Each position against the topic there, if there is one. -/
def topicsAre : List (Option Topic) → List H256 → Bool
  | [], _ => true
  | topic :: topics, given =>
    ((topic.bind (·.toOptVec)).all fun values => none ∈ values ∨ given.head? ∈ values) &&
      topicsAre topics given.tail

/-- All that was broadcast. -/
def broadcastOf : List RecvResult → List EvmEvent
  | [] => []
  | .evm event :: results => event :: broadcastOf results
  | .lagged overwritten :: results => overwritten ++ broadcastOf results

/-- A filter whose blocks are numbers. -/
structure Criteria where
  fromBlock : BitVec 64
  toBlock : BitVec 64
  address : VariadicValue Address
  topics : Vector (Option Topic) 4

namespace Criteria

variable (c : Criteria)

def filter : Filter := ⟨some (.num c.fromBlock), some (.num c.toBlock), c.address, c.topics⟩

def addresses : List Address := c.address.toOptVec.getD []

def inRange (blockNumber : L1xCore.BlockNumber) : Bool :=
  c.fromBlock.toNat ≤ blockNumber.toNat && blockNumber.toNat ≤ c.toBlock.toNat

/-- No address stands for all of them. -/
def satisfied (blockNumber : L1xCore.BlockNumber) (address : Address) (topics : List H256) : Bool :=
  c.inRange blockNumber && (c.addresses.isEmpty || c.addresses.contains address) &&
    topicsAre c.topics.toList topics

def selects (event : Event) : Bool :=
  c.satisfied event.blockNumber event.contractAddress (event.topics.getD [])

def awaits (event : EvmEvent) : Bool := c.satisfied event.blockNumber event.address event.topics

/-- **The filter means what it says**, for what is stored and for what is broadcast. -/
structure Obeyed (stored : List Event) (results : List RecvResult) : Prop where
  stored : ∀ rows, getFilteredEvents (stored.map eventRow) c.filter = .ok rows →
    rows = (stored.filter c.selects).map eventRow
  broadcast : subscribeFutureEvents (some c.filter) results = some ((broadcastOf results).filter c.awaits)

/-- What the query finds. -/
def found (event : Event) : Bool :=
  c.inRange event.blockNumber && topicsAre c.topics.toList (event.topics.getD [])

/-- What is received before the subscription ends. -/
def received : List RecvResult → List EvmEvent
  | [] => []
  | .lagged _ :: results => received results
  | .evm event :: results =>
    if event.blockNumber.toNat ≤ c.toBlock.toNat then event :: received results else []

/-- What is overwritten before that, and all from the event on with which it ends. -/
def lost : List RecvResult → List EvmEvent
  | [] => []
  | .lagged overwritten :: results => overwritten ++ lost results
  | .evm event :: results =>
    if event.blockNumber.toNat ≤ c.toBlock.toNat then lost results else event :: broadcastOf results

/-- What is sent of what is received. -/
def sent (event : EvmEvent) : Bool :=
  c.fromBlock.toNat ≤ event.blockNumber.toNat && c.addresses.contains event.address &&
    topicsAre (c.topics.toList.take event.topics.length) event.topics

def isSingle : Option Topic → Bool
  | none | some (.single _) => true
  | _ => false

/-- **No event shows a difference**: what the query finds has one of the addresses, if there are any; each
    position of the filter is given; without an address nothing is awaited; no event with too few topics is
    sent; and nothing that is lost is awaited. -/
structure Harmless (stored : List Event) (results : List RecvResult) : Prop where
  stored : c.topics.toList.all isSingle → c.addresses ≠ [] → ∀ event ∈ stored, c.found event →
    event.contractAddress ∈ c.addresses
  given : none ∉ c.topics.toList
  address : c.addresses = [] → ∀ event ∈ broadcastOf results, ¬ c.awaits event
  short : ∀ event ∈ c.received results, c.sent event → topicsAre c.topics.toList event.topics
  lost : ∀ event ∈ c.lost results, ¬ c.awaits event

end Criteria

/-! ## The query -/

theorem topicsAre_split (n : Nat) (topics : List (Option Topic)) (given : List H256) :
    topicsAre topics given =
      (topicsAre (topics.take n) given && topicsAre (topics.drop n) (given.drop n)) := by
  induction topics generalizing n given with
  | nil => simp [topicsAre]
  | cons topic topics ih =>
    cases n with
    | zero => simp [topicsAre]
    | succ n => rw [topicsAre, List.take_succ_cons, List.drop_succ_cons, topicsAre, Bool.and_assoc, ih n,
        List.drop_tail]

/-- **What the topics add to the query**: the first four positions, unless a position is not supported. -/
theorem topicConditions_cases (i : Nat) (topics : List (Option Topic)) :
    (∃ conditions, topicConditions i topics = .ok conditions ∧ topics.all Criteria.isSingle ∧
      ∀ given : List H256,
        (conditions.all fun condition => (given.take 4)[condition.1]? = some condition.2) =
          topicsAre (topics.take (4 - i)) (given.drop i)) ∨
    (∃ e, topicConditions i topics = .error e) ∧ ¬ topics.all Criteria.isSingle := by
  have topicsAre_take_cons (topic topics i) (given : List H256) :
      topicsAre ((topic :: topics).take (4 - i)) (given.drop i) =
        ((decide (4 ≤ i) || topicsAre [topic] (given.drop i)) &&
          topicsAre (topics.take (4 - (i + 1))) (given.drop (i + 1))) := by
    by_cases hi : 4 ≤ i
    · rw [Nat.sub_eq_zero_of_le hi, Nat.sub_eq_zero_of_le (Nat.le_succ_of_le hi), decide_eq_true hi]
      rfl
    · have hsub : 4 - i = 4 - (i + 1) + 1 := by omega
      rw [hsub, List.take_succ_cons, topicsAre, topicsAre, topicsAre, List.tail_drop, decide_eq_false hi,
        Bool.false_or, Bool.and_true]
  fun_induction topicConditions i topics with
  | case1 i => exact .inl ⟨_, rfl, rfl, fun given => by simp [topicsAre]⟩
  | case2 i topics ih | case3 i topics ih =>
    refine ih.imp_left ?_
    rintro ⟨conditions, hconditions, hsingle, hall⟩
    refine ⟨conditions, hconditions, hsingle, fun given => ?_⟩
    rw [hall, topicsAre_take_cons]
    simp [topicsAre, VariadicValue.toOptVec]
  | case4 i topic topics ih =>
    rcases ih with ⟨conditions, hconditions, hsingle, hall⟩ | ⟨⟨e, herror⟩, hsingle⟩
    · refine .inl ⟨_, by rw [hconditions]; rfl, hsingle, fun given => ?_⟩
      rw [topicsAre_take_cons, ← hall]
      by_cases hi : i < 4
      · rw [if_pos hi, List.all_cons, List.getElem?_take_of_lt hi, decide_eq_false (Nat.not_le_of_lt hi)]
        simp [topicsAre, VariadicValue.toOptVec]
      · rw [if_neg hi, decide_eq_true (Nat.le_of_not_lt hi)]
        rfl
    · exact .inr ⟨⟨e, by rw [herror]; rfl⟩, hsingle⟩
  | case5 | case6 => exact .inr ⟨⟨_, rfl⟩, Bool.false_ne_true⟩

/-! ## The subscription -/

theorem paramTopics_isSome {topics : List (Option Topic)} : (paramTopics topics).isSome ↔ none ∉ topics := by
  induction topics with
  | nil => simp [paramTopics]
  | cons topic topics ih =>
    cases topic with
    | none => simp [paramTopics]
    | some topic => simpa [paramTopics] using ih

theorem topicMatchCriteria_eq {topics : List (Option Topic)} {params : List (Option (List H256))}
    (h : paramTopics topics = some params) (given : List H256) :
    topicMatchCriteria given params = topicsAre (topics.take given.length) given := by
  induction topics generalizing params given with
  | nil =>
    cases h
    simp [topicMatchCriteria, topicsAre]
  | cons topic topics ih =>
    rcases topic with _ | topic
    · cases h
    obtain ⟨others, hothers, rfl⟩ := Option.map_eq_some_iff.mp h
    rcases given with _ | ⟨value, given⟩
    · rfl
    rw [List.length_cons, List.take_succ_cons, topicsAre, List.tail_cons, ← ih hothers given]
    refine congrArg (· && _) ?_
    cases hvalues : topic.toOptVec with
    | none => simp [hvalues]
    | some values => by_cases hany : none ∈ values <;> simp [hvalues, hany]

namespace Criteria

variable {c : Criteria}

theorem subscribeFutureEvents_eq (hgiven : none ∉ c.topics.toList) (results : List RecvResult) :
    subscribeFutureEvents (some c.filter) results = some ((c.received results).filter c.sent) := by
  obtain ⟨params, hparams⟩ := Option.isSome_iff_exists.mp (paramTopics_isSome.mpr hgiven)
  show (paramTopics c.topics.toList >>= _) = _
  rw [hparams]
  show sendLogs c.addresses params (some (.num c.fromBlock)) (some (.num c.toBlock)) results = _
  induction results with
  | nil => rfl
  | cons result results ih =>
    rcases result with event | overwritten
    · rw [sendLogs, ih, topicMatchCriteria_eq hparams, received]
      by_cases hto : event.blockNumber.toNat ≤ c.toBlock.toNat
      · have hfits := Nat.lt_of_le_of_lt hto c.toBlock.isLt
        rw [if_pos hto, List.filter_cons, if_neg (by simpa [BlockNumber.gte] using hto), if_pos hfits]
        exact (apply_ite some ..).symm
      · rw [if_neg hto, if_pos (by simpa [BlockNumber.gte] using hto)]
        rfl
    · exact ih

/-- What is broadcast is received or lost, and what is received keeps its order. -/
theorem received_lost (results : List RecvResult) :
    (broadcastOf results).Perm (c.received results ++ c.lost results) ∧
      (c.received results).Sublist (broadcastOf results) ∧
      ∀ event ∈ c.received results, event.blockNumber.toNat ≤ c.toBlock.toNat := by
  induction results with
  | nil => exact ⟨.nil, .slnil, fun event h => by cases h⟩
  | cons result results ih =>
    obtain ⟨hperm, hsub, hrange⟩ := ih
    rcases result with event | overwritten
    · rw [broadcastOf, received, lost]
      split
      · next hto => exact ⟨hperm.cons event, hsub.cons_cons event, List.forall_mem_cons.mpr ⟨hto, hrange⟩⟩
      · exact ⟨.refl _, List.nil_sublist _, fun event h => by cases h⟩
    · refine ⟨?_, hsub.trans (List.sublist_append_right _ _), hrange⟩
      exact (hperm.append_left overwritten).trans
        (List.perm_append_comm_assoc _ _ _)

/-- **Nothing awaited is lost** exactly if what is awaited of it all is what is awaited of what is received. -/
theorem filter_awaits_iff (results : List RecvResult) :
    (c.received results).filter c.awaits = (broadcastOf results).filter c.awaits ↔
      ∀ event ∈ c.lost results, ¬ c.awaits event := by
  obtain ⟨hperm, hsub, -⟩ := @received_lost c results
  have hlength := (hperm.filter c.awaits).length_eq
  rw [List.filter_append, List.length_append] at hlength
  rw [← List.filter_eq_nil_iff, ← List.length_eq_zero_iff]
  constructor
  · intro h
    rw [h] at hlength
    omega
  · intro h
    exact (hsub.filter c.awaits).eq_of_length (by omega)

/-- Before the end, the same events are sent and awaited if an address is given and the topics suffice. -/
theorem filter_sent {results : List RecvResult}
    (haddress : c.addresses = [] → ∀ event ∈ broadcastOf results, ¬ c.awaits event)
    (hshort : ∀ event ∈ c.received results, c.sent event → topicsAre c.topics.toList event.topics) :
    (c.received results).filter c.sent = (c.received results).filter c.awaits := by
  obtain ⟨-, hsub, hrange⟩ := @received_lost c results
  refine List.filter_congr fun event hevent => Bool.eq_iff_iff.mpr ⟨fun hsent => ?_, fun hawaits => ?_⟩
  · have htopics := hshort event hevent hsent
    simp only [sent, Bool.and_eq_true] at hsent
    simp only [awaits, satisfied, inRange, Bool.and_eq_true, Bool.or_eq_true]
    exact ⟨⟨⟨hsent.1.1, decide_eq_true (hrange event hevent)⟩, .inr hsent.1.2⟩, htopics⟩
  · have hsome : ¬ c.addresses.isEmpty := fun hnone =>
      haddress (List.isEmpty_iff.mp hnone) event (hsub.mem hevent) hawaits
    simp only [awaits, satisfied, inRange, Bool.and_eq_true, Bool.or_eq_true] at hawaits
    rw [topicsAre_split event.topics.length, Bool.and_eq_true] at hawaits
    simp only [sent, Bool.and_eq_true]
    exact ⟨⟨hawaits.1.1.1, hawaits.1.2.resolve_left hsome⟩, hawaits.2.1⟩

/-- What is selected is found, so the rows that are returned are too many or the right ones. -/
theorem filter_selects (stored : List Event) :
    stored.filter c.selects = (stored.filter c.found).filter c.selects := by
  rw [List.filter_filter]
  refine List.filter_congr fun event _ => (Bool.and_eq_left_iff_imp.mpr fun h => ?_).symm
  simp only [selects, satisfied, Bool.and_eq_true] at h
  exact Bool.and_eq_true_iff.mpr ⟨h.1.1, h.2⟩

theorem selects_iff {event : Event} (h : c.found event) :
    c.selects event ↔ (c.addresses ≠ [] → event.contractAddress ∈ c.addresses) := by
  obtain ⟨hrange, htopics⟩ := Bool.and_eq_true_iff.mp h
  simp only [selects, satisfied, hrange, htopics, Bool.true_and, Bool.and_true, Bool.or_eq_true,
    List.isEmpty_iff, List.contains_iff_mem]
  exact Classical.or_iff_not_imp_left

theorem getFilteredEvents_cases (stored : List Event) :
    getFilteredEvents (stored.map eventRow) c.filter = .ok ((stored.filter c.found).map eventRow) ∧
      c.topics.toList.all isSingle ∨
    (∃ e, getFilteredEvents (stored.map eventRow) c.filter = .error e) ∧ ¬ c.topics.toList.all isSingle := by
  change (topicConditions 0 c.topics.toList >>= _) = _ ∧ _ ∨
    (∃ e, (topicConditions 0 c.topics.toList >>= _) = _) ∧ _
  rcases topicConditions_cases 0 c.topics.toList with
    ⟨conditions, hconditions, hsingle, hall⟩ | ⟨⟨e, herror⟩, hsingle⟩
  · refine .inl ⟨?_, hsingle⟩
    rw [hconditions]
    show (if List.all _ _ then _ else _) = _
    rw [List.filter_map, List.filter_congr (q := c.found) ?_, if_pos]
    · rfl
    · refine List.all_eq_true.mpr fun row hrow => decide_eq_true ?_
      obtain ⟨event, hevent, rfl⟩ := List.mem_map.mp hrow
      have hfound := (List.mem_filter.mp hevent).2
      simp only [found, inRange, Bool.and_eq_true, decide_eq_true_eq] at hfound
      exact Nat.lt_of_le_of_lt hfound.1.2 c.toBlock.isLt
    · intro event _
      have hfour : c.topics.toList.take (4 - 0) = c.topics.toList :=
        List.take_of_length_le c.topics.length_toList.le
      have hquery := hall (event.topics.getD [])
      rw [hfour] at hquery
      exact congrArg (c.inRange event.blockNumber && ·) hquery
  · rw [herror]
    exact .inr ⟨⟨e, rfl⟩, hsingle⟩

/-- **When a filter means what it says.** -/
theorem obeyed_iff (c : Criteria) (stored : List Event) (results : List RecvResult) :
    c.Obeyed stored results ↔ c.Harmless stored results := by
  constructor
  · rintro ⟨hstored, hbroadcast⟩
    obtain ⟨params, hparams, -⟩ := Option.bind_eq_some_iff.mp hbroadcast
    have hgiven := paramTopics_isSome.mp (Option.isSome_of_eq_some hparams)
    rw [subscribeFutureEvents_eq hgiven, Option.some.injEq] at hbroadcast
    have haddress : c.addresses = [] → ∀ event ∈ broadcastOf results, ¬ c.awaits event := by
      intro hnone event hevent hawaits
      have hsent := List.of_mem_filter (hbroadcast ▸ List.mem_filter.mpr ⟨hevent, hawaits⟩)
      rw [sent, hnone] at hsent
      simp at hsent
    have hshort : ∀ event ∈ c.received results, c.sent event → topicsAre c.topics.toList event.topics := by
      intro event hevent hsent
      have hawaits := List.of_mem_filter (hbroadcast ▸ List.mem_filter.mpr ⟨hevent, hsent⟩)
      exact (Bool.and_eq_true_iff.mp hawaits).2
    refine ⟨?_, hgiven, haddress, hshort, ?_⟩
    · intro hsingle haddresses event hevent hfound
      have hrows := hstored _ ((getFilteredEvents_cases stored).resolve_right fun h => h.2 hsingle).1
      have hlength := congrArg List.length hrows
      rw [List.length_map, List.length_map, filter_selects] at hlength
      have hselected := List.length_filter_eq_length_iff.mp hlength.symm event
        (List.mem_filter.mpr ⟨hevent, hfound⟩)
      exact (selects_iff hfound).mp hselected haddresses
    · rw [filter_sent haddress hshort] at hbroadcast
      exact (filter_awaits_iff results).mp hbroadcast
  · intro h
    refine ⟨fun rows hrows => ?_, ?_⟩
    · rcases getFilteredEvents_cases stored with ⟨hok, hsingle⟩ | ⟨⟨e, herror⟩, -⟩
      · cases hok.symm.trans hrows
        have hall : (stored.filter c.found).filter c.selects = stored.filter c.found := by
          refine List.filter_eq_self.mpr fun event hevent => ?_
          obtain ⟨hevent, hfound⟩ := List.mem_filter.mp hevent
          exact (selects_iff hfound).mpr fun haddresses => h.stored hsingle haddresses event hevent hfound
        rw [filter_selects, hall]
      · cases herror.symm.trans hrows
    · rw [subscribeFutureEvents_eq h.given, filter_sent h.address h.short,
        (filter_awaits_iff results).mpr h.lost]

end Criteria

namespace Small

def storedEvent (contractAddress : Address) : Event := ⟨1, [], 5, 0, contractAddress, none⟩

def evmEvent : EvmEvent := ⟨7, [], [], 5, 0, 1, 0, 0⟩

/-- The same at each of the four positions. -/
def everywhere (topic : Option Topic) : Vector (Option Topic) 4 := Vector.replicate 4 topic

/-- A stored event of another contract is returned, a filter without topics panics, no address gets no event,
    and what was overwritten is not sent. -/
theorem filters_not_obeyed :
    ¬ (⟨0, 9, .single 7, everywhere none⟩ : Criteria).Obeyed [storedEvent 8] [] ∧
      ¬ (⟨0, 9, .single 7, everywhere none⟩ : Criteria).Obeyed [] [] ∧
      ¬ (⟨0, 9, .null, everywhere (some .null)⟩ : Criteria).Obeyed [] [.evm evmEvent] ∧
      ¬ (⟨0, 9, .single 7, everywhere (some .null)⟩ : Criteria).Obeyed [] [.lagged [evmEvent]] := by
  refine ⟨fun h => ?_, fun h => ?_, fun h => ?_, fun h => ?_⟩
  · have hrows := h.stored [eventRow (storedEvent 8)] (by decide +kernel)
    exact absurd hrows (by decide +kernel)
  · exact absurd h.broadcast (by decide +kernel)
  · exact absurd h.broadcast (by decide +kernel)
  · exact absurd h.broadcast (by decide +kernel)

end Small

end L1xCore.Eth
