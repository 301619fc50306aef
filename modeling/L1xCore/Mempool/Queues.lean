import L1xCore.Mempool.Mempool

/-!
# `Mempool.Queues` — the two queues of the mempool against each other

Every waiting transaction is kept twice, by sender and time of arrival and in the list by fee limit. The two
are changed by different keys: the nonce of a sender, the signature, the whole transaction, the time. They
agree because there is **at most one transaction for a sender and a nonce** (`Listed.distinct`), so that each
of these keys names one entry; and adding never fails half way, because every sender that is counted has a
transaction (`Answered`). For the second the clock matters: a replaced transaction leaves its time behind
without a transaction, and the one that replaces it is not older.

Two calls remove by a key that does not name one entry. `remove_transaction_by_sender` leaves the list alone,
and `remove_transaction` clears a signature from the whole list but only from the queue of one sender.
-/

namespace L1xCore.Mempool

open List AList
open Account (addressOf)

variable {sender : Address} {tx : Transaction} {t : TimeStamp} {e : Transaction × TimeStamp}
  {tx' : Transaction} {s : Address} {crypto : Crypto} {p p' : Mempool}

/-! ## What is in the queues -/

/-- The entries of the queue by sender and time. -/
def byArrival (p : Mempool) : List (Transaction × TimeStamp) :=
  p.transactions.entries₂.flatMap fun e => e.2.map fun tx => (tx, e.1.2)

/-- Both queues hold the same transactions with the same times. -/
def SameQueues (p : Mempool) : Prop :=
  (p.byArrival : Multiset (Transaction × TimeStamp)) = p.transactionsPriority

/-- The sender has the transaction waiting since `t`. -/
def Waits (p : Mempool) (sender : Address) (t : TimeStamp) (tx : Transaction) : Prop :=
  ∃ txs, p.transactions.lookup₂ sender t = some txs ∧ tx ∈ txs

/-- A time is noted for the sender, with or without a transaction. -/
def Noted (p : Mempool) (sender : Address) (t : TimeStamp) : Prop :=
  (p.transactions.lookup₂ sender t).isSome

theorem mem_byArrival : e ∈ p.byArrival ↔ ∃ sender, p.Waits sender e.2 e.1 := by
  simp only [byArrival, mem_flatMap, mem_map]
  constructor
  · rintro ⟨⟨⟨sender, t⟩, txs⟩, hentry, tx, htx, rfl⟩
    exact ⟨sender, txs, mem_entries₂.mp hentry, htx⟩
  · rintro ⟨sender, txs, hlookup, htx⟩
    exact ⟨⟨(sender, e.2), txs⟩, mem_entries₂.mpr hlookup, e.1, htx, rfl⟩

/-- What tells transactions apart: the sender and the nonce. -/
def slot (crypto : Crypto) (tx : Transaction) : Except Error Address × Nonce :=
  (addressOf crypto tx.verifyingKey, tx.nonce)

theorem hasConflict_iff (hsender : addressOf crypto tx'.verifyingKey = .ok sender) :
    hasConflict crypto tx tx' = true ↔ slot crypto tx = slot crypto tx' := by
  unfold hasConflict slot
  rw [hsender]
  cases addressOf crypto tx.verifyingKey with
  | error | ok => simp

/-! ## The invariant -/

/-- The two queues list the same transactions, each under its sender, and no two for one slot. -/
structure Listed (crypto : Crypto) (p : Mempool) : Prop where
  own : ∀ {sender t tx}, p.Waits sender t tx → addressOf crypto tx.verifyingKey = .ok sender
  same : ∀ {tx t}, (tx, t) ∈ p.transactionsPriority ↔ ∃ sender, p.Waits sender t tx
  distinct : (p.transactionsPriority.map fun e => slot crypto e.1).Nodup
  nodup : ∀ {sender t txs}, p.transactions.lookup₂ sender t = some txs → txs.Nodup

/-- Every sender has a time noted, and for every time noted a transaction that is not older; `except` for
    some. -/
structure Answered (p : Mempool) (except : Address → TimeStamp → Prop) : Prop where
  inhabited : ∀ {sender}, sender ∈ p.transactions → ∃ t, p.Noted sender t
  answered : ∀ {sender t}, p.Noted sender t → (∃ t' tx, t ≤ t' ∧ p.Waits sender t' tx) ∨ except sender t

/-- What holds between calls. -/
structure Consistent (crypto : Crypto) (p : Mempool) : Prop where
  listed : p.Listed crypto
  answered : p.Answered fun _ _ => False

/-- No time is noted that is later than `now`. -/
def StampedUpTo (p : Mempool) (now : TimeStamp) : Prop := ∀ {sender t}, p.Noted sender t → t ≤ now

namespace Listed

variable (h : p.Listed crypto)
include h

theorem priority_nodup : p.transactionsPriority.Nodup := h.distinct.of_map

theorem eq_of_slot {e' : Transaction × TimeStamp} (he : e ∈ p.transactionsPriority)
    (he' : e' ∈ p.transactionsPriority) (hslot : slot crypto e.1 = slot crypto e'.1) : e = e' :=
  inj_on_of_nodup_map h.distinct he he' hslot

theorem waits_iff :
    p.Waits sender t tx ↔ (tx, t) ∈ p.transactionsPriority ∧
      addressOf crypto tx.verifyingKey = .ok sender := by
  constructor
  · intro hwaits
    exact ⟨h.same.mpr ⟨sender, hwaits⟩, h.own hwaits⟩
  · rintro ⟨hmem, hsender⟩
    obtain ⟨sender', hwaits⟩ := h.same.mp hmem
    have hsame : sender' = sender := by
      have hown := h.own hwaits
      rw [hsender] at hown
      cases hown
      rfl
    rw [← hsame]
    exact hwaits

theorem byArrival_nodup : p.byArrival.Nodup := by
  rw [byArrival, nodup_flatMap]
  constructor
  · rintro ⟨⟨sender, t⟩, txs⟩ hentry
    have hnodup : txs.Nodup := h.nodup (mem_entries₂.mp hentry)
    apply hnodup.map
    intro tx tx' heq
    exact congrArg Prod.fst heq
  · -- a transaction in two places would have two senders or two times
    have hkeys := p.transactions.nodupKeys_entries₂.pairwise_ne
    refine hkeys.imp_of_mem ?_
    rintro ⟨⟨sender, t⟩, txs⟩ ⟨⟨sender', t'⟩, txs'⟩ hentry hentry' hne x hx hx'
    obtain ⟨tx, htx, rfl⟩ := mem_map.mp hx
    obtain ⟨tx', htx', heq⟩ := mem_map.mp hx'
    cases heq
    have hown := h.own ⟨txs, mem_entries₂.mp hentry, htx⟩
    have hown' := h.own ⟨txs', mem_entries₂.mp hentry', htx'⟩
    rw [hown] at hown'
    cases hown'
    exact hne rfl

/-- **The queues are equal.** -/
theorem sameQueues : p.SameQueues := by
  rw [SameQueues, Multiset.coe_eq_coe, perm_ext_iff_of_nodup h.byArrival_nodup h.priority_nodup]
  intro e
  rw [mem_byArrival]
  exact h.same.symm

end Listed

/-! ## Removing -/

theorem Listed.remove (h : p.Listed crypto) (keep : Address → TimeStamp → Transaction → Prop)
    (hwaits : ∀ {sender t tx}, p'.Waits sender t tx ↔ p.Waits sender t tx ∧ keep sender t tx)
    (hmem : ∀ {tx t sender}, addressOf crypto tx.verifyingKey = .ok sender →
      ((tx, t) ∈ p'.transactionsPriority ↔ (tx, t) ∈ p.transactionsPriority ∧ keep sender t tx))
    (hsublist : p'.transactionsPriority.Sublist p.transactionsPriority)
    (hnodup : ∀ {sender t txs}, p'.transactions.lookup₂ sender t = some txs → txs.Nodup) :
    p'.Listed crypto where
  own := by
    intro sender t tx hw
    exact h.own (hwaits.mp hw).1
  same := by
    intro tx t
    constructor
    · intro hin
      obtain ⟨sender, hw⟩ := h.same.mp (hsublist.subset hin)
      have hkeep := ((hmem (h.own hw)).mp hin).2
      exact ⟨sender, hwaits.mpr ⟨hw, hkeep⟩⟩
    · rintro ⟨sender, hw'⟩
      obtain ⟨hw, hkeep⟩ := hwaits.mp hw'
      apply (hmem (h.own hw)).mpr
      exact ⟨h.same.mpr ⟨sender, hw⟩, hkeep⟩
  distinct := (hsublist.map _).nodup h.distinct
  nodup := hnodup

theorem exists_noted {byTime : Table TimeStamp (List Transaction)}
    (hlookup : p.transactions.lookup sender = some byTime) (hleft : ¬ byTime.entries.isEmpty) :
    ∃ t, p.Noted sender t := by
  have hne : byTime.entries ≠ [] := by
    intro hnil
    exact hleft (isEmpty_iff.mpr hnil)
  obtain ⟨⟨t, txs⟩, hentry⟩ := exists_mem_of_ne_nil _ hne
  refine ⟨t, ?_⟩
  rw [Noted, lookup₂, hlookup, Option.bind_some, mem_entries.mp hentry]
  rfl

/-- What is left of the transactions of one time without a signature. -/
def withoutSignature (signature : SignatureBytes) (txs : List Transaction) : Option (List Transaction) :=
  let txs := txs.filter (·.signature ≠ signature)
  if txs.isEmpty then none else some txs

theorem withoutSignature_eq_some {signature : SignatureBytes} {txs left : List Transaction} :
    withoutSignature signature txs = some left ↔ left = txs.filter (·.signature ≠ signature) ∧ left ≠ [] := by
  unfold withoutSignature
  by_cases hempty : (txs.filter (·.signature ≠ signature)).isEmpty
  · simp only [hempty, if_true]
    constructor
    · intro h
      cases h
    · rintro ⟨rfl, hne⟩
      exact absurd (isEmpty_iff.mp hempty) hne
  · simp only [hempty]
    constructor
    · intro h
      cases h
      exact ⟨rfl, fun hnil => hempty (isEmpty_iff.mpr hnil)⟩
    · rintro ⟨rfl, -⟩
      rfl

section

variable {tx : Transaction} {sender : Address}

section

variable (hsender : addressOf crypto tx.verifyingKey = .ok sender)

include hsender

theorem run_removeTransaction (p : Mempool) : (removeTransaction crypto tx).run p = (.ok (), { p with
      transactions :=
        match p.transactions.lookup sender with
        | none => p.transactions
        | some byTime =>
          let left := byTime.retain fun _ => withoutSignature tx.signature
          if left.entries.isEmpty then p.transactions.erase sender
          else p.transactions.insert sender left
      transactionsPriority := p.transactionsPriority.filter (·.1.signature ≠ tx.signature) }) := by
  rw [removeTransaction, hsender]
  rfl

/-- The times of a sender after a signature has been removed. A sender without any is removed too. -/
theorem lookup_removeTransaction (s : Address) :
    ((removeTransaction crypto tx).run p).2.transactions.lookup s =
      if s = sender then
        (p.transactions.lookup s).bind fun byTime =>
          (byTime.retain fun _ => withoutSignature tx.signature).unlessEmpty
      else p.transactions.lookup s := by
  rw [run_removeTransaction hsender]
  cases hlookup : p.transactions.lookup sender with
  | none =>
    by_cases hs : s = sender
    · rw [if_pos hs, hs, hlookup]
      rfl
    · rw [if_neg hs]
  | some byTime =>
    dsimp only
    unfold unlessEmpty
    by_cases hs : s = sender
    · rw [if_pos hs, hs, hlookup, Option.bind_some]
      by_cases hempty : (byTime.retain fun _ => withoutSignature tx.signature).entries.isEmpty
      · rw [if_pos hempty, if_pos hempty, lookup_erase_ite, if_pos rfl]
      · rw [if_neg hempty, if_neg hempty, lookup_insert_ite, if_pos rfl]
    · rw [if_neg hs]
      by_cases hempty : (byTime.retain fun _ => withoutSignature tx.signature).entries.isEmpty
      · rw [if_pos hempty, lookup_erase_ite, if_neg hs]
      · rw [if_neg hempty, lookup_insert_ite, if_neg hs]

theorem lookup₂_removeTransaction (s : Address) (t : TimeStamp) :
    ((removeTransaction crypto tx).run p).2.transactions.lookup₂ s t =
      if s = sender then (p.transactions.lookup₂ s t).bind (withoutSignature tx.signature)
      else p.transactions.lookup₂ s t := by
  unfold lookup₂
  rw [lookup_removeTransaction hsender]
  by_cases hs : s = sender
  · rw [if_pos hs, if_pos hs]
    cases p.transactions.lookup s with
    | none => rfl
    | some byTime =>
      simp only [Option.bind_some, unlessEmpty_bind_lookup, lookup_retain]
  · rw [if_neg hs, if_neg hs]

theorem waits_removeTransaction : ((removeTransaction crypto tx).run p).2.Waits s t tx' ↔
      p.Waits s t tx' ∧ (s = sender → tx'.signature ≠ tx.signature) := by
  unfold Waits
  rw [lookup₂_removeTransaction hsender]
  by_cases hs : s = sender
  · simp only [if_pos hs, Option.bind_eq_some_iff, withoutSignature_eq_some]
    constructor
    · rintro ⟨left, ⟨txs, hlookup, rfl, -⟩, htx'⟩
      rw [mem_filter, decide_eq_true_iff] at htx'
      exact ⟨⟨txs, hlookup, htx'.1⟩, fun _ => htx'.2⟩
    · rintro ⟨⟨txs, hlookup, htx'⟩, hsignature⟩
      have hleft : tx' ∈ txs.filter (·.signature ≠ tx.signature) := by
        rw [mem_filter, decide_eq_true_iff]
        exact ⟨htx', hsignature hs⟩
      exact ⟨_, ⟨txs, hlookup, rfl, ne_nil_of_mem hleft⟩, hleft⟩
  · simp [hs]

end

theorem Answered.removeTransaction (h : p.Answered fun _ _ => False)
    (hsender : addressOf crypto tx.verifyingKey = .ok sender) :
    ((removeTransaction crypto tx).run p).2.Answered fun _ _ => False := by
  have hlookup := lookup₂_removeTransaction (p := p) hsender
  refine ⟨?_, ?_⟩
  · intro s hs
    obtain ⟨byTime, hbyTime⟩ := Option.isSome_iff_exists.mp (lookup_isSome.mpr hs)
    have hleft := hbyTime
    rw [lookup_removeTransaction hsender] at hleft
    by_cases hself : s = sender
    · rw [if_pos hself, Option.bind_eq_some_iff] at hleft
      obtain ⟨before, -, hleft⟩ := hleft
      obtain ⟨rfl, hnonempty⟩ := unlessEmpty_eq_some.mp hleft
      exact exists_noted hbyTime hnonempty
    · rw [if_neg hself] at hleft
      obtain ⟨t, hnoted⟩ := h.inhabited (lookup_isSome.mp (by rw [hleft]; rfl))
      refine ⟨t, ?_⟩
      rw [Noted, hlookup, if_neg hself]
      exact hnoted
  · intro s t hnoted
    left
    by_cases hself : s = sender
    · -- a time without transactions has been removed
      rw [Noted, hlookup, if_pos hself] at hnoted
      obtain ⟨left, hleft⟩ := Option.isSome_iff_exists.mp hnoted
      obtain ⟨before, -, hfiltered⟩ := Option.bind_eq_some_iff.mp hleft
      obtain ⟨tx', htx'⟩ := exists_mem_of_ne_nil left (withoutSignature_eq_some.mp hfiltered).2
      refine ⟨t, tx', BitVec.le_refl t, left, ?_, htx'⟩
      rw [hlookup, if_pos hself]
      exact hleft
    · rw [Noted, hlookup, if_neg hself] at hnoted
      obtain ⟨t', tx', hle, hwaits⟩ := (h.answered hnoted).resolve_right id
      exact ⟨t', tx', hle, (waits_removeTransaction hsender).mpr ⟨hwaits, fun heq => absurd heq hself⟩⟩

/-- **A removed signature that only one sender uses** leaves the queues consistent. -/
theorem removeTransaction_consistent (h : p.Consistent crypto)
    (honly : ∀ sender, addressOf crypto tx.verifyingKey = .ok sender →
      ∀ e ∈ p.transactionsPriority, e.1.signature = tx.signature →
        addressOf crypto e.1.verifyingKey = .ok sender) :
    ((removeTransaction crypto tx).run p).2.Consistent crypto := by
  cases hsender : addressOf crypto tx.verifyingKey with
  | error e =>
    have hrun : ((removeTransaction crypto tx).run p).2 = p := by
      rw [removeTransaction, hsender]
      rfl
    rw [hrun]
    exact h
  | ok sender =>
    have hlookup := lookup₂_removeTransaction (p := p) hsender
    refine ⟨h.listed.remove (fun s _ tx' => s = sender → tx'.signature ≠ tx.signature)
      (waits_removeTransaction hsender) ?_ ?_ ?_, h.answered.removeTransaction hsender⟩
    · intro tx' t s hs
      rw [run_removeTransaction hsender, mem_filter, decide_eq_true_iff]
      refine and_congr_right fun hmem => ⟨fun hne _ => hne, fun hne heq => ?_⟩
      -- the signature is the sender's, so it has left both queues
      have howner := honly sender hsender _ hmem heq
      rw [hs] at howner
      cases howner
      exact hne rfl heq
    · rw [run_removeTransaction hsender]
      exact filter_sublist
    · intro s t txs htxs
      rw [hlookup] at htxs
      by_cases hs : s = sender
      · rw [if_pos hs, Option.bind_eq_some_iff] at htxs
        obtain ⟨before, hbefore, hleft⟩ := htxs
        rw [(withoutSignature_eq_some.mp hleft).1]
        exact (h.listed.nodup hbefore).filter _
      · rw [if_neg hs] at htxs
        exact h.listed.nodup htxs

end

/-! ### Expired transactions -/

section

variable {since : TimeStamp}

/-- The state after expired transactions have been removed. -/
def expire (since : TimeStamp) (p : Mempool) : Mempool :=
  { p with
    transactions := p.transactions.retain fun _ byTime =>
      (byTime.retain fun timestamp txs => if since ≤ timestamp then some txs else none).unlessEmpty
    transactionsPriority := p.transactionsPriority.filter (·.1 ∉ p.arrivedBefore since) }

theorem lookup_expire (s : Address) :
    (p.expire since).transactions.lookup s = (p.transactions.lookup s).bind fun byTime =>
        (byTime.retain fun timestamp txs =>
          if since ≤ timestamp then some txs else none).unlessEmpty := by
  rw [expire, lookup_retain]

theorem lookup₂_expire (s : Address) (t : TimeStamp) :
    (p.expire since).transactions.lookup₂ s t =
      if since ≤ t then p.transactions.lookup₂ s t else none := by
  unfold lookup₂
  rw [lookup_expire]
  cases p.transactions.lookup s with
  | none => simp
  | some byTime =>
    simp only [Option.bind_some, unlessEmpty_bind_lookup, lookup_retain]
    by_cases hle : since ≤ t
    · simp only [if_pos hle, Option.bind_fun_some]
    · simp only [if_neg hle, Option.bind_fun_none]

theorem waits_expire : (p.expire since).Waits s t tx ↔ p.Waits s t tx ∧ since ≤ t := by
  unfold Waits
  rw [lookup₂_expire]
  by_cases hle : since ≤ t
  · simp [hle]
  · simp [hle]

theorem mem_arrivedBefore : tx ∈ p.arrivedBefore since ↔ ∃ s t, p.Waits s t tx ∧ ¬ since ≤ t := by
  simp only [arrivedBefore, mem_flatMap]
  constructor
  · rintro ⟨⟨s, byTime⟩, hbyTime, ⟨t, txs⟩, htxs, hmem⟩
    by_cases hle : since ≤ t
    · rw [if_pos hle] at hmem
      cases hmem
    · rw [if_neg hle] at hmem
      refine ⟨s, t, ⟨txs, ?_, hmem⟩, hle⟩
      rw [lookup₂, mem_entries.mp hbyTime, Option.bind_some]
      exact mem_entries.mp htxs
  · rintro ⟨s, t, ⟨txs, hlookup, htx⟩, hle⟩
    obtain ⟨byTime, hbyTime, htxs⟩ := Option.bind_eq_some_iff.mp hlookup
    refine ⟨⟨s, byTime⟩, mem_entries.mpr hbyTime, ⟨t, txs⟩, mem_entries.mpr htxs, ?_⟩
    rw [if_neg hle]
    exact htx

/-- **Expired transactions leave both queues.** The list is searched for the transaction, the other queue for
    its time; a transaction waits only once, so this is the same. -/
theorem expire_consistent (h : p.Consistent crypto) : (p.expire since).Consistent crypto := by
  refine ⟨h.listed.remove (fun _ t _ => since ≤ t) waits_expire ?_ filter_sublist ?_, ?_, ?_⟩
  · intro tx t s hs
    rw [expire, mem_filter, decide_eq_true_iff, mem_arrivedBefore]
    refine and_congr_right fun hmem => ⟨fun hkept => ?_, ?_⟩
    · by_contra hold
      obtain ⟨s', hwaits⟩ := h.listed.same.mp hmem
      exact hkept ⟨s', t, hwaits, hold⟩
    · rintro hle ⟨s', t', hwaits, hold⟩
      have hmem' := h.listed.same.mpr ⟨s', hwaits⟩
      have heq := h.listed.eq_of_slot hmem hmem' rfl
      cases heq
      exact hold hle
  · intro s t txs htxs
    rw [lookup₂_expire] at htxs
    split at htxs
    · exact h.listed.nodup htxs
    · cases htxs
  · intro s hs
    obtain ⟨byTime, hbyTime⟩ := Option.isSome_iff_exists.mp (lookup_isSome.mpr hs)
    have hleft := hbyTime
    rw [lookup_expire, Option.bind_eq_some_iff] at hleft
    obtain ⟨before, -, hleft⟩ := hleft
    obtain ⟨rfl, hnonempty⟩ := unlessEmpty_eq_some.mp hleft
    exact exists_noted hbyTime hnonempty
  · intro s t hnoted
    left
    rw [Noted, lookup₂_expire] at hnoted
    split at hnoted
    · next hle =>
        -- what answers for a time is not older, so it stays with it
        obtain ⟨t', tx, hlater, hwaits⟩ := (h.answered.answered hnoted).resolve_right id
        exact ⟨t', tx, hlater, waits_expire.mpr ⟨hwaits, BitVec.le_trans hle hlater⟩⟩
    · cases hnoted

end

/-! ### Whole queues -/

theorem consistent_empty (h : p.transactions = ∅) (hpriority : p.transactionsPriority = []) :
    p.Consistent crypto := by
  have hnothing : ∀ {s t txs}, p.transactions.lookup₂ s t = some txs → False := by
    intro s t txs hlookup
    rw [h] at hlookup
    cases hlookup
  refine ⟨⟨?_, ?_, ?_, ?_⟩, ?_, ?_⟩
  · rintro s t tx ⟨txs, hlookup, -⟩
    exact (hnothing hlookup).elim
  · intro tx t
    rw [hpriority]
    constructor
    · intro hmem
      cases hmem
    · rintro ⟨s, txs, hlookup, -⟩
      exact (hnothing hlookup).elim
  · rw [hpriority]
    exact nodup_nil
  · intro s t txs hlookup
    exact (hnothing hlookup).elim
  · intro s hs
    rw [h] at hs
    exact absurd hs (notMem_empty s)
  · intro s t hnoted
    obtain ⟨txs, hlookup⟩ := Option.isSome_iff_exists.mp hnoted
    exact (hnothing hlookup).elim

end L1xCore.Mempool
