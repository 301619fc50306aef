import L1xCore.Mempool.Queues

/-!
# `Mempool.QueueRuns` — adding to both queues, and whole runs

A new transaction takes the place of the one with the same sender and nonce, if there is one, unless that one
has a higher fee limit. Between the two queues this is a state in which a time of one sender has no
transaction; the entry that goes in next answers for it (`insertTransaction_consistent`). The position in the
list is taken from the number of senders, so this is also what keeps it within the list.
-/

namespace L1xCore.Mempool

open Fallible Except List AList
open Account (addressOf)

variable {s : Address} {t : TimeStamp} {r : Request} {now : TimeStamp} {tx : Transaction} {rs : List Request}
  {crypto : Crypto} {p : Mempool} {v : Validate}

/-! ## Adding -/

theorem addressOf_of_checkTransaction {w : World} {sender : Address}
    (h : p.checkTransaction v w now tx = .ok sender) :
    addressOf v.rt.crypto tx.verifyingKey = .ok sender := by
  obtain ⟨-, -, h⟩ := bind_eq_ok.mp h
  obtain ⟨hash, -, h⟩ := bind_eq_ok.mp h
  obtain ⟨-, -, h⟩ := bind_eq_ok.mp h
  obtain ⟨found, hfound, h⟩ := bind_eq_ok.mp h
  obtain ⟨-, -, h⟩ := bind_eq_ok.mp h
  obtain ⟨-, -, h⟩ := bind_eq_ok.mp h
  cases h
  exact hfound

section

variable {sender : Address} {entry : Transaction × TimeStamp}

/-- The state after an entry has gone into both queues, at the position `pos` of the list. -/
def withEntry (p : Mempool) (sender : Address) (entry : Transaction × TimeStamp) (pos : Nat) : Mempool :=
  { p with
    transactions := p.transactions.upsert₂ sender entry.2 (· ++ [entry.1]) [entry.1]
    transactionsPriority := p.transactionsPriority.insertIdx pos entry }

variable {pos : Nat}

theorem lookup₂_withEntry (s : Address) (t : TimeStamp) :
    (p.withEntry sender entry pos).transactions.lookup₂ s t =
      if s = sender ∧ t = entry.2 then
        some ((p.transactions.lookup₂ sender entry.2).elim [entry.1] (· ++ [entry.1]))
      else p.transactions.lookup₂ s t :=
  lookup₂_upsert₂ _ _ _ _ _ _ _

theorem waits_withEntry :
    (p.withEntry sender entry pos).Waits s t tx ↔ p.Waits s t tx ∨ s = sender ∧ (tx, t) = entry := by
  unfold Waits
  rw [lookup₂_withEntry]
  by_cases hkey : s = sender ∧ t = entry.2
  · obtain ⟨rfl, rfl⟩ := hkey
    cases p.transactions.lookup₂ s entry.2 with
    | none | some => simp [Prod.ext_iff]
  · have hne : ¬ (s = sender ∧ (tx, t) = entry) := by
      rintro ⟨hs, rfl⟩
      exact hkey ⟨hs, rfl⟩
    simp [hkey, hne]

theorem noted_withEntry :
    (p.withEntry sender entry pos).Noted s t ↔ p.Noted s t ∨ s = sender ∧ t = entry.2 := by
  unfold Noted
  rw [lookup₂_withEntry]
  by_cases hkey : s = sender ∧ t = entry.2
  · simp [hkey]
  · simp [hkey]

/-- Every sender but the one that is being served has a transaction in the list. -/
theorem senders_le (h : p.Listed crypto) (hanswered : p.Answered fun s t => s = sender ∧ t ≤ entry.2)
    (pos : Nat) : (p.withEntry sender entry pos).transactions.keys.length - 1 ≤
      p.transactionsPriority.length := by
  generalize hkeys : (p.withEntry sender entry pos).transactions.keys = keys
  have hnodup : keys.Nodup := by
    rw [← hkeys]
    exact keys_nodup _
  have hself : sender ∈ keys := by
    rw [← hkeys, ← AList.mem_keys]
    exact mem_upsert₂.mpr (.inl rfl)
  have hinjective : Function.Injective (.ok : Address → Except Error Address) := by
    intro a b hab
    cases hab
    rfl
  have hsubset : (keys.erase sender).map .ok ⊆
      p.transactionsPriority.map fun e => addressOf crypto e.1.verifyingKey := by
    intro x hx
    obtain ⟨s, hs, rfl⟩ := mem_map.mp hx
    obtain ⟨hne, hmem⟩ := hnodup.mem_erase_iff.mp hs
    rw [← hkeys, ← AList.mem_keys] at hmem
    have hold : s ∈ p.transactions := (mem_upsert₂.mp hmem).resolve_left hne
    obtain ⟨t, hnoted⟩ := hanswered.inhabited hold
    obtain ⟨t', tx, -, hwaits⟩ := (hanswered.answered hnoted).resolve_right fun hexcept => hne hexcept.1
    exact mem_map.mpr ⟨(tx, t'), h.same.mpr ⟨s, hwaits⟩, h.own hwaits⟩
  have hle := (((hnodup.erase sender).map hinjective).subperm hsubset).length_le
  rw [length_map, length_map, length_erase_of_mem hself] at hle
  exact hle

theorem Listed.withEntry (h : p.Listed crypto) (hsender : addressOf crypto entry.1.verifyingKey = .ok sender)
    (hfree : ∀ e ∈ p.transactionsPriority, slot crypto e.1 ≠ slot crypto entry.1)
    (hbound : pos ≤ p.transactionsPriority.length) : (p.withEntry sender entry pos).Listed crypto := by
  have hmem : ∀ {e}, e ∈ (p.withEntry sender entry pos).transactionsPriority ↔
      e = entry ∨ e ∈ p.transactionsPriority := mem_insertIdx hbound
  refine ⟨?_, ?_, ?_, ?_⟩
  · intro s t tx hwaits
    rcases waits_withEntry.mp hwaits with hold | ⟨rfl, rfl⟩
    · exact h.own hold
    · exact hsender
  · intro tx t
    rw [hmem]
    constructor
    · rintro (hnew | hold)
      · exact ⟨sender, waits_withEntry.mpr (.inr ⟨rfl, hnew⟩)⟩
      · obtain ⟨s, hwaits⟩ := h.same.mp hold
        exact ⟨s, waits_withEntry.mpr (.inl hwaits)⟩
    · rintro ⟨s, hwaits⟩
      rcases waits_withEntry.mp hwaits with hold | ⟨-, hnew⟩
      · exact .inr (h.same.mpr ⟨s, hold⟩)
      · exact .inl hnew
  · have hperm := (perm_insertIdx entry p.transactionsPriority hbound).map
      fun e => slot crypto e.1
    refine hperm.nodup_iff.mpr (nodup_cons.mpr ⟨?_, h.distinct⟩)
    intro hin
    obtain ⟨e, he, hslot⟩ := mem_map.mp hin
    exact hfree e he hslot
  · intro s t txs hlookup
    rw [lookup₂_withEntry] at hlookup
    by_cases hkey : s = sender ∧ t = entry.2
    · rw [if_pos hkey] at hlookup
      cases hbefore : p.transactions.lookup₂ sender entry.2 with
      | none =>
        rw [hbefore] at hlookup
        cases hlookup
        exact nodup_singleton _
      | some before =>
        rw [hbefore] at hlookup
        cases hlookup
        refine .append (h.nodup hbefore) (nodup_singleton _) ?_
        intro tx htx htx'
        cases mem_singleton.mp htx'
        exact hfree _ (h.same.mpr ⟨sender, before, hbefore, htx⟩) rfl
    · rw [if_neg hkey] at hlookup
      exact h.nodup hlookup

/-- The new entry answers for the times of its sender that had lost theirs. -/
theorem Answered.withEntry (hanswered : p.Answered fun s t => s = sender ∧ t ≤ entry.2) (pos : Nat) :
    (p.withEntry sender entry pos).Answered fun _ _ => False := by
  have hnew : (p.withEntry sender entry pos).Waits sender entry.2 entry.1 :=
    waits_withEntry.mpr (.inr ⟨rfl, rfl⟩)
  refine ⟨?_, ?_⟩
  · intro s hs
    rcases mem_upsert₂.mp hs with rfl | hold
    · exact ⟨entry.2, noted_withEntry.mpr (.inr ⟨rfl, rfl⟩)⟩
    · obtain ⟨t, hnoted⟩ := hanswered.inhabited hold
      exact ⟨t, noted_withEntry.mpr (.inl hnoted)⟩
  · intro s t hnoted
    left
    rcases noted_withEntry.mp hnoted with hold | ⟨rfl, rfl⟩
    · rcases hanswered.answered hold with ⟨t', tx, hle, hwaits⟩ | ⟨rfl, hle⟩
      · exact ⟨t', tx, hle, waits_withEntry.mpr (.inl hwaits)⟩
      · exact ⟨entry.2, entry.1, hle, hnew⟩
    · exact ⟨entry.2, entry.1, BitVec.le_refl _, hnew⟩

/-- **An entry for a free slot goes into both queues.** -/
theorem insertTransaction_consistent (h : p.Listed crypto)
    (hanswered : p.Answered fun s t => s = sender ∧ t ≤ entry.2)
    (hsender : addressOf crypto entry.1.verifyingKey = .ok sender)
    (hfree : ∀ e ∈ p.transactionsPriority, slot crypto e.1 ≠ slot crypto entry.1) :
    ∃ pos, pos ≤ p.transactionsPriority.length ∧
      (insertTransaction sender entry).run p = (.ok (), p.withEntry sender entry pos) ∧
      (p.withEntry sender entry pos).Consistent crypto := by
  have hbound : ({ p with
      transactions := p.transactions.upsert₂ sender entry.2 (· ++ [entry.1]) [entry.1] } :
        Mempool).insertionPos entry.1 ≤ p.transactionsPriority.length := by
    unfold insertionPos
    cases hfound : p.transactionsPriority.findIdx? (·.1.feeLimit < entry.1.feeLimit) with
    | none => exact senders_le h hanswered 0
    | some i =>
      have hlt := (findIdx?_eq_some_iff_findIdx_eq.mp hfound).1
      exact le_of_lt hlt
  refine ⟨_, hbound, ?_, h.withEntry hsender hfree hbound, hanswered.withEntry _⟩
  show (if _ ≤ p.transactionsPriority.length then _ else _ : Op Unit).run _ = _
  rw [if_pos hbound]
  rfl

end

section

variable {sender : Address} {tx : Transaction} {now : TimeStamp} (v : Validate) (w : World)

/-- The state after a conflicting entry has left both queues; `txs` are the transactions of its time. -/
def withoutEntry (crypto : Crypto) (p : Mempool) (sender : Address) (tx : Transaction)
    (c : Transaction × TimeStamp) (txs : List Transaction) : Mempool :=
  { p with
    transactions := p.transactions.insert₂ sender c.2 (txs.filter (·.nonce ≠ c.1.nonce))
    transactionsPriority := p.transactionsPriority.filter fun e => !hasConflict crypto e.1 tx }

section

variable {c : Transaction × TimeStamp} {txs : List Transaction}
  (htxs : p.transactions.lookup₂ sender c.2 = some txs)
include htxs

theorem noted_withoutEntry : (withoutEntry crypto p sender tx c txs).Noted s t ↔ p.Noted s t := by
  unfold Noted withoutEntry
  rw [lookup₂_insert₂]
  by_cases hkey : s = sender ∧ t = c.2
  · rw [if_pos hkey, hkey.1, hkey.2, htxs]
    rfl
  · rw [if_neg hkey]

/-- Within the time of the conflict its nonce names it, elsewhere it is not. -/
theorem waits_withoutEntry (h : p.Listed crypto) (hmem : c ∈ p.transactionsPriority)
    (howner : addressOf crypto c.1.verifyingKey = .ok sender) {tx' : Transaction} :
    (withoutEntry crypto p sender tx c txs).Waits s t tx' ↔ p.Waits s t tx' ∧ (tx', t) ≠ c := by
  unfold Waits withoutEntry
  rw [lookup₂_insert₂]
  by_cases hkey : s = sender ∧ t = c.2
  · obtain ⟨rfl, rfl⟩ := hkey
    rw [if_pos ⟨rfl, rfl⟩, htxs]
    constructor
    · rintro ⟨left, hleft, htx'⟩
      cases hleft
      rw [mem_filter, decide_eq_true_iff] at htx'
      refine ⟨⟨txs, rfl, htx'.1⟩, fun heq => ?_⟩
      exact htx'.2 (congrArg (·.1.nonce) heq)
    · rintro ⟨⟨_, hsome, htx'⟩, hne⟩
      cases hsome
      refine ⟨_, rfl, mem_filter.mpr ⟨htx', decide_eq_true ?_⟩⟩
      intro hnonce
      apply hne
      have hwaits : p.Waits s c.2 tx' := ⟨txs, htxs, htx'⟩
      refine h.eq_of_slot (h.same.mpr ⟨s, hwaits⟩) hmem ?_
      exact Prod.ext ((h.own hwaits).trans howner.symm) hnonce
  · rw [if_neg hkey]
    refine (and_iff_left_of_imp ?_).symm
    rintro hwaits rfl
    apply hkey
    have hown := h.own hwaits
    rw [howner] at hown
    cases hown
    exact ⟨rfl, rfl⟩

end

theorem run_getConflicts (p : Mempool) :
    (getConflicts crypto tx).run p =
      (.ok (p.transactionsPriority.filter fun e => hasConflict crypto e.1 tx),
        { p with transactionsPriority :=
            (p.transactionsPriority.filter fun e => !hasConflict crypto e.1 tx) }) := rfl

theorem run_resolveConflicts_none (hsender : addressOf crypto tx.verifyingKey = .ok sender)
    (hfree : ∀ e ∈ p.transactionsPriority, slot crypto e.1 ≠ slot crypto tx) :
    (resolveConflicts crypto now tx).run p = (.ok (tx, now), p) := by
  have hnone : p.transactionsPriority.filter (fun e => hasConflict crypto e.1 tx) = [] := by
    rw [filter_eq_nil_iff]
    intro e he
    rw [hasConflict_iff hsender]
    exact hfree e he
  have hall : p.transactionsPriority.filter (fun e => !hasConflict crypto e.1 tx) =
      p.transactionsPriority := by
    rw [filter_eq_self]
    intro e he
    rw [Bool.not_eq_true', Bool.eq_false_iff, Ne, hasConflict_iff hsender]
    exact hfree e he
  have hget := @run_getConflicts crypto tx p
  rw [hnone, hall] at hget
  rw [resolveConflicts, run_bind_of_ok hget]
  rfl

section

variable {c : Transaction × TimeStamp} {txs : List Transaction}

theorem mem_withoutEntry (hsender : addressOf crypto tx.verifyingKey = .ok sender)
    {e : Transaction × TimeStamp} :
    e ∈ (withoutEntry crypto p sender tx c txs).transactionsPriority ↔
      e ∈ p.transactionsPriority ∧ slot crypto e.1 ≠ slot crypto tx := by
  rw [withoutEntry, mem_filter, Bool.not_eq_true', Bool.eq_false_iff, Ne, hasConflict_iff hsender]

variable (h : p.Consistent crypto) (hsender : addressOf crypto tx.verifyingKey = .ok sender)
  (hmem : c ∈ p.transactionsPriority) (hslot : slot crypto c.1 = slot crypto tx)
  (htxs : p.transactions.lookup₂ sender c.2 = some txs)
include h hsender hmem hslot htxs

theorem listed_withoutEntry : (withoutEntry crypto p sender tx c txs).Listed crypto := by
  have howner : addressOf crypto c.1.verifyingKey = .ok sender := (congrArg Prod.fst hslot).trans hsender
  refine h.listed.remove (fun _ t tx' => (tx', t) ≠ c)
    (waits_withoutEntry htxs h.listed hmem howner) ?_ filter_sublist ?_
  · intro tx' t s _
    rw [mem_withoutEntry hsender]
    refine and_congr_right fun hin => ⟨?_, fun hne hsame => ?_⟩
    · rintro hother rfl
      exact hother hslot
    · exact hne (h.listed.eq_of_slot hin hmem (hsame.trans hslot.symm))
  · intro s t left hleft
    rw [withoutEntry, lookup₂_insert₂] at hleft
    split at hleft
    · cases hleft
      exact (h.listed.nodup htxs).filter _
    · exact h.listed.nodup hleft

/-- Only the times of the sender up to that of the conflict may have lost their transaction. -/
theorem answered_withoutEntry {stamp : TimeStamp} (hstamp : c.2 ≤ stamp) :
    (withoutEntry crypto p sender tx c txs).Answered fun s t => s = sender ∧ t ≤ stamp := by
  have howner : addressOf crypto c.1.verifyingKey = .ok sender := (congrArg Prod.fst hslot).trans hsender
  constructor
  · intro s hs
    have hold : s ∈ p.transactions := by
      rw [withoutEntry, insert₂_eq_upsert₂, mem_upsert₂] at hs
      rcases hs with rfl | hold
      · obtain ⟨byTime, hbyTime, -⟩ := Option.bind_eq_some_iff.mp htxs
        rw [← lookup_isSome, hbyTime]
        rfl
      · exact hold
    obtain ⟨t, hnoted⟩ := h.answered.inhabited hold
    exact ⟨t, (noted_withoutEntry htxs).mpr hnoted⟩
  · intro s t hnoted
    obtain ⟨t', tx', hle, hw⟩ := (h.answered.answered ((noted_withoutEntry htxs).mp hnoted)).resolve_right id
    by_cases hc : (tx', t') = c
    · right
      have hown := h.listed.own hw
      subst hc
      rw [howner] at hown
      cases hown
      exact ⟨rfl, BitVec.le_trans hle hstamp⟩
    · left
      exact ⟨t', tx', hle, (waits_withoutEntry htxs h.listed hmem howner).mpr ⟨hw, hc⟩⟩

end

/-- **The conflict is replaced or replaces**: nothing has the slot, or one entry had it and has left both
    queues, and the one of the two with the higher fee limit goes in. -/
theorem resolveConflicts_cases (h : p.Listed crypto)
    (hsender : addressOf crypto tx.verifyingKey = .ok sender) :
    ((∀ e ∈ p.transactionsPriority, slot crypto e.1 ≠ slot crypto tx) ∧
      (resolveConflicts crypto now tx).run p = (.ok (tx, now), p)) ∨
    ∃ c txs, c ∈ p.transactionsPriority ∧ slot crypto c.1 = slot crypto tx ∧
      p.transactions.lookup₂ sender c.2 = some txs ∧ (resolveConflicts crypto now tx).run p =
        (.ok (if tx.feeLimit < c.1.feeLimit then c else (tx, now)),
          withoutEntry crypto p sender tx c txs) := by
  by_cases hfree : ∀ e ∈ p.transactionsPriority, slot crypto e.1 ≠ slot crypto tx
  · exact .inl ⟨hfree, run_resolveConflicts_none hsender hfree⟩
  · push Not at hfree
    obtain ⟨c, hmem, hslot⟩ := hfree
    -- no other entry is in conflict
    have honly : p.transactionsPriority.filter (fun e => hasConflict crypto e.1 tx) =
        p.transactionsPriority.filter (· == c) := by
      refine filter_congr fun e he => ?_
      rw [Bool.eq_iff_iff, hasConflict_iff hsender, beq_iff_eq]
      constructor
      · intro hsame
        exact h.eq_of_slot he hmem (hsame.trans hslot.symm)
      · rintro rfl
        exact hslot
    have hconflicts : p.transactionsPriority.filter (fun e => hasConflict crypto e.1 tx) = [c] := by
      rw [honly, filter_beq, count_eq_one_of_mem h.priority_nodup hmem]
      rfl
    have howner : addressOf crypto c.1.verifyingKey = .ok sender := (congrArg Prod.fst hslot).trans hsender
    obtain ⟨txs, htxs, -⟩ := h.waits_iff.mpr ⟨hmem, howner⟩
    refine .inr ⟨c, txs, hmem, hslot, htxs, ?_⟩
    -- the conflict leaves both queues
    have hget := @run_getConflicts crypto tx p
    rw [hconflicts] at hget
    rw [resolveConflicts, run_bind_of_ok hget]
    generalize hq : ({ p with transactionsPriority :=
      (p.transactionsPriority.filter fun e => !hasConflict crypto e.1 tx) } : Mempool) = q
    have hlookup : q.transactions.lookup₂ sender c.2 = some txs := by
      rw [← hq]
      exact htxs
    have hremove : (forEach [c] (removeConflict crypto)).run q =
        (.ok (), { q with
          transactions := q.transactions.insert₂ sender c.2 (txs.filter (·.nonce ≠ c.1.nonce)) }) := by
      rw [run_forEach_singleton, removeConflict, howner, run_bind_of_ok (run_lift _ _), run_update, hlookup]
    show (forEach [c] (removeConflict crypto) >>= _).run q = _
    rw [run_bind_of_ok hremove, ← hq]
    rfl

/-- **What takes the place of a conflict**: an entry for the slot that is free now. -/
theorem resolveConflicts_listed (h : p.Consistent crypto) (hstamps : p.StampedUpTo now)
    (hsender : addressOf crypto tx.verifyingKey = .ok sender) :
    ∃ entry p₁, (resolveConflicts crypto now tx).run p = (.ok entry, p₁) ∧
      p₁.Listed crypto ∧ (p₁.Answered fun s t => s = sender ∧ t ≤ entry.2) ∧
      slot crypto entry.1 = slot crypto tx ∧
      (∀ e, e ∈ p₁.transactionsPriority ↔ e ∈ p.transactionsPriority ∧ slot crypto e.1 ≠ slot crypto tx) ∧
      (∀ {s t}, p₁.Noted s t → p.Noted s t) ∧ (entry.2 = now ∨ p.Noted sender entry.2) := by
  rcases resolveConflicts_cases h.listed hsender with ⟨hfree, hrun⟩ | ⟨c, txs, hmem, hslot, htxs, hrun⟩
  · refine ⟨(tx, now), p, hrun, h.listed, ?_, rfl, fun e => (and_iff_left_of_imp (hfree e)).symm,
      fun hnoted => hnoted, .inl rfl⟩
    refine ⟨h.answered.inhabited, fun hnoted => ?_⟩
    exact .inl ((h.answered.answered hnoted).resolve_right id)
  · have hnoted : p.Noted sender c.2 := by
      rw [Noted, htxs]
      rfl
    have hentry : (if tx.feeLimit < c.1.feeLimit then c else (tx, now)) = (tx, now) ∨
        (if tx.feeLimit < c.1.feeLimit then c else (tx, now)) = c := by
      by_cases hfee : tx.feeLimit < c.1.feeLimit
      · exact .inr (if_pos hfee)
      · exact .inl (if_neg hfee)
    generalize (if tx.feeLimit < c.1.feeLimit then c else (tx, now)) = entry at hrun hentry
    -- the clock has not gone back, so the entry is not older than the conflict
    have hnotOlder : c.2 ≤ entry.2 := by
      rcases hentry with rfl | rfl
      · exact hstamps hnoted
      · exact BitVec.le_refl _
    refine ⟨entry, _, hrun, listed_withoutEntry h hsender hmem hslot htxs,
      answered_withoutEntry h hsender hmem hslot htxs hnotOlder, ?_, fun e => mem_withoutEntry hsender, ?_, ?_⟩
    · rcases hentry with rfl | rfl
      · rfl
      · exact hslot
    · intro s t hnoted
      exact (noted_withoutEntry htxs).mp hnoted
    · rcases hentry with rfl | rfl
      · exact .inl rfl
      · exact .inr hnoted

/-- **What adding does**: nothing, if a check fails; otherwise an entry takes the free slot, in both queues. -/
theorem addTransaction_cases (tx : Transaction) (h : p.Consistent v.rt.crypto) (hstamps : p.StampedUpTo now) :
    (∃ e, (addTransaction v w now tx).run p = (.error e, p)) ∨
    ∃ sender entry p₁ pos, addressOf v.rt.crypto tx.verifyingKey = .ok sender ∧
      (resolveConflicts v.rt.crypto now tx).run p = (.ok entry, p₁) ∧
      pos ≤ p₁.transactionsPriority.length ∧
      (addTransaction v w now tx).run p = (.ok (), p₁.withEntry sender entry pos) ∧
      (p₁.withEntry sender entry pos).Consistent v.rt.crypto ∧
      slot v.rt.crypto entry.1 = slot v.rt.crypto tx ∧
      (∀ e, e ∈ p₁.transactionsPriority ↔
        e ∈ p.transactionsPriority ∧ slot v.rt.crypto e.1 ≠ slot v.rt.crypto tx) ∧
      (∀ {s t}, p₁.Noted s t → p.Noted s t) ∧ (entry.2 = now ∨ p.Noted sender entry.2) := by
  cases hcheck : p.checkTransaction v w now tx with
  | error e =>
    refine .inl ⟨e, ?_⟩
    rw [addTransaction, run_bind_of_ok (run_state p), hcheck]
    rfl
  | ok sender =>
    have hsender : addressOf v.rt.crypto tx.verifyingKey = .ok sender := addressOf_of_checkTransaction hcheck
    obtain ⟨entry, p₁, hresolve, hlisted, hanswered, hslot, hmem, hsame, hstamp⟩ :=
      resolveConflicts_listed h hstamps hsender
    have howner : addressOf v.rt.crypto entry.1.verifyingKey = .ok sender :=
      (congrArg Prod.fst hslot).trans hsender
    have hfree : ∀ e ∈ p₁.transactionsPriority, slot v.rt.crypto e.1 ≠ slot v.rt.crypto entry.1 := by
      intro e he
      rw [hslot]
      exact ((hmem e).mp he).2
    obtain ⟨pos, hbound, hinsert, hconsistent⟩ := insertTransaction_consistent hlisted hanswered howner hfree
    refine .inr ⟨sender, entry, p₁, pos, hsender, hresolve, hbound, ?_, hconsistent, hslot, hmem, hsame,
      hstamp⟩
    rw [addTransaction, run_bind_of_ok (run_state p), hcheck]
    show (resolveConflicts v.rt.crypto now tx >>= _).run p = _
    rw [run_bind_of_ok hresolve]
    exact hinsert

/-- **Adding keeps the queues consistent**, and notes no time but the present. -/
theorem addTransaction_consistent (h : p.Consistent v.rt.crypto) (hstamps : p.StampedUpTo now) :
    ((addTransaction v w now tx).run p).2.Consistent v.rt.crypto ∧
      ∀ {s t}, ((addTransaction v w now tx).run p).2.Noted s t → p.Noted s t ∨ t = now := by
  rcases addTransaction_cases v w tx h hstamps with ⟨e, hrun⟩ |
    ⟨sender, entry, p₁, pos, -, -, -, hrun, hconsistent, -, -, hsame, hstamp⟩
  · rw [hrun]
    exact ⟨h, fun hnoted => .inl hnoted⟩
  · rw [hrun]
    refine ⟨hconsistent, fun {s t} hnoted => ?_⟩
    rcases noted_withEntry.mp hnoted with hold | ⟨rfl, rfl⟩
    · exact .inl (hsame hold)
    · exact hstamp.symm

end

/-! ## Calls -/

/-- The calls that change the queues. -/
inductive Request where
  | addTransaction (w : World) (currentTime : TimeStamp) (tx : Transaction)
  | removeTransaction (tx : Transaction)
  | removeExpiredTransactions (currentTime : TimeStamp)
  | clearTransactions
  | removeTransactionBySender (sender : Address)

namespace Request

/-- The time a call reads. -/
def time : Request → Option TimeStamp
  | .addTransaction _ currentTime _ => some currentTime
  | .removeExpiredTransactions currentTime => some currentTime
  | _ => none

/-- The mempool after a call, successful or not. -/
def exec (v : Validate) : Request → Mempool → Mempool
  | .addTransaction w currentTime tx, p => ((Mempool.addTransaction v w currentTime tx).run p).2
  | .removeTransaction tx, p => ((Mempool.removeTransaction v.rt.crypto tx).run p).2
  | .removeExpiredTransactions currentTime, p =>
    ((Mempool.removeExpiredTransactions currentTime).run p).2
  | .clearTransactions, p => (Mempool.clearTransactions.run p).2
  | .removeTransactionBySender sender, p => ((Mempool.removeTransactionBySender sender).run p).2

/-- The call removes by a key that is not shared: a removed signature belongs to one sender, and a removed
    sender has nothing waiting. -/
def RemovesFromBoth (crypto : Crypto) : Request → Mempool → Prop
  | .removeTransaction tx, p => ∀ sender, addressOf crypto tx.verifyingKey = .ok sender →
      ∀ e ∈ p.transactionsPriority, e.1.signature = tx.signature →
        addressOf crypto e.1.verifyingKey = .ok sender
  | .removeTransactionBySender sender, p =>
    ∀ e ∈ p.transactionsPriority, addressOf crypto e.1.verifyingKey ≠ .ok sender
  | _, _ => True

variable (v : Validate)

/-- **Every call that removes from both queues keeps them consistent.** -/
theorem exec_consistent (r : Request) (h : p.Consistent v.rt.crypto)
    (hstamps : ∀ now, r.time = some now → p.StampedUpTo now)
    (hboth : r.RemovesFromBoth v.rt.crypto p) : (r.exec v p).Consistent v.rt.crypto := by
  cases r with
  | addTransaction w now tx => exact (addTransaction_consistent v w h (hstamps now rfl)).1
  | removeTransaction tx => exact removeTransaction_consistent h hboth
  | removeExpiredTransactions now => exact expire_consistent h
  | clearTransactions => exact consistent_empty rfl rfl
  | removeTransactionBySender sender =>
    -- a sender without waiting transactions has no queue to lose
    have hnone : sender ∉ p.transactions := by
      intro hmem
      obtain ⟨t, hnoted⟩ := h.answered.inhabited hmem
      obtain ⟨t', tx, -, hwaits⟩ := (h.answered.answered hnoted).resolve_right id
      exact hboth _ (h.listed.same.mpr ⟨sender, hwaits⟩) (h.listed.own hwaits)
    have hsame : p.transactions.erase sender = p.transactions := ext (kerase_of_notMem_keys hnone)
    show ({ p with transactions := p.transactions.erase sender } : Mempool).Consistent v.rt.crypto
    rw [hsame]
    exact h

theorem noted_of_removal (hremoval : ∀ w now tx, r ≠ .addTransaction w now tx) (v : Validate)
    (hnoted : (r.exec v p).Noted s t) : p.Noted s t := by
  cases r with
  | addTransaction w now tx => exact absurd rfl (hremoval w now tx)
  | removeTransaction tx =>
    cases hsender : addressOf v.rt.crypto tx.verifyingKey with
    | error e =>
      have hrun : ((Mempool.removeTransaction v.rt.crypto tx).run p).2 = p := by
        rw [Mempool.removeTransaction, hsender]
        rfl
      rw [exec, hrun] at hnoted
      exact hnoted
    | ok sender =>
      rw [exec, Noted, lookup₂_removeTransaction hsender] at hnoted
      by_cases hs : s = sender
      · rw [if_pos hs] at hnoted
        obtain ⟨left, hleft⟩ := Option.isSome_iff_exists.mp hnoted
        obtain ⟨txs, htxs, -⟩ := Option.bind_eq_some_iff.mp hleft
        rw [Noted, htxs]
        rfl
      · rw [if_neg hs] at hnoted
        exact hnoted
  | removeExpiredTransactions now =>
    rw [exec, show ((Mempool.removeExpiredTransactions now).run p).2 = p.expire _ from rfl, Noted,
      lookup₂_expire] at hnoted
    split at hnoted
    · exact hnoted
    · cases hnoted
  | clearTransactions => cases hnoted
  | removeTransactionBySender sender =>
    have hlookup : (p.transactions.erase sender).lookup₂ s t =
        if s = sender then none else p.transactions.lookup₂ s t := by
      unfold lookup₂
      rw [lookup_erase_ite]
      split <;> rfl
    have herased : ((p.transactions.erase sender).lookup₂ s t).isSome := hnoted
    rw [hlookup] at herased
    split at herased
    · cases herased
    · exact herased

theorem exec_stamped (r : Request) (h : p.Consistent v.rt.crypto) {later : TimeStamp}
    (hstamps : ∀ now, r.time = some now → p.StampedUpTo now ∧ now ≤ later)
    (hlater : p.StampedUpTo later) : (r.exec v p).StampedUpTo later := by
  intro s t hnoted
  by_cases hadds : ∃ w now tx, r = .addTransaction w now tx
  · obtain ⟨w, now, tx, rfl⟩ := hadds
    obtain ⟨hnow, hle⟩ := hstamps now rfl
    rcases (addTransaction_consistent v w h hnow).2 hnoted with hold | rfl
    · exact hlater hold
    · exact hle
  · apply hlater
    apply noted_of_removal _ v hnoted
    intro w now tx hr
    exact hadds ⟨w, now, tx, hr⟩

/-- **A call that removes from one queue only makes them differ.** -/
theorem not_sameQueues (r : Request) (h : p.Consistent v.rt.crypto)
    (hone : ¬ r.RemovesFromBoth v.rt.crypto p) : ¬ (r.exec v p).SameQueues := by
  intro hsame
  have hmem : ∀ e, e ∈ (r.exec v p).byArrival ↔ e ∈ (r.exec v p).transactionsPriority := by
    intro e
    have hiff := congrArg (e ∈ ·) hsame
    simpa using hiff
  cases r with
  | addTransaction | removeExpiredTransactions | clearTransactions => exact hone trivial
  | removeTransaction tx =>
    simp only [RemovesFromBoth, not_forall] at hone
    obtain ⟨sender, hsender, e, he, hsignature, hother⟩ := hone
    obtain ⟨s, hwaits⟩ := h.listed.same.mp he
    have hne : s ≠ sender := by
      rintro rfl
      exact hother (h.listed.own hwaits)
    -- the other sender keeps the transaction in its queue, the list does not
    have hkept := (hmem e).mp (mem_byArrival.mpr ⟨s, (waits_removeTransaction hsender).mpr
      ⟨hwaits, fun heq => absurd heq hne⟩⟩)
    rw [exec, run_removeTransaction hsender, mem_filter, decide_eq_true_iff] at hkept
    exact hkept.2 hsignature
  | removeTransactionBySender sender =>
    simp only [RemovesFromBoth, not_forall, not_not] at hone
    obtain ⟨e, he, howner⟩ := hone
    -- the list keeps the transaction, and only its sender had it in a queue
    obtain ⟨s, txs, hlookup, htx⟩ := mem_byArrival.mp ((hmem e).mpr he)
    have herased : ((p.transactions.erase sender).lookup s).bind (·.lookup e.2) = some txs := hlookup
    rw [lookup_erase_ite] at herased
    split at herased
    · cases herased
    · next hne =>
        have hown := h.listed.own ⟨txs, herased, htx⟩
        rw [howner] at hown
        cases hown
        exact hne rfl

end Request

/-! ## Runs -/

/-- The mempool after a sequence of calls. -/
def runRequests (v : Validate) : List Request → Mempool → Mempool
  | [], p => p
  | r :: rs, p => runRequests v rs (r.exec v p)

/-- Every call of the run removes from both queues or from none. -/
def AllRemoveFromBoth (v : Validate) : List Request → Mempool → Prop
  | [], _ => True
  | r :: rs, p => r.RemovesFromBoth v.rt.crypto p ∧ AllRemoveFromBoth v rs (r.exec v p)

/-- The clock does not go back from call to call. -/
def Timely (rs : List Request) : Prop := (rs.filterMap Request.time).Pairwise (· ≤ ·)

instance decidableTimely : DecidablePred Timely := fun rs =>
  inferInstanceAs (Decidable ((rs.filterMap Request.time).Pairwise (· ≤ ·)))

theorem Timely.cons (h : Timely (r :: rs)) :
    Timely rs ∧ ∀ now, r.time = some now → ∀ later ∈ rs.filterMap Request.time, now ≤ later := by
  unfold Timely at h ⊢
  cases hr : r.time with
  | none =>
    rw [filterMap_cons_none hr] at h
    exact ⟨h, fun _ hnow => by cases hnow⟩
  | some now =>
    rw [filterMap_cons_some hr, pairwise_cons] at h
    refine ⟨h.2, fun _ hnow => ?_⟩
    cases hnow
    exact h.1

theorem Request.mem_times : now ∈ (r :: rs).filterMap time ↔ r.time = some now ∨ now ∈ rs.filterMap time := by
  cases hr : r.time with
  | none => simp [filterMap_cons_none hr]
  | some first => simp [filterMap_cons_some hr, eq_comm]

theorem runRequests_sameQueues_iff (h : p.Consistent v.rt.crypto) (hclock : Timely rs)
    (hstamps : ∀ now ∈ rs.filterMap Request.time, p.StampedUpTo now) :
    (∀ earlier, earlier <+: rs → (runRequests v earlier p).SameQueues) ↔ AllRemoveFromBoth v rs p := by
  induction rs generalizing p with
  | nil =>
    refine ⟨fun _ => trivial, fun _ earlier hearlier => ?_⟩
    rw [prefix_nil.mp hearlier]
    exact h.listed.sameQueues
  | cons r rs ih =>
    have hnow : ∀ now, r.time = some now → p.StampedUpTo now := fun now hr =>
      hstamps now (Request.mem_times.mpr (.inl hr))
    have hlater : ∀ later ∈ rs.filterMap Request.time, p.StampedUpTo later := fun later hmem =>
      hstamps later (Request.mem_times.mpr (.inr hmem))
    -- the times of the later calls are not before that of this one
    obtain ⟨hrest, hafter⟩ := hclock.cons
    by_cases hboth : r.RemovesFromBoth v.rt.crypto p
    · have hstamped : ∀ later ∈ rs.filterMap Request.time, (r.exec v p).StampedUpTo later := by
        intro later hmem
        exact r.exec_stamped v h (fun now hr => ⟨hnow now hr, hafter now hr later hmem⟩)
          (hlater later hmem)
      have hih := ih (r.exec_consistent v h hnow hboth) hrest hstamped
      constructor
      · intro hsame
        refine ⟨hboth, hih.mp fun earlier hearlier => ?_⟩
        exact hsame (r :: earlier) (cons_prefix_cons.mpr ⟨rfl, hearlier⟩)
      · rintro ⟨-, hall⟩ earlier hearlier
        cases earlier with
        | nil => exact h.listed.sameQueues
        | cons r' earlier =>
          obtain ⟨rfl, hlonger⟩ := cons_prefix_cons.mp hearlier
          exact hih.mpr hall earlier hlonger
    · refine iff_of_false (fun hsame => ?_) fun hall => hboth hall.1
      have hfirst := hsame [r] (cons_prefix_cons.mpr ⟨rfl, nil_prefix⟩)
      exact r.not_sameQueues v h hboth hfirst

/-- **When the two queues hold the same transactions.** From the empty mempool, in any sequence of calls with
    any transactions and a clock that does not go back: the queues are equal in every state reached exactly if
    no call removes a signature that another sender waits with, or a sender that has something waiting. -/
theorem queues_agree_iff (v : Validate) (maxSize : Nat) (feeLimit : Balance) (rateLimit : Nat)
    (timeFrameSeconds expirationSeconds : TimeStamp) (rs : List Request) (hclock : Timely rs) :
    let start := Mempool.new maxSize feeLimit rateLimit timeFrameSeconds expirationSeconds
    (∀ earlier, earlier <+: rs → (runRequests v earlier start).SameQueues) ↔
      AllRemoveFromBoth v rs start := by
  refine runRequests_sameQueues_iff (consistent_empty rfl rfl) hclock ?_
  intro now _ s t hnoted
  cases hnoted

/-! ## Two requests without a signature -/

/-- The account with address `n` asks for a pool. Such a request needs no signature. -/
def poolRequest (n : UInt8) : Transaction :=
  { Validate.unsignedPool with verifyingKey := Small.key n }

/-- Two accounts ask for a pool, and the request of the first one is removed. -/
def twoPools : List Request :=
  [.addTransaction ⟨⟨.empty, .empty⟩, ⟨none, none, none⟩⟩ 5 (poolRequest 1),
    .addTransaction ⟨⟨.empty, .empty⟩, ⟨none, none, none⟩⟩ 6 (poolRequest 2),
    .removeTransaction (poolRequest 1)]

/-- One account asks for a pool, and its request is removed. -/
def onePool : List Request :=
  [.addTransaction ⟨⟨.empty, .empty⟩, ⟨none, none, none⟩⟩ 5 (poolRequest 1),
    .removeTransaction (poolRequest 1), .removeExpiredTransactions 7]

theorem onePool_agrees :
    (runRequests .small (onePool.take 1) (.new 10 100 10 60 60)).transactionsPriority = [(poolRequest 1, 5)] ∧
    ∀ earlier, earlier <+: onePool → (runRequests .small earlier (.new 10 100 10 60 60)).SameQueues := by
  have hwaiting : (runRequests .small (onePool.take 1) (.new 10 100 10 60 60)).transactionsPriority =
      [(poolRequest 1, 5)] := by
    decide +kernel
  refine ⟨hwaiting, (queues_agree_iff .small 10 100 10 60 60 onePool (by decide)).mpr ?_⟩
  refine ⟨trivial, ?_, trivial, trivial⟩
  intro sender hsender e he _
  have hin : e ∈ (runRequests .small (onePool.take 1) (.new 10 100 10 60 60)).transactionsPriority := he
  rw [hwaiting] at hin
  cases mem_singleton.mp hin
  exact hsender

/-- **The request of the second account has left the list**, and still waits in the queue of its sender. -/
theorem twoPools_differ :
    Timely twoPools ∧ ¬ (runRequests .small twoPools (.new 10 100 10 60 60)).SameQueues := by
  refine ⟨by decide, fun hsame => ?_⟩
  have hsizes := congrArg Multiset.card hsame
  rw [Multiset.coe_card, Multiset.coe_card] at hsizes
  have hqueue : (runRequests .small twoPools (.new 10 100 10 60 60)).byArrival.length = 1 := by
    decide +kernel
  have hlist : (runRequests .small twoPools (.new 10 100 10 60 60)).transactionsPriority.length = 0 := by
    decide +kernel
  omega

end L1xCore.Mempool
