import L1xCore.Mempool.Offers

/-!
# `Mempool.Priority` — the order of the list, and where a transaction goes in

A transaction goes in before the first one with a lower fee limit. If there is none, the position is the number
of **senders** less one, where the length of the list was meant. So the list need not stay sorted, and the
position can be beyond its end. `ordered_iff` says of every run of calls when neither happens.
-/

/-! ## Lists by rank -/

namespace List

variable {α : Type} {rank : α → Nat} {l : List α} {x : α} {i : Nat}

/-- The ranks do not go up. -/
def Descending (rank : α → Nat) (l : List α) : Prop := l.Pairwise fun a b => rank b ≤ rank a

theorem Descending.insertIdx_iff (h : Descending rank l) (hi : i ≤ l.length) :
    Descending rank (l.insertIdx i x) ↔
      (∀ a ∈ l.take i, rank x ≤ rank a) ∧ ∀ b ∈ l.drop i, rank b ≤ rank x := by
  induction l generalizing i with
  | nil =>
    cases Nat.le_zero.mp hi
    exact iff_of_true (pairwise_singleton _ _) ⟨by simp, by simp⟩
  | cons a l ih =>
    obtain ⟨hfirst, hrest⟩ := pairwise_cons.mp h
    cases i with
    | zero =>
      refine pairwise_cons.trans ((and_iff_left h).trans ?_)
      simp
    | succ i =>
      have hi : i ≤ l.length := Nat.le_of_succ_le_succ hi
      have hhead : (∀ b ∈ l.insertIdx i x, rank b ≤ rank a) ↔ rank x ≤ rank a := by
        simp only [mem_insertIdx hi, forall_eq_or_imp]
        exact and_iff_left hfirst
      rw [insertIdx_succ_cons, Descending, pairwise_cons, hhead, take_succ_cons, drop_succ_cons,
        forall_mem_cons, and_assoc]
      exact and_congr_right fun _ => ih hrest hi

theorem Descending.insertIdx_findIdx (h : Descending rank l) {p : α → Bool}
    (hp : ∀ b, p b = true ↔ rank b < rank x) (hfound : l.findIdx? p = some i) :
    i ≤ l.length ∧ Descending rank (l.insertIdx i x) := by
  obtain ⟨hlt, hhere, hbefore⟩ := findIdx?_eq_some_iff_getElem.mp hfound
  refine ⟨hlt.le, (h.insertIdx_iff hlt.le).mpr ⟨fun a ha => ?_, fun b hb => ?_⟩⟩
  · obtain ⟨j, hj, rfl⟩ := mem_take_iff_getElem.mp ha
    have hnot := hbefore j (by omega)
    rw [hp] at hnot
    omega
  · obtain ⟨j, hj, rfl⟩ := mem_drop_iff_getElem.mp hb
    have hlower := (hp _).mp hhere
    rcases Nat.eq_zero_or_pos j with rfl | hpos
    · exact hlower.le
    · have hle := pairwise_iff_getElem.mp h i (i + j) hlt (by omega) (by omega)
      exact hle.trans hlower.le

end List

namespace L1xCore.Mempool

open Fallible List AList

variable {crypto : Crypto} {p : Mempool} {v : Validate} {rs : List Request}

/-- The list is sorted by non-increasing fee limit. -/
def Sorted (p : Mempool) : Prop := Descending (fun e => feeRank e.1) p.transactionsPriority

instance decidableSorted : DecidablePred Sorted := fun p =>
  inferInstanceAs (Decidable (p.transactionsPriority.Pairwise fun e e' => feeRank e'.1 ≤ feeRank e.1))

/-! ## One call -/

section

variable (crypto) (p) (sender : Address) (tx : Transaction) (now : TimeStamp)

/-- The entries that stay in the list. -/
def others : List (Transaction × TimeStamp) :=
  p.transactionsPriority.filter fun e => !hasConflict crypto e.1 tx

/-- The entry that goes in. -/
def winner : Transaction × TimeStamp :=
  handleConflicts (p.transactionsPriority.filter fun e => hasConflict crypto e.1 tx) (tx, now)

/-- The senders that have a queue. -/
def senders : Finset Address := p.transactions.keys.toFinset

/-- **The place is right.** Somebody offers less; or there are no more other senders than entries, and behind
    that many entries nobody offers more. -/
def WellPlaced : Prop :=
  (∃ e ∈ others crypto p tx, feeRank e.1 < feeRank (winner crypto p tx now).1) ∨
    (p.senders.erase sender).card ≤ (others crypto p tx).length ∧
      ∀ e ∈ (others crypto p tx).drop (p.senders.erase sender).card,
        feeRank e.1 ≤ feeRank (winner crypto p tx now).1

variable {crypto p sender tx now}

theorem mem_senders {a : Address} : a ∈ p.senders ↔ a ∈ p.transactions := by
  rw [senders, mem_toFinset, AList.mem_keys]

theorem run_removeConflict {c : Transaction × TimeStamp} (hc : hasConflict crypto c.1 tx = true) (p : Mempool) :
    ∃ p', (removeConflict crypto c).run p = (.ok (), p') ∧
      p'.transactionsPriority = p.transactionsPriority ∧ p'.senders = p.senders := by
  cases howner : Account.addressOf crypto c.1.verifyingKey with
  | error e =>
    rw [hasConflict, howner] at hc
    cases hc
  | ok owner =>
    refine ⟨_, by rw [removeConflict, howner, run_bind_of_ok (run_lift _ p), run_update], ?_⟩
    cases hlookup : p.transactions.lookup₂ owner c.2 with
    | none => exact ⟨rfl, rfl⟩
    | some txs =>
      obtain ⟨byTime, hbyTime, -⟩ := Option.bind_eq_some_iff.mp hlookup
      have hhas : owner ∈ p.transactions := by
        rw [← lookup_isSome, hbyTime]
        rfl
      refine ⟨rfl, Finset.ext fun a => ?_⟩
      rw [mem_senders, mem_senders]
      dsimp only
      rw [insert₂_eq_upsert₂, mem_upsert₂]
      exact or_iff_right_of_imp fun ha => ha ▸ hhas

theorem run_removeConflicts {conflicts : List (Transaction × TimeStamp)}
    (hall : ∀ c ∈ conflicts, hasConflict crypto c.1 tx = true) (p : Mempool) :
    ∃ p', (forEach conflicts (removeConflict crypto)).run p = (.ok (), p') ∧
      p'.transactionsPriority = p.transactionsPriority ∧ p'.senders = p.senders := by
  induction conflicts generalizing p with
  | nil => exact ⟨p, rfl, rfl, rfl⟩
  | cons c conflicts ih =>
    obtain ⟨p₁, hrun₁, hlist₁, hsenders₁⟩ := run_removeConflict (hall c mem_cons_self) p
    obtain ⟨p₂, hrun₂, hlist₂, hsenders₂⟩ := ih (fun c' hc' => hall c' (mem_cons_of_mem c hc')) p₁
    exact ⟨p₂, by rw [forEach, run_bind_of_ok hrun₁, hrun₂], hlist₂.trans hlist₁, hsenders₂.trans hsenders₁⟩

/-- Resolving the conflicts never fails, and every sender keeps its queue. -/
theorem run_resolveConflicts (p : Mempool) :
    ∃ p₁, (resolveConflicts crypto now tx).run p = (.ok (winner crypto p tx now), p₁) ∧
      p₁.transactionsPriority = others crypto p tx ∧ p₁.senders = p.senders := by
  rw [resolveConflicts, run_bind_of_ok (run_getConflicts p), winner]
  cases hrivals : p.transactionsPriority.filter fun e => hasConflict crypto e.1 tx with
  | nil => exact ⟨_, rfl, rfl, rfl⟩
  | cons c conflicts =>
    have hall : ∀ c' ∈ c :: conflicts, hasConflict crypto c'.1 tx = true := by
      intro c' hc'
      rw [← hrivals] at hc'
      exact (mem_filter.mp hc').2
    obtain ⟨p₁, hrun₁, hlist, hsenders⟩ := run_removeConflicts hall
      { p with transactionsPriority := p.transactionsPriority.filter fun e => !hasConflict crypto e.1 tx }
    exact ⟨p₁, run_bind_of_ok hrun₁, hlist, hsenders⟩

/-- The position in terms of the state before the call. -/
def position (crypto : Crypto) (p : Mempool) (sender : Address) (tx : Transaction) (now : TimeStamp) : Nat :=
  ((others crypto p tx).findIdx? (·.1.feeLimit < (winner crypto p tx now).1.feeLimit)).getD
    (p.senders.erase sender).card

theorem insertionPos_eq {p₁ : Mempool} (hlist : p₁.transactionsPriority = others crypto p tx)
    (hsenders : p₁.senders = p.senders) (t : TimeStamp) (f : List Transaction → List Transaction)
    (txs : List Transaction) :
    ({ p₁ with transactions := p₁.transactions.upsert₂ sender t f txs } : Mempool).insertionPos
      (winner crypto p tx now).1 = position crypto p sender tx now := by
  have hkeys : (p₁.transactions.upsert₂ sender t f txs).keys.toFinset = insert sender p.senders := by
    ext a
    rw [mem_toFinset, ← AList.mem_keys, mem_upsert₂, Finset.mem_insert, ← hsenders, mem_senders]
  rw [insertionPos, hlist, ← toFinset_card_of_nodup (keys_nodup _), hkeys,
    ← Finset.card_erase_of_mem (Finset.mem_insert_self sender _), Finset.erase_insert_eq_erase]
  rfl

theorem priority_insertTransaction (sender : Address) (entry : Transaction × TimeStamp) (p : Mempool) :
    let pos := ({ p with transactions := p.transactions.upsert₂ sender entry.2 (· ++ [entry.1]) [entry.1] } :
      Mempool).insertionPos entry.1
    ((insertTransaction sender entry).run p).2.transactionsPriority =
      if pos ≤ p.transactionsPriority.length then p.transactionsPriority.insertIdx pos entry
      else p.transactionsPriority := by
  intro pos
  show ((if pos ≤ p.transactionsPriority.length then _ else _ : Op Unit).run _).2.transactionsPriority = _
  split <;> rfl

/-- **When the position is the right one.** -/
theorem position_iff (h : p.Sorted) :
    (position crypto p sender tx now ≤ (others crypto p tx).length ∧
      Descending (fun e => feeRank e.1)
        ((others crypto p tx).insertIdx (position crypto p sender tx now) (winner crypto p tx now))) ↔
      WellPlaced crypto p sender tx now := by
  have hothers : Descending (fun e => feeRank e.1) (others crypto p tx) := .filter _ h
  unfold position WellPlaced
  generalize winner crypto p tx now = entry
  cases hfound : (others crypto p tx).findIdx? (·.1.feeLimit < entry.1.feeLimit) with
  | some i =>
    have hlower : ∃ e ∈ others crypto p tx, feeRank e.1 < feeRank entry.1 := by
      obtain ⟨hlt, hhere, -⟩ := findIdx?_eq_some_iff_getElem.mp hfound
      exact ⟨_, getElem_mem hlt, of_decide_eq_true hhere⟩
    exact iff_of_true (hothers.insertIdx_findIdx (fun _ => decide_eq_true_iff) hfound) (.inl hlower)
  | none =>
    have hnone : ∀ e ∈ others crypto p tx, feeRank entry.1 ≤ feeRank e.1 := fun e he =>
      not_lt.mp (of_decide_eq_false (findIdx?_eq_none_iff.mp hfound e he))
    have hlower : ¬ ∃ e ∈ others crypto p tx, feeRank e.1 < feeRank entry.1 := by
      rintro ⟨e, he, hlt⟩
      exact not_lt.mpr (hnone e he) hlt
    rw [or_iff_right hlower, Option.getD_none]
    refine and_congr_right fun hle => (hothers.insertIdx_iff hle).trans (and_iff_right fun e he => ?_)
    exact hnone e (mem_of_mem_take he)

end

namespace Request

/-- The position that a call computes and the length of the list at that time, if it comes to the insert. -/
def insertion (v : Validate) : Request → Mempool → Option (Nat × Nat)
  | .addTransaction w now tx, p =>
    match p.checkTransaction v w now tx, (resolveConflicts v.rt.crypto now tx).run p with
    | .ok sender, (.ok entry, p₁) =>
      let p₁ := { p₁ with
        transactions := p₁.transactions.upsert₂ sender entry.2 (· ++ [entry.1]) [entry.1] }
      some (p₁.insertionPos entry.1, p₁.transactionsPriority.length)
    | _, _ => none
  | _, _ => none

/-- The position is within the list: the insert does not panic. -/
def Placed (v : Validate) (r : Request) (p : Mempool) : Prop :=
  ∀ pos length, r.insertion v p = some (pos, length) → pos ≤ length

/-- Every transaction that passes the checks finds the right place. -/
def WellPlaced (v : Validate) : Request → Mempool → Prop
  | .addTransaction w now tx, p => ∀ sender, p.checkTransaction v w now tx = .ok sender →
      Mempool.WellPlaced v.rt.crypto p sender tx now
  | _, _ => True

/-- **One call.** -/
theorem ordered_step_iff (h : p.Sorted) (r : Request) :
    (r.Placed v p ∧ (r.exec v p).Sorted) ↔ r.WellPlaced v p := by
  -- a call that only removes filters the list, if it does anything to it
  have hremoval : ∀ {p' : Mempool}, p'.transactionsPriority.Sublist p.transactionsPriority →
      r.insertion v p = none → (r.Placed v p ∧ p'.Sorted) := fun hsub hnone =>
    ⟨fun _ _ hsome => (by cases hnone.symm.trans hsome), .sublist hsub h⟩
  cases r with
  | addTransaction w now tx =>
    obtain ⟨p₁, hresolve, hlist, hsenders⟩ := @run_resolveConflicts v.rt.crypto tx now p
    cases hcheck : p.checkTransaction v w now tx with
    | error e =>
      have hrun : (Mempool.addTransaction v w now tx).run p = (.error e, p) := by
        rw [Mempool.addTransaction, run_bind_of_ok (run_state p), hcheck]
        rfl
      refine iff_of_true ?_ fun sender hok => (by cases hcheck.symm.trans hok)
      rw [exec, hrun]
      refine hremoval (.refl _) ?_
      rw [insertion, hcheck]
    | ok sender =>
      have hinsertion : (addTransaction w now tx).insertion v p = some
          (position v.rt.crypto p sender tx now, (others v.rt.crypto p tx).length) := by
        rw [insertion, hcheck, hresolve]
        dsimp only
        rw [insertionPos_eq hlist hsenders, hlist]
      have hafter : ((addTransaction w now tx).exec v p).transactionsPriority =
          if position v.rt.crypto p sender tx now ≤ (others v.rt.crypto p tx).length then
            (others v.rt.crypto p tx).insertIdx (position v.rt.crypto p sender tx now)
              (winner v.rt.crypto p tx now)
          else others v.rt.crypto p tx := by
        rw [exec, Mempool.addTransaction, run_bind_of_ok (run_state p), hcheck]
        show ((resolveConflicts v.rt.crypto now tx >>= _).run p).2.transactionsPriority = _
        rw [run_bind_of_ok hresolve, priority_insertTransaction, insertionPos_eq hlist hsenders, hlist]
      have hplaced : (addTransaction w now tx).Placed v p ↔
          position v.rt.crypto p sender tx now ≤ (others v.rt.crypto p tx).length := by
        refine ⟨fun hall => hall _ _ hinsertion, fun hle pos length hsome => ?_⟩
        cases hinsertion.symm.trans hsome
        exact hle
      have hwell : (addTransaction w now tx).WellPlaced v p ↔
          Mempool.WellPlaced v.rt.crypto p sender tx now := by
        refine ⟨fun hall => hall sender hcheck, fun hone sender' hok => ?_⟩
        cases hcheck.symm.trans hok
        exact hone
      rw [hplaced, hwell, ← position_iff h]
      refine and_congr_right fun hle => ?_
      rw [Sorted, hafter, if_pos hle]
  | removeTransaction tx =>
    refine iff_of_true (hremoval ?_ rfl) trivial
    cases hsender : Account.addressOf v.rt.crypto tx.verifyingKey with
    | error e =>
      rw [exec, Mempool.removeTransaction, hsender]
      exact .refl _
    | ok sender =>
      rw [exec, run_removeTransaction hsender]
      exact filter_sublist
  | removeExpiredTransactions now => exact iff_of_true (hremoval filter_sublist rfl) trivial
  | clearTransactions => exact iff_of_true (hremoval (nil_sublist _) rfl) trivial
  | removeTransactionBySender sender => exact iff_of_true (hremoval (.refl _) rfl) trivial

end Request

/-! ## Runs -/

/-- **The list is sorted in every state of the run**, and every position within it. -/
def StaysOrdered (v : Validate) : List Request → Mempool → Prop
  | [], p => p.Sorted
  | r :: rs, p => p.Sorted ∧ r.Placed v p ∧ StaysOrdered v rs (r.exec v p)

/-- Every call of the run finds the right place. -/
def AllWellPlaced (v : Validate) : List Request → Mempool → Prop
  | [], _ => True
  | r :: rs, p => r.WellPlaced v p ∧ AllWellPlaced v rs (r.exec v p)

theorem StaysOrdered.sorted (h : StaysOrdered v rs p) : p.Sorted := by
  cases rs with
  | nil => exact h
  | cons r rs => exact h.1

theorem staysOrdered_iff (h : p.Sorted) : StaysOrdered v rs p ↔ AllWellPlaced v rs p := by
  induction rs generalizing p with
  | nil => exact iff_of_true h trivial
  | cons r rs ih =>
    constructor
    · rintro ⟨-, hplaced, hrest⟩
      exact ⟨(r.ordered_step_iff h).mp ⟨hplaced, hrest.sorted⟩, (ih hrest.sorted).mp hrest⟩
    · rintro ⟨hwell, hrest⟩
      obtain ⟨hplaced, hsorted⟩ := (r.ordered_step_iff h).mpr hwell
      exact ⟨h, hplaced, (ih hsorted).mpr hrest⟩

/-- **When the list is ordered by priority.** From the empty mempool, in any sequence of calls with any
    transactions and times: it stays sorted, and the insert never panics, exactly if every transaction that
    passes the checks finds one with a lower fee limit, or the number of other senders happens to be a right
    place for it. -/
theorem ordered_iff (v : Validate) (maxSize : Nat) (feeLimit : Balance) (rateLimit : Nat)
    (timeFrameSeconds expirationSeconds : TimeStamp) (rs : List Request) :
    StaysOrdered v rs (.new maxSize feeLimit rateLimit timeFrameSeconds expirationSeconds) ↔
      AllWellPlaced v rs (.new maxSize feeLimit rateLimit timeFrameSeconds expirationSeconds) :=
  staysOrdered_iff .nil

/-- Account 1 offers 10, and then 5 for its next transaction. -/
def lowerOffer : List Request :=
  [(5, 1, 10), (6, 2, 5)].map fun (time, nonce, feeLimit) =>
    .addTransaction ⟨⟨.empty, .empty⟩, ⟨none, none, none⟩⟩ time { poolRequest 1 with nonce, feeLimit }

/-- After the two requests of which one was removed, a third account asks for a pool. -/
def thirdPool : List Request :=
  twoPools ++ [.addTransaction ⟨⟨.empty, .empty⟩, ⟨none, none, none⟩⟩ 7 (poolRequest 3)]

/-- **The lower offer goes first**; and the third request would go behind the end of the empty list. -/
theorem priority_broken :
    Timely lowerOffer ∧ Timely thirdPool ∧
    (runRequests .small lowerOffer (.new 10 100 10 60 60)).transactionsPriority.map (·.1.feeLimit) = [5, 10] ∧
    ¬ StaysOrdered .small lowerOffer (.new 10 100 10 60 60) ∧
    ¬ StaysOrdered .small thirdPool (.new 10 100 10 60 60) := by
  refine ⟨by decide, by decide, by decide +kernel, ?_, ?_⟩
  · rintro ⟨-, -, -, -, hsorted⟩
    have hunsorted : ¬ (runRequests .small lowerOffer (.new 10 100 10 60 60)).Sorted := by decide +kernel
    exact hunsorted hsorted
  · rintro ⟨-, -, -, -, -, -, -, hplaced, -⟩
    have hbeyond : 1 ≤ 0 := hplaced 1 0 (by decide +kernel)
    exact absurd hbeyond (by decide)

end L1xCore.Mempool
