import L1xCore.Mempool.QueueRuns

/-!
# `Mempool.Offers` — one transaction for a sender and a nonce, the best one

Several transactions may be offered for one sender and one nonce. The mempool keeps one of them: a new one
takes the place of the old one unless it has a lower fee limit. So what is kept is the last of those with the
highest fee limit that were accepted (`List.LastBest`). The invariant says this of every entry, together with
the history of accepted transactions; an offer extends both.
-/

/-! ## The last of the best -/

namespace List

variable {α : Type} {rank : α → Nat} {l : List α} {x y : α}

/-- `x` is the last of the elements of `l` with the highest rank. -/
def LastBest (rank : α → Nat) (l : List α) (x : α) : Prop :=
  ∃ before after, l = before ++ x :: after ∧ (∀ y ∈ before, rank y ≤ rank x) ∧ ∀ y ∈ after, rank y < rank x

theorem lastBest_singleton : LastBest rank [x] x := by
  refine ⟨[], [], rfl, ?_, ?_⟩
  · intro y hy
    cases hy
  · intro y hy
    cases hy

theorem LastBest.rank_le (h : LastBest rank l x) (hy : y ∈ l) : rank y ≤ rank x := by
  obtain ⟨before, after, rfl, hbefore, hafter⟩ := h
  rcases mem_append.mp hy with hy | hy
  · exact hbefore y hy
  · rcases mem_cons.mp hy with rfl | hy
    · exact le_refl _
    · exact le_of_lt (hafter y hy)

theorem LastBest.append_of_lt (h : LastBest rank l x) (hlt : rank y < rank x) :
    LastBest rank (l ++ [y]) x := by
  obtain ⟨before, after, rfl, hbefore, hafter⟩ := h
  refine ⟨before, after ++ [y], by simp, hbefore, ?_⟩
  intro z hz
  rcases mem_append.mp hz with hz | hz
  · exact hafter z hz
  · cases mem_singleton.mp hz
    exact hlt

theorem LastBest.append_of_le (h : LastBest rank l x) (hle : rank x ≤ rank y) :
    LastBest rank (l ++ [y]) y := by
  refine ⟨l, [], rfl, fun z hz => le_trans (h.rank_le hz) hle, ?_⟩
  intro z hz
  cases hz

end List

namespace L1xCore.Mempool

open List

variable {crypto : Crypto} {p : Mempool} {history : List Transaction} (tx : Transaction)

def feeRank (tx : Transaction) : Nat := tx.feeLimit.toNat

/-- The transactions of a history for one sender and nonce. -/
def offersFor (crypto : Crypto) (key : Except Error Address × Nonce) (history : List Transaction) :
    List Transaction := history.filter fun tx => slot crypto tx = key

theorem offersFor_append {key : Except Error Address × Nonce} :
    offersFor crypto key (history ++ [tx]) =
      offersFor crypto key history ++ if slot crypto tx = key then [tx] else [] := by
  unfold offersFor
  by_cases hkey : slot crypto tx = key
  · simp [hkey]
  · simp [hkey]

/-- **The list against the history**: every entry is the last of the best for its slot, and nothing that was
    accepted is without an entry. -/
structure Best (crypto : Crypto) (history : List Transaction) (p : Mempool) : Prop where
  best : ∀ e ∈ p.transactionsPriority, LastBest feeRank (offersFor crypto (slot crypto e.1) history) e.1
  kept : ∀ tx ∈ history, ∃ e ∈ p.transactionsPriority, slot crypto e.1 = slot crypto tx

/-- The history after a call. -/
def accepting (history : List Transaction) (tx : Transaction) : Except Error Unit → List Transaction
  | .ok _ => history ++ [tx]
  | .error _ => history

section

variable {v : Validate} {w : World} {tx : Transaction} {now : TimeStamp}
  (h : p.Consistent v.rt.crypto) (hbest : p.Best v.rt.crypto history)
include h hbest

/-- **One offer.** -/
theorem Best.addTransaction (hstamps : p.StampedUpTo now) :
    ((addTransaction v w now tx).run p).2.Best v.rt.crypto
      (accepting history tx ((addTransaction v w now tx).run p).1) := by
  rcases addTransaction_cases v w tx h hstamps with ⟨e, hrun⟩ |
    ⟨sender, entry, p₁, pos, hsender, hresolve, hbound, hrun, -, hslot, hmem, -, -⟩
  · rw [hrun]
    exact hbest
  rw [hrun]
  have hlisted : ∀ e, e ∈ (p₁.withEntry sender entry pos).transactionsPriority ↔ e = entry ∨
      e ∈ p.transactionsPriority ∧ slot v.rt.crypto e.1 ≠ slot v.rt.crypto tx := by
    intro e
    rw [← hmem e]
    exact mem_insertIdx hbound
  constructor
  · intro e he
    show LastBest feeRank (offersFor v.rt.crypto (slot v.rt.crypto e.1) (history ++ [tx])) e.1
    rw [offersFor_append]
    rcases (hlisted e).mp he with rfl | ⟨hold, hother⟩
    · rw [hslot, if_pos rfl]
      rcases resolveConflicts_cases h.listed hsender with ⟨hfree, hrun⟩ | ⟨c, txs, hc, hsame, -, hrun⟩
      · cases hresolve.symm.trans hrun
        -- whatever was accepted for the slot would still have an entry
        have hnone : offersFor v.rt.crypto (slot v.rt.crypto tx) history = [] := by
          refine filter_eq_nil_iff.mpr fun tx' htx' hkey => ?_
          obtain ⟨e, he, hslot⟩ := hbest.kept tx' htx'
          exact hfree e he (hslot.trans (of_decide_eq_true hkey))
        rw [hnone]
        exact lastBest_singleton
      · cases hresolve.symm.trans hrun
        have hold := hbest.best c hc
        rw [hsame] at hold
        by_cases hfee : tx.feeLimit < c.1.feeLimit
        · rw [if_pos hfee]
          exact hold.append_of_lt (BitVec.lt_def.mp hfee)
        · rw [if_neg hfee]
          exact hold.append_of_le (BitVec.le_def.mp (BitVec.not_lt.mp hfee))
    · rw [if_neg hother.symm, append_nil]
      exact hbest.best e hold
  · intro tx' htx'
    by_cases hsame : slot v.rt.crypto tx' = slot v.rt.crypto tx
    · exact ⟨entry, (hlisted entry).mpr (.inl rfl), hslot.trans hsame.symm⟩
    · rcases mem_append.mp htx' with hold | hnew
      · obtain ⟨e, he, hkept⟩ := hbest.kept tx' hold
        refine ⟨e, (hlisted e).mpr (.inr ⟨he, ?_⟩), hkept⟩
        rw [hkept]
        exact hsame
      · cases mem_singleton.mp hnew
        exact absurd rfl hsame

end

/-! ## Sequences of offers -/

/-- A call of `add_transaction`. -/
structure Offer where
  world : World
  currentTime : TimeStamp
  transaction : Transaction

namespace Offer

def request (o : Offer) : Request := .addTransaction o.world o.currentTime o.transaction

/-- What the call returns. -/
def result (v : Validate) (o : Offer) (p : Mempool) : Except Error Unit :=
  ((addTransaction v o.world o.currentTime o.transaction).run p).1

end Offer

/-- The transactions for which `add_transaction` returned `Ok`, in their order. -/
def taken (v : Validate) : List Offer → Mempool → List Transaction
  | [], _ => []
  | o :: os, p => accepting [] o.transaction (o.result v p) ++ taken v os (o.request.exec v p)

theorem accepting_eq (history : List Transaction) (tx : Transaction) (r : Except Error Unit) :
    accepting history tx r = history ++ accepting [] tx r := by
  cases r with
  | ok _ => rfl
  | error _ => exact (append_nil history).symm

/-- **A run of offers.** The history grows with what is accepted, and the list follows it. -/
theorem runOffers_best {v : Validate} {offers : List Offer} (h : p.Consistent v.rt.crypto)
    (hbest : p.Best v.rt.crypto history) (hclock : (offers.map (·.currentTime)).Pairwise (· ≤ ·))
    (hstamps : ∀ o ∈ offers, p.StampedUpTo o.currentTime) :
    (runRequests v (offers.map Offer.request) p).Consistent v.rt.crypto ∧
      (runRequests v (offers.map Offer.request) p).Best v.rt.crypto (history ++ taken v offers p) := by
  induction offers generalizing p history with
  | nil =>
    rw [taken, append_nil]
    exact ⟨h, hbest⟩
  | cons o offers ih =>
    rw [map_cons, pairwise_cons] at hclock
    have hnow : p.StampedUpTo o.currentTime := hstamps o mem_cons_self
    have htime : ∀ now, o.request.time = some now → p.StampedUpTo now := by
      intro now hsome
      cases hsome
      exact hnow
    have hafter : ∀ later ∈ offers, (o.request.exec v p).StampedUpTo later.currentTime := by
      intro later hlater
      refine o.request.exec_stamped v h (fun now hsome => ?_) (hstamps later (mem_cons_of_mem o hlater))
      cases hsome
      exact ⟨hnow, hclock.1 _ (mem_map_of_mem hlater)⟩
    have hstep : (o.request.exec v p).Best v.rt.crypto (accepting history o.transaction (o.result v p)) :=
      hbest.addTransaction h hnow
    have hrest := ih (o.request.exec_consistent v h htime trivial) hstep hclock.2 hafter
    rw [accepting_eq, append_assoc] at hrest
    exact hrest

/-- **One transaction for a sender and a nonce, the best one**: in each queue there is at most one, and if
    any was accepted there is one, which is the last of those with the highest fee limit. -/
structure BestOffersWait (crypto : Crypto) (accepted : List Transaction) (p : Mempool) : Prop where
  oneListed : (p.transactionsPriority.map fun e => slot crypto e.1).Nodup
  oneWaiting : (p.byArrival.map fun e => slot crypto e.1).Nodup
  best : ∀ sender nonce, (∃ tx ∈ accepted, slot crypto tx = (.ok sender, nonce)) →
    ∃ e ∈ p.transactionsPriority, p.Waits sender e.2 e.1 ∧ slot crypto e.1 = (.ok sender, nonce) ∧
      LastBest feeRank (offersFor crypto (.ok sender, nonce) accepted) e.1

/-- From the empty mempool, for any sequence of offers with a clock that does not go back. -/
theorem bestOffers_wait (v : Validate) (maxSize : Nat) (feeLimit : Balance) (rateLimit : Nat)
    (timeFrameSeconds expirationSeconds : TimeStamp) (offers : List Offer)
    (hclock : (offers.map (·.currentTime)).Pairwise (· ≤ ·)) :
    let start := new maxSize feeLimit rateLimit timeFrameSeconds expirationSeconds
    (runRequests v (offers.map Offer.request) start).BestOffersWait v.rt.crypto (taken v offers start) := by
  intro start
  have hempty : start.Best v.rt.crypto [] := by
    refine ⟨fun e he => ?_, fun tx htx => ?_⟩
    · cases he
    · cases htx
  have hstamps : ∀ o ∈ offers, start.StampedUpTo o.currentTime := by
    intro o _ s t hnoted
    cases hnoted
  obtain ⟨hconsistent, hbest⟩ := runOffers_best (consistent_empty rfl rfl) hempty hclock hstamps
  have hsame := Multiset.coe_eq_coe.mp hconsistent.listed.sameQueues
  refine ⟨hconsistent.listed.distinct, ?_, ?_⟩
  · exact (hsame.map _).nodup_iff.mpr hconsistent.listed.distinct
  · rintro sender nonce ⟨tx, htx, hslot⟩
    obtain ⟨e, he, hkept⟩ := hbest.kept tx htx
    rw [hslot] at hkept
    have howner : Account.addressOf v.rt.crypto e.1.verifyingKey = .ok sender := congrArg Prod.fst hkept
    have hlast := hbest.best e he
    rw [hkept] at hlast
    exact ⟨e, he, hconsistent.listed.waits_iff.mpr ⟨he, howner⟩, hkept, hlast⟩

/-- Account 1 asks for a pool three times, with the same nonce and different fee limits. -/
def threeOffers : List Offer :=
  [(5, 10), (6, 30), (7, 20)].map fun (time, feeLimit) =>
    ⟨⟨⟨.empty, .empty⟩, ⟨none, none, none⟩⟩, time, { poolRequest 1 with feeLimit }⟩

/-- All three are accepted, and the second one waits. -/
theorem bestOffers_wait_three :
    taken .small threeOffers (.new 10 100 10 60 60) = threeOffers.map (·.transaction) ∧
    (runRequests .small (threeOffers.map Offer.request) (.new 10 100 10 60 60)).transactionsPriority =
      [({ poolRequest 1 with feeLimit := 30 }, 6)] ∧
    (runRequests .small (threeOffers.map Offer.request) (.new 10 100 10 60 60)).BestOffersWait
      Validate.small.rt.crypto (taken .small threeOffers (.new 10 100 10 60 60)) :=
  ⟨by decide +kernel, by decide +kernel, bestOffers_wait .small 10 100 10 60 60 threeOffers (by decide)⟩

end L1xCore.Mempool
