import L1xCore.Consensus.FaultyFinalize

/-!
# `Consensus.Reelection` — the committee of the next epoch, selected a second time

The selection of validators reads the caches and the records of nodes. It does not see what a first attempt
has stored, so a second attempt from the same head selects the same validators and the same proposer.
Validators that are stored already stay as they are. The proposer is inserted once more, which makes no
difference to who is stored. From another head another proposer may be selected.
-/

namespace L1xCore

open Fallible ChainTables Node Disk ValidatorManager

variable {selected : List Validator} {proposer : Option BlockProposer} {d' : Disk} {w : World}
  {chosen : Option BlockProposer}

/-! ## Storing validators -/

namespace ChainTables

variable {t : ChainTables} {epoch : Epoch} {key : Address × Epoch}

theorem loadAllValidators_batchStoreValidators (hother : ∀ v ∈ selected, v.epoch ≠ epoch) :
    (t.batchStoreValidators selected).loadAllValidators epoch = t.loadAllValidators epoch := by
  have hrows : (t.batchStoreValidators selected).validator.entries.filter (·.1.2 = epoch) =
      t.validator.entries.filter (·.1.2 = epoch) := by
    unfold batchStoreValidators
    generalize t.validator = table
    induction selected generalizing table with
    | nil => rfl
    | cons v selected ih =>
      obtain ⟨hv, hothers⟩ := List.forall_mem_cons.mp hother
      rw [List.foldl_cons, ih hothers]
      exact AList.filter_entries_upsert (p := fun key : Address × Epoch => decide (key.2 = epoch))
        (decide_eq_false hv) _ _ _
  unfold loadAllValidators
  rw [hrows]

/-- The same validators are stored for the epoch. -/
def SameValidators (epoch : Epoch) (t t' : ChainTables) : Prop :=
  ∀ address, t'.validator.lookup (address, epoch) = t.validator.lookup (address, epoch)

end ChainTables

/-! ## The selection -/

namespace ValidatorManager

variable {F : Type} {m : ValidatorManager (NodeHealth F)} {w' : World}

/-- The score is computed from the caches and the report. -/
def ScoresFromCaches (m : ValidatorManager (NodeHealth F)) : Prop :=
  ∀ w w', w'.caches = w.caches → m.calculateXscore w' = m.calculateXscore w

theorem selectValidatorsForEpoch_congr (hscores : m.ScoresFromCaches) (hcaches : w'.caches = w.caches)
    (choice : HealthChoice F) (t : NodeTables F) (lastBlockHeader : BlockHeader) (epoch : Epoch) :
    (m.reading choice t).selectValidatorsForEpoch w' lastBlockHeader epoch =
      (m.reading choice t).selectValidatorsForEpoch w lastBlockHeader epoch := by
  -- node info and health are read from the tables of nodes, so only the score could see the world
  have hcandidate : ∀ config address info,
      (m.reading choice t).candidate w' config lastBlockHeader epoch address info =
        (m.reading choice t).candidate w config lastBlockHeader epoch address info := by
    intro config address info
    unfold candidate reading
    rw [hscores w w' hcaches]
  have heligible : ∀ config nodes,
      (m.reading choice t).eligibleValidators w' config lastBlockHeader epoch nodes =
        (m.reading choice t).eligibleValidators w config lastBlockHeader epoch nodes := by
    intro config nodes
    induction nodes with
    | nil => rfl
    | cons node nodes ih => rw [eligibleValidators, eligibleValidators, hcandidate, ih]
  unfold selectValidatorsForEpoch
  rw [hcaches]
  simp only [heligible]

end ValidatorManager

namespace Finalizer

variable {F : Type} {f : Finalizer F} {fault : Option Fault} {d : Disk} {header : BlockHeader}

/-! ## The end of an epoch -/

/-- The block is the last one of its epoch, by its number. -/
def EndsEpoch (header : BlockHeader) : Prop := header.epoch < newEpoch header

theorem EndsEpoch.ne (h : EndsEpoch header) : newEpoch header ≠ header.epoch := by
  intro heq
  rw [EndsEpoch, heq] at h
  exact BitVec.lt_irrefl _ h

theorem rollover_of_not_endsEpoch (h : ¬ EndsEpoch header) (fault : Option Fault) :
    f.rollover fault header = pure () := if_neg h

/-- What the selection at the end of an epoch comes to. -/
structure Elects (f : Finalizer F) (fault : Option Fault) (header : BlockHeader) (d : Disk)
    (selected : List Validator) (proposer : Option BlockProposer) : Prop where
  reads : ∃ last config, d.chain.blockHeadHeader header.clusterAddress = .ok last ∧
    d.world.caches.getConfig = .ok config ∧ f.select fault d.world last (newEpoch header) = .ok selected ∧
    proposer = f.node.chosenProposer (newEpoch header) last (eligibleBlockProposers config selected)

theorem Elects.unique {selected' : List Validator} {proposer' : Option BlockProposer}
    (h : f.Elects fault header d selected proposer) (h' : f.Elects fault header d selected' proposer') :
    selected' = selected ∧ proposer' = proposer := by
  obtain ⟨last, config, hlast, hconfig, hselected, rfl⟩ := h.reads
  obtain ⟨last', config', hlast', hconfig', hselected', rfl⟩ := h'.reads
  cases hlast.symm.trans hlast'
  cases hconfig.symm.trans hconfig'
  cases hselected.symm.trans hselected'
  exact ⟨rfl, rfl⟩

theorem Elects.epoch (h : f.Elects fault header d selected proposer) :
    ∀ v ∈ selected, v.epoch = newEpoch header := by
  obtain ⟨last, config, -, -, hselected, -⟩ := h.reads
  unfold select at hselected
  split at hselected
  · exact selectValidatorsForEpoch_epoch hselected
  · exact selectValidatorsForEpoch_epoch hselected

theorem Elects.proposer_epoch {proposer : BlockProposer}
    (h : f.Elects fault header d selected (some proposer)) : proposer.epoch = newEpoch header := by
  obtain ⟨last, config, -, -, -, hproposer⟩ := h.reads
  obtain ⟨validator, -, rfl⟩ := Option.map_eq_some_iff.mp hproposer.symm
  rfl

theorem run_rollover (hends : EndsEpoch header) (h : f.Elects fault header d selected proposer)
    (hread : fault ≠ some .rolloverRead) :
    (f.rollover fault header).run d =
      (mapError ("Unable to select new block proposer or validators: " ++ ·) (do
        attempt fault .validators (onChain (update (·.batchStoreValidators selected)))
        let proposer ← okOr proposer "attempt to calculate the remainder with a divisor of zero"
        attempt fault .proposer (onChain (storeBlockProposer proposer)))).run d := by
  obtain ⟨last, config, hlast, hconfig, hselected, rfl⟩ := h.reads
  unfold rollover
  rw [if_pos (show header.epoch < newEpoch header from hends), run_bind_of_ok (run_state d)]
  have hlift : (attempt fault .rolloverRead
      (lift (d.chain.blockHeadHeader header.clusterAddress)) : Disk.Op _).run d = (.ok last, d) := by
    rw [attempt_of_ne hread, run_lift, hlast]
  rw [run_bind_of_ok hlift, run_mapError, run_mapError]
  unfold selectAndStore
  have hconfigured : (lift d.world.caches.getConfig : Disk.Op _).run d = (.ok config, d) := by
    rw [run_lift, hconfig]
  have hselection : (lift (f.select fault d.world last (newEpoch header)) : Disk.Op _).run d =
      (.ok selected, d) := by
    rw [run_lift, hselected]
  rw [run_bind_of_ok (run_state d), run_bind_of_ok hconfigured, run_bind_of_ok hselection]

variable {selected : List Validator}

theorem run_rollover_validators (hends : EndsEpoch header) (h : f.Elects none header d selected chosen) :
    ∃ e, (f.rollover (some .validators) header).run d = (.error e, d) := by
  have hsame : f.Elects (some .validators) header d selected chosen := ⟨h.reads⟩
  rw [run_rollover hends hsame (by simp), attempt_self]
  exact ⟨_, rfl⟩

theorem run_rollover_installs {proposer : BlockProposer} (hends : EndsEpoch header)
    (h : f.Elects fault header d selected (some proposer))
    (hfault : ∀ statement ∈ [.rolloverRead, .validators, .proposer], fault ≠ some statement) :
    (f.rollover fault header).run d = (.ok (), d.withChain (d.chain.install selected proposer)) := by
  simp only [List.forall_mem_cons] at hfault
  obtain ⟨hread, hvalidators, hproposer, -⟩ := hfault
  rw [run_rollover hends h hread, run_mapError, attempt_of_ne hvalidators,
    run_bind_of_ok run_onChain_update, run_bind_of_ok run_okOr_some,
    attempt_of_ne hproposer]
  rfl

section

variable (hends : EndsEpoch header)

include hends

/-- The validators are stored before it turns out that there is no proposer, or the insert fails. -/
theorem run_rollover_refused (h : f.Elects fault header d selected chosen)
    (hrefused : chosen = none ∨ fault = some .proposer) (hread : fault ≠ some .rolloverRead)
    (hvalidators : fault ≠ some .validators) :
    ∃ e, (f.rollover fault header).run d =
      (.error e, d.withChain (d.chain.batchStoreValidators selected)) := by
  rw [run_rollover hends h hread, run_mapError, attempt_of_ne hvalidators, run_bind_of_ok run_onChain_update]
  cases chosen with
  | none => exact ⟨_, rfl⟩
  | some proposer =>
    have hproposer : fault = some .proposer := hrefused.resolve_left (Option.some_ne_none _)
    rw [run_bind_of_ok run_okOr_some, hproposer, attempt_self]
    exact ⟨_, rfl⟩

theorem run_rollover_read :
    (f.rollover (some .rolloverRead) header).run d = (.error "connection closed", d) := by
  unfold rollover
  rw [if_pos (show header.epoch < newEpoch header from hends)]
  rfl

theorem run_rollover_unelected (h : ¬ ∃ selected chosen, f.Elects fault header d selected chosen) :
    ∃ e, (f.rollover fault header).run d = (.error e, d) := by
  by_cases hread : fault = some .rolloverRead
  · rw [hread]
    exact ⟨_, run_rollover_read hends⟩
  unfold rollover
  rw [if_pos (show header.epoch < newEpoch header from hends), run_bind_of_ok (run_state d),
    attempt_of_ne hread]
  cases hlast : d.chain.blockHeadHeader header.clusterAddress with
  | error e => exact ⟨_, rfl⟩
  | ok last =>
    rw [run_bind_of_ok (run_lift _ d), run_mapError]
    unfold selectAndStore
    rw [run_bind_of_ok (run_state d)]
    cases hconfig : d.world.caches.getConfig with
    | error e => exact ⟨_, rfl⟩
    | ok config =>
      cases hselected : f.select fault d.world last (newEpoch header) with
      | error e => exact ⟨_, rfl⟩
      | ok selected => exact absurd ⟨selected, _, last, config, hlast, hconfig, hselected, rfl⟩ h

end

/-- What a rollover comes to: at the end of an epoch it installs what it selects. -/
def Rolled (f : Finalizer F) (header : BlockHeader) (d d' : Disk) : Prop :=
  (EndsEpoch header ∧ ∃ selected proposer, f.Elects none header d selected (some proposer) ∧
      d' = d.withChain (d.chain.install selected proposer)) ∨
    (¬ EndsEpoch header ∧ d' = d)

theorem rollover_ok_iff : (f.rollover none header).run d = (.ok (), d') ↔ f.Rolled header d d' := by
  by_cases hends : EndsEpoch header
  swap
  · rw [rollover_of_not_endsEpoch hends, Rolled, and_iff_right hends, or_iff_right fun h => hends h.1]
    exact ⟨fun h => (Prod.mk.inj h).2.symm, fun h => h ▸ rfl⟩
  rw [Rolled, and_iff_right hends, or_iff_left fun h => h.1 hends]
  constructor
  · intro h
    by_cases helects : ∃ selected chosen, f.Elects none header d selected chosen
    · obtain ⟨selected, chosen, helects⟩ := helects
      cases chosen with
      | some proposer =>
        cases h.symm.trans (run_rollover_installs hends helects (by simp))
        exact ⟨selected, proposer, helects, rfl⟩
      | none =>
        obtain ⟨e, herror⟩ := run_rollover_refused hends helects (.inl rfl) (by simp) (by simp)
        cases h.symm.trans herror
    · obtain ⟨e, herror⟩ := run_rollover_unelected hends helects
      cases h.symm.trans herror
  · rintro ⟨selected, proposer, helects, rfl⟩
    exact run_rollover_installs hends helects (by simp)

theorem Rolled.sameBlocks (h : f.Rolled header d d') :
    SameBlocks d.chain d'.chain ∧ d'.blockTransaction = d.blockTransaction := by
  rcases h with ⟨-, selected, proposer, -, rfl⟩ | ⟨-, rfl⟩
  · exact ⟨⟨rfl, rfl, rfl⟩, rfl⟩
  · exact ⟨refl_of SameBlocks _, rfl⟩

end Finalizer

end L1xCore
