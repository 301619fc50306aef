import L1xCore.State.Conserved

/-!
# `State.Rules` — relations that do not look at the keys of records

For many a relation between overlays it does not matter that a record is written under its own key. `TokenRule`
asks of such a relation the steps of token and staking operations, `StepRule` those of all operations; the
operations follow from `KeyedTokenRule` and `KeyedRule`.
-/

namespace L1xCore.UpdatedState

variable {db : StateTables} {R : UpdatedState → UpdatedState → Prop}

/-- `R` contains the steps of the operations on accounts, pools and staking accounts. -/
structure TokenRule (db : StateTables) (R : UpdatedState → UpdatedState → Prop) : Prop where
  remembers : ∀ {s s'}, Remembers db s s' → R s s'
  sets : ∀ {s s' k} {v : RecordKey.Value k}, k.isToken = true → Sets s k (.updated (some v)) s' → R s s'

/-- `R` contains the steps of all operations. -/
structure StepRule (db : StateTables) (R : UpdatedState → UpdatedState → Prop) : Prop where
  remembers : ∀ {s s'}, Remembers db s s' → R s s'
  sets : ∀ {s s' k} {v : Option (RecordKey.Value k)}, Sets s k (.updated v) s' → R s s'
  lists : ∀ {s s' : UpdatedState}, (∀ k, s'.entry k = s.entry k) → R s s'
  merge : ∀ {s c : UpdatedState}, R s c → R s (s.merge c)

theorem StepRule.tokenRule (h : StepRule db R) : TokenRule db R :=
  ⟨h.remembers, fun _ hs => h.sets hs⟩

theorem TokenRule.keyed (h : TokenRule db R) : KeyedTokenRule db R :=
  ⟨h.remembers, fun htoken hs _ => h.sets htoken hs⟩

theorem StepRule.keyed (h : StepRule db R) : KeyedRule db R :=
  ⟨h.remembers, fun hs _ => h.sets hs, h.lists, h.merge⟩

end L1xCore.UpdatedState
