import ProviderRegistry.Proofs.Entries

/-!
# What an aggregate holds

The aggregate of a list of bindings in closed form: one group for each contract, in the
order in which the contracts are first met, whose entry lists the names accepted for the
contract and whose factory request is that of the first provider (`ofBindings_groups`).
-/

namespace ProviderRegistry.Registry

/-- The names accepted for a contract, in the order of their discovery. -/
def acceptedFor (contractName : String) (bindings : List Binding) : List String :=
  (bindings.filter (·.key == contractName)).map (·.name)

/-- The bindings that are the first of their contracts. -/
def firsts : List Binding → List Binding
  | [] => []
  | b :: rest => b :: (firsts rest).filter (·.key != b.key)

/-- The group of the contract of `first`, with the names that are given for it. -/
def groupGiven (given : String → List String) (first : Binding) : Aggregate.Group where
  contract := first.contract
  entry := { contractName := first.key, implementations := (given first.key).eraseDups }
  factoryRequested := first.generateFactory

/-- The group of the contract of `first`, among all the bindings. -/
def groupOf (bindings : List Binding) (first : Binding) : Aggregate.Group where
  contract := first.contract
  entry := {
    contractName := first.key
    implementations := (acceptedFor first.key bindings).eraseDups }
  factoryRequested := first.generateFactory

/-! ## Accepted names and first bindings -/

theorem acceptedFor_concat (contractName : String) (bindings : List Binding) (b : Binding) :
    acceptedFor contractName (bindings ++ [b]) =
      acceptedFor contractName bindings ++ if b.key = contractName then [b.name] else [] := by
  unfold acceptedFor
  rw [List.filter_append, List.map_append]
  by_cases h : b.key = contractName <;> simp [h]

theorem acceptedFor_eq_nil {contractName : String} {bindings : List Binding} :
    acceptedFor contractName bindings = [] ↔ contractName ∉ bindings.map (·.key) := by
  simp only [acceptedFor, List.map_eq_nil_iff, List.filter_eq_nil_iff, beq_iff_eq, List.mem_map,
    not_exists, not_and]

theorem mem_firsts_key {key : String} {bindings : List Binding} :
    key ∈ (firsts bindings).map (·.key) ↔ key ∈ bindings.map (·.key) := by
  induction bindings with
  | nil => rfl
  | cons b rest ih =>
    simp only [firsts, List.map_cons, List.mem_cons, ← ih, List.mem_map, List.mem_filter]
    by_cases hk : key = b.key
    · simp [hk]
    · constructor
      · rintro (h | ⟨f, ⟨hf, -⟩, rfl⟩)
        · exact absurd h hk
        · exact .inr ⟨f, hf, rfl⟩
      · rintro (h | ⟨f, hf, rfl⟩)
        · exact absurd h hk
        · exact .inr ⟨f, ⟨hf, by simpa using hk⟩, rfl⟩

theorem firsts_subset (bindings : List Binding) : firsts bindings ⊆ bindings := by
  induction bindings with
  | nil => exact List.Subset.refl _
  | cons b rest ih =>
    exact List.cons_subset_cons b fun first hfirst => ih (List.mem_filter.mp hfirst).1

theorem firsts_nodup (bindings : List Binding) : ((firsts bindings).map (·.key)).Nodup := by
  induction bindings with
  | nil => exact List.nodup_nil
  | cons b rest ih =>
    rw [firsts, List.map_cons, List.nodup_cons]
    refine ⟨?_, (List.filter_sublist.map _).nodup ih⟩
    simp [List.mem_map, List.mem_filter]

theorem firsts_concat (bindings : List Binding) (b : Binding) :
    firsts (bindings ++ [b]) =
      if b.key ∈ bindings.map (·.key) then firsts bindings else firsts bindings ++ [b] := by
  induction bindings with
  | nil => rfl
  | cons a rest ih =>
    rw [List.cons_append, firsts, ih]
    by_cases hr : b.key ∈ rest.map (·.key)
    · rw [if_pos hr, List.map_cons, if_pos (List.mem_cons_of_mem _ hr), firsts]
    · rw [if_neg hr, List.filter_append]
      by_cases ha : b.key = a.key
      · simp [ha, firsts]
      · have hmem : b.key ∉ (a :: rest).map (·.key) := by simpa [ha] using hr
        rw [if_neg hmem, firsts]
        simp [ha]

/-! ## Adding a binding -/

namespace Aggregate

theorem addTo_of_notMem {b : Binding} {groups : List Group}
    (h : b.key ∉ groups.map (·.entry.contractName)) : addTo b groups = none := by
  induction groups with
  | nil => rfl
  | cons g rest ih =>
    rw [List.map_cons, List.mem_cons, not_or] at h
    rw [addTo, if_neg (Ne.symm h.1), ih h.2, Option.map_none]

theorem addTo_of_mem {b : Binding} {groups : List Group}
    (hnodup : (groups.map (·.entry.contractName)).Nodup)
    (h : b.key ∈ groups.map (·.entry.contractName)) :
    addTo b groups = some (groups.map fun g =>
      if g.entry.contractName = b.key then { g with entry := g.entry.add b.name } else g) := by
  induction groups with
  | nil => cases h
  | cons g rest ih =>
    rw [List.map_cons, List.nodup_cons] at hnodup
    rw [addTo]
    by_cases hg : g.entry.contractName = b.key
    · have hrest : rest.map (fun g => if g.entry.contractName = b.key then
          { g with entry := g.entry.add b.name } else g) = rest := by
        refine (List.map_congr_left fun f hf => if_neg ?_).trans (List.map_id rest)
        intro hk
        exact hnodup.1 (List.mem_map.mpr ⟨f, hf, hk.trans hg.symm⟩)
      rw [if_pos hg, List.map_cons, if_pos hg, hrest]
    · rw [List.map_cons, List.mem_cons] at h
      rw [if_neg hg, ih hnodup.2 (h.resolve_left (Ne.symm hg)), List.map_cons, if_neg hg,
        Option.map_some]

/-- What a further binding does to an aggregate that holds the names given for the contracts of
some bindings. -/
theorem add_groups {a : Aggregate} {bindings : List Binding} {b : Binding}
    {given given' : String → List String}
    (hgroups : a.groups = (firsts bindings).map (groupGiven given))
    (hunmet : b.key ∉ bindings.map (·.key) → given b.key = [])
    (hgiven : ∀ name, given' name = given name ++ if b.key = name then [b.name] else []) :
    (a.add b).1.groups = (firsts (bindings ++ [b])).map (groupGiven given') := by
  have hnames : a.groups.map (·.entry.contractName) = (firsts bindings).map (·.key) := by
    rw [hgroups, List.map_map]
    rfl
  have hother : ∀ first : Binding, first.key ≠ b.key →
      groupGiven given' first = groupGiven given first := by
    intro first hfirst
    simp only [groupGiven, hgiven, if_neg hfirst.symm, List.append_nil]
  rw [add, firsts_concat]
  -- A binding goes into the group of its contract, or starts one.
  by_cases hb : b.key ∈ bindings.map (·.key)
  · have hmem : b.key ∈ a.groups.map (·.entry.contractName) := by
      rwa [hnames, mem_firsts_key]
    rw [addTo_of_mem (by rw [hnames]; exact firsts_nodup bindings) hmem, if_pos hb]
    simp only [hgroups, List.map_map]
    refine List.map_congr_left fun first _ => ?_
    by_cases hfirst : first.key = b.key
    · refine (if_pos hfirst).trans ?_
      simp only [groupGiven, Entry.add_mk, hgiven, if_pos hfirst.symm]
    · exact (if_neg hfirst).trans (hother first hfirst).symm
  · have hmem : b.key ∉ a.groups.map (·.entry.contractName) := by
      rwa [hnames, mem_firsts_key]
    have hold : (firsts bindings).map (groupGiven given') = a.groups := by
      rw [hgroups]
      refine List.map_congr_left fun first hfirst => hother first fun hkey => ?_
      exact hb (mem_firsts_key.mp (List.mem_map.mpr ⟨first, hfirst, hkey⟩))
    have hnew : groupGiven given' b =
        { contract := b.contract
          entry := ({ contractName := b.key } : Entry).add b.name
          factoryRequested := b.generateFactory } := by
      simp only [groupGiven, hgiven, hunmet hb, if_pos]
      rfl
    rw [addTo_of_notMem hmem, if_neg hb, List.map_append, hold, List.map_singleton, hnew]

/-- **An aggregate holds one group for each contract**, in the order in which the
contracts are first met. -/
theorem ofBindings_groups (bindings : List Binding) :
    (ofBindings bindings).groups = (firsts bindings).map (groupOf bindings) := by
  induction bindings using List.reverseRecOn with
  | nil => rfl
  | append_singleton bindings b ih =>
    have hfold : ofBindings (bindings ++ [b]) = ((ofBindings bindings).add b).1 := by
      simp [ofBindings]
    have hgroups : (ofBindings bindings).groups =
        (firsts bindings).map (groupGiven (acceptedFor · bindings)) := ih
    rw [hfold]
    exact add_groups hgroups acceptedFor_eq_nil.mpr fun name => acceptedFor_concat name bindings b

end Aggregate

end ProviderRegistry.Registry
