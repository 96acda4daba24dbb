import Mathlib.Algebra.Order.BigOperators.Group.List
import Mathlib.Algebra.Order.Group.Nat
import ProviderRegistry.World.Class

/-!
# Linearisations

A linearisation of a class keeps the order of every list that it is merged from
(`sublist_of_ancestors`), and has each ancestor once (`nodup_of_ancestors`). So the first
ancestor of some kind is also the first one of that kind in the linearisation of every base
that has it among its ancestors (`find?_of_sublist`). Among the classes that are there from the
start, deriving from a class is transitive (`Classes.closed_initial`).
-/

namespace ProviderRegistry.World

variable {α : Type} [DecidableEq α] {lists : List (List α)} {c : α} {result : List α} {steps : Nat}

/-! ## One step -/

/-- The lists that are left when a class has been taken. -/
def withoutHead (c : α) (lists : List (List α)) : List (List α) :=
  lists.map fun l => if l.head? = some c then l.tail else l

/-- A list loses the class that is taken if that is its first. -/
theorem mem_withoutHead {l : List α} (h : l ∈ lists) :
    (∃ rest ∈ withoutHead c lists, l = c :: rest) ∨ l ∈ withoutHead c lists := by
  by_cases hhead : l.head? = some c
  · refine .inl ⟨l.tail, List.mem_map.mpr ⟨l, h, if_pos hhead⟩, ?_⟩
    exact (List.cons_head?_tail hhead).symm
  · exact .inr (List.mem_map.mpr ⟨l, h, if_neg hhead⟩)

theorem sublist_of_mem_withoutHead {l : List α} (h : l ∈ withoutHead c lists) :
    ∃ l' ∈ lists, l.Sublist l' := by
  obtain ⟨l', hl', rfl⟩ := List.mem_map.mp h
  refine ⟨l', hl', ?_⟩
  split
  · exact List.tail_sublist l'
  · exact List.Sublist.refl l'

/-- The class that is taken stands first in a list and in no tail, -/
theorem of_nextHead? (h : nextHead? lists = some c) :
    (∃ l ∈ lists, l.head? = some c) ∧ ∀ l ∈ lists, c ∉ l.tail :=
  ⟨List.mem_filterMap.mp (List.mem_of_find?_eq_some h), by simpa using List.find?_some h⟩

/-- so that it is gone from what is left. -/
theorem notMem_of_mem_withoutHead (h : nextHead? lists = some c) {l : List α}
    (hl : l ∈ withoutHead c lists) : c ∉ l := by
  have htail := (of_nextHead? h).2
  obtain ⟨whole, hwhole, rfl⟩ := List.mem_map.mp hl
  split
  · exact htail whole hwhole
  · next hhead =>
    intro hc
    cases whole with
    | nil => cases hc
    | cons a rest =>
      rcases List.mem_cons.mp hc with rfl | hrest
      · exact hhead rfl
      · exact htail _ hwhole hrest

theorem length_flatten_withoutHead (h : ∃ l ∈ lists, l.head? = some c) :
    (withoutHead c lists).flatten.length < lists.flatten.length := by
  obtain ⟨l, hl, hhead⟩ := h
  simp only [withoutHead, List.length_flatten, List.map_map]
  refine List.sum_lt_sum _ _ (fun l _ => ?_) ⟨l, hl, ?_⟩
  · simp only [Function.comp_apply]
    split
    · simp
    · exact Nat.le_refl _
  · have hpos : 0 < l.length := by
      cases l with
      | nil => cases hhead
      | cons a rest => exact Nat.succ_pos _
    simp only [Function.comp_apply, hhead, if_true, List.length_tail]
    omega

/-- What one step of a merge does: it ends when nothing is left to take, or takes a class. -/
theorem mergeOrders_cases (h : mergeOrders (steps + 1) lists = .ok result) :
    (∀ l ∈ lists, l = []) ∧ result = [] ∨
      ∃ c rest, nextHead? (lists.filter (!·.isEmpty)) = some c ∧
        mergeOrders steps (withoutHead c (lists.filter (!·.isEmpty))) = .ok rest ∧
        result = c :: rest := by
  rw [mergeOrders] at h
  split at h
  · next hempty =>
    refine .inl ⟨fun l hl => ?_, (Except.ok.inj h).symm⟩
    simpa using List.filter_eq_nil_iff.mp (List.isEmpty_iff.mp hempty) l hl
  · split at h
    · cases h
    · next c hc =>
      change (mergeOrders steps (withoutHead c _)).map (c :: ·) = _ at h
      cases hrest : mergeOrders steps (withoutHead c (lists.filter (!·.isEmpty))) with
      | error heads =>
        rw [hrest] at h
        cases h
      | ok rest =>
        rw [hrest] at h
        exact .inr ⟨c, rest, hc, hrest, (Except.ok.inj h).symm⟩

/-! ## All steps -/

/-- With steps enough to take everything, a merge keeps the order of every list. -/
theorem sublist_of_mergeOrders (hsteps : lists.flatten.length < steps)
    (h : mergeOrders steps lists = .ok result) : ∀ l ∈ lists, l.Sublist result := by
  induction steps generalizing lists result with
  | zero => omega
  | succ steps ih =>
    intro l hl
    rcases mergeOrders_cases h with ⟨hempty, rfl⟩ | ⟨c, rest, hc, hrest, rfl⟩
    · exact hempty l hl ▸ List.Sublist.refl []
    · have hless := length_flatten_withoutHead (of_nextHead? hc).1
      rw [List.flatten_filter_not_isEmpty] at hless
      have hkept := ih (by omega) hrest
      by_cases hne : l = []
      · subst hne
        exact List.nil_sublist _
      · have hmem : l ∈ lists.filter (!·.isEmpty) := List.mem_filter.mpr ⟨hl, by simpa using hne⟩
        rcases mem_withoutHead (c := c) hmem with ⟨tail, htail, rfl⟩ | hleft
        · exact (hkept tail htail).cons_cons c
        · exact (hkept l hleft).cons c

theorem exists_of_mem_mergeOrders (h : mergeOrders steps lists = .ok result) :
    ∀ a ∈ result, ∃ l ∈ lists, a ∈ l := by
  induction steps generalizing lists result with
  | zero =>
    cases h
    exact List.forall_mem_nil _
  | succ steps ih =>
    intro a ha
    rcases mergeOrders_cases h with ⟨-, rfl⟩ | ⟨c, rest, hc, hrest, rfl⟩
    · cases ha
    · rcases List.mem_cons.mp ha with rfl | ha
      · obtain ⟨l, hl, hhead⟩ := (of_nextHead? hc).1
        exact ⟨l, (List.mem_filter.mp hl).1, List.mem_of_head? hhead⟩
      · obtain ⟨l, hl, hal⟩ := ih hrest a ha
        obtain ⟨l', hl', hsub⟩ := sublist_of_mem_withoutHead hl
        exact ⟨l', (List.mem_filter.mp hl').1, hsub.subset hal⟩

theorem nodup_of_mergeOrders (h : mergeOrders steps lists = .ok result) : result.Nodup := by
  induction steps generalizing lists result with
  | zero =>
    cases h
    exact List.nodup_nil
  | succ steps ih =>
    rcases mergeOrders_cases h with ⟨-, rfl⟩ | ⟨c, rest, hc, hrest, rfl⟩
    · exact List.nodup_nil
    · refine List.nodup_cons.mpr ⟨fun hmem => ?_, ih hrest⟩
      obtain ⟨l, hl, hcl⟩ := exists_of_mem_mergeOrders hrest c hmem
      exact notMem_of_mem_withoutHead hc hl hcl

/-! ## Ancestors -/

section

variable {bases : List α} {orders : List (List α)} {above : List α}
  (h : ancestors bases orders = .ok above)

include h

/-- **The linearisations of the bases keep their orders**, -/
theorem sublist_of_ancestors : ∀ order ∈ orders, order.Sublist above := by
  intro order horder
  exact sublist_of_mergeOrders (by simp) h order (List.mem_append_left _ horder)

/-- and so do the bases themselves. -/
theorem bases_sublist_of_ancestors : bases.Sublist above :=
  sublist_of_mergeOrders (by simp) h bases (List.mem_append_right _ (List.mem_singleton.mpr rfl))

theorem exists_of_mem_ancestors {a : α} (ha : a ∈ above) :
    (∃ order ∈ orders, a ∈ order) ∨ a ∈ bases := by
  obtain ⟨l, hl, hal⟩ := exists_of_mem_mergeOrders h a ha
  rcases List.mem_append.mp hl with hl | hl
  · exact .inl ⟨l, hl, hal⟩
  · exact .inr (List.mem_singleton.mp hl ▸ hal)

theorem nodup_of_ancestors : above.Nodup := nodup_of_mergeOrders h

end

/-- What comes first of some kind comes first in a part that keeps the order. -/
theorem find?_of_sublist {β : Type} {p : β → Bool} {l l' : List β} {a : β} (h : l.Sublist l')
    (hnodup : l'.Nodup) (hfind : l'.find? p = some a) (ha : a ∈ l) : l.find? p = some a := by
  induction h with
  | slnil => cases ha
  | @cons l l' b h ih =>
    obtain ⟨hb, hrest⟩ := List.nodup_cons.mp hnodup
    have hab : a ≠ b := fun hab => hb (h.subset (hab ▸ ha))
    refine ih hrest ?_ ha
    rw [List.find?_cons] at hfind
    split at hfind
    · exact absurd (Option.some.inj hfind).symm hab
    · exact hfind
  | @cons_cons l l' b h ih =>
    rw [List.find?_cons] at hfind ⊢
    split at hfind
    · exact hfind
    · next hb =>
      have hab : a ≠ b := by
        rintro rfl
        simp [List.find?_some hfind] at hb
      exact ih (List.nodup_cons.mp hnodup).2 hfind ((List.mem_cons.mp ha).resolve_left hab)

/-! ## Tables of classes -/

namespace Classes

variable {classes : Classes} {id : ClassId} {c : LiveClass} {name name' : String}

theorem orderOf_push_of_lt (h : id < classes.size) :
    orderOf (classes.push c) id = classes.orderOf id := by
  rw [orderOf, orderOf, Array.getElem?_push_lt h, Array.getElem?_eq_getElem h]

theorem orderOf_push_self : orderOf (classes.push c) classes.size = c.order := by
  rw [orderOf, Array.getElem?_push_size, Option.map_some, Option.getD_some]

/-- The linearisations of all ancestors of a class are part of its own. -/
def Closed (classes : Classes) : Prop :=
  ∀ id < classes.size, ∀ d ∈ classes.orderOf id,
    d < classes.size ∧ classes.orderOf d ⊆ classes.orderOf id

theorem Closed.push_ofBuiltin (h : classes.Closed) (b : Builtin) :
    Closed (classes.push (ofBuiltin classes b)) := by
  have habove : ∀ d ∈ (ofBuiltin classes b).order, d = classes.size ∨
      d < classes.size ∧ classes.orderOf d ⊆ (ofBuiltin classes b).order := by
    intro d hd
    rw [ofBuiltin] at hd ⊢
    simp only at hd ⊢
    split at hd
    next above hrun =>
      refine (List.mem_cons.mp hd).imp_right fun hd => ?_
      have hsub {base : ClassId} (hbase : base ∈ b.bases.filterMap classes.find?) :
          classes.orderOf base ⊆ classes.size :: above :=
        List.subset_cons_of_subset _
          (sublist_of_ancestors hrun _ (List.mem_map_of_mem hbase)).subset
      have hlt {base : ClassId} (hbase : base ∈ b.bases.filterMap classes.find?) :
          base < classes.size := by
        obtain ⟨name, -, hname⟩ := List.mem_filterMap.mp hbase
        exact (Array.findIdx?_eq_some_iff_getElem.mp hname).1
      rcases exists_of_mem_ancestors hrun hd with ⟨order, horder, hd⟩ | hd
      · obtain ⟨base, hbase, rfl⟩ := List.mem_map.mp horder
        obtain ⟨hdlt, hdsub⟩ := h base (hlt hbase) d hd
        exact ⟨hdlt, List.Subset.trans hdsub (hsub hbase)⟩
      · exact ⟨hlt hd, hsub hd⟩
    next => exact .inl (List.mem_singleton.mp hd)
  intro id hid d hd
  rw [Array.size_push] at hid ⊢
  rcases Nat.lt_succ_iff_lt_or_eq.mp hid with hlt | rfl
  · rw [orderOf_push_of_lt hlt] at hd ⊢
    obtain ⟨hdlt, hsub⟩ := h id hlt d hd
    exact ⟨Nat.lt_succ_of_lt hdlt, by rwa [orderOf_push_of_lt hdlt]⟩
  · rw [orderOf_push_self] at hd ⊢
    rcases habove d hd with rfl | ⟨hdlt, hsub⟩
    · exact ⟨Nat.lt_succ_self _, by rw [orderOf_push_self]; exact List.Subset.refl _⟩
    · exact ⟨Nat.lt_succ_of_lt hdlt, by rwa [orderOf_push_of_lt hdlt]⟩

theorem closed_initial : initial.Closed :=
  List.foldlRecOn builtinClasses _ (fun _ h => absurd h (Nat.not_lt_zero _))
    fun _ h b _ => h.push_ofBuiltin b

/-- If the classes of one name derive from a class of another name, so do all classes that derive
from them. -/
theorem Closed.derivesFrom (h : classes.Closed)
    (hnamed : ∀ d < classes.size, (classes[d]?).any (·.qualifiedName == name) = true →
      classes.derivesFrom d name' = true)
    (hid : id < classes.size) (hderives : classes.derivesFrom id name = true) :
    classes.derivesFrom id name' = true := by
  rw [Classes.derivesFrom, List.any_eq_true] at hderives
  obtain ⟨c, hc, hname⟩ := hderives
  obtain ⟨d, hd, hdc⟩ := List.mem_filterMap.mp hc
  obtain ⟨hlt, hsub⟩ := h id hid d hd
  have habove := hnamed d hlt (by rw [hdc]; exact hname)
  rw [Classes.derivesFrom, List.any_eq_true] at habove ⊢
  obtain ⟨a, ha, haname⟩ := habove
  obtain ⟨e, he, hea⟩ := List.mem_filterMap.mp ha
  exact ⟨a, List.mem_filterMap.mpr ⟨e, hsub he, hea⟩, haname⟩

end Classes
end ProviderRegistry.World
