import Mathlib.Data.List.Induction
import ProviderRegistry.Registry.Aggregate

/-!
# Entries as lists without repetitions

Adding and merging names keep the first occurrence of each: an entry holds the names
it was given, in order, with every later duplicate removed. `List.eraseDups` says this
in closed form, and the laws below let the closed forms of several merges be put
together into one.
-/

namespace ProviderRegistry.Registry

/-! ## Removing duplicates -/

section

variable {α : Type} [BEq α] [LawfulBEq α]

/-- A name at the end counts only when it has not occurred before. -/
theorem eraseDups_concat (l : List α) (a : α) :
    (l ++ [a]).eraseDups = if a ∈ l then l.eraseDups else l.eraseDups ++ [a] := by
  rw [List.eraseDups_append]
  by_cases h : a ∈ l
  · simp [h, List.removeAll]
  · simp [h, List.removeAll, List.eraseDups_cons]

theorem eraseDups_filter (p : α → Bool) (l : List α) :
    (l.filter p).eraseDups = l.eraseDups.filter p := by
  induction l using List.reverseRecOn with
  | nil => rfl
  | append_singleton l a ih =>
    rw [List.filter_append, eraseDups_concat]
    by_cases hp : p a
    · have hs : [a].filter p = [a] := by simp [hp]
      rw [hs, eraseDups_concat, ih]
      by_cases h : a ∈ l
      · rw [if_pos h, if_pos (List.mem_filter.mpr ⟨h, hp⟩)]
      · have hf : a ∉ l.filter p := fun hm => h (List.mem_filter.mp hm).1
        rw [if_neg h, if_neg hf, List.filter_append, hs]
    · have hs : [a].filter p = [] := by simp [hp]
      rw [hs, List.append_nil, ih]
      by_cases h : a ∈ l
      · rw [if_pos h]
      · rw [if_neg h, List.filter_append, hs, List.append_nil]

theorem eraseDups_nodup (l : List α) : l.eraseDups.Nodup := by
  induction l using List.reverseRecOn with
  | nil => exact List.nodup_nil
  | append_singleton l a ih =>
    rw [eraseDups_concat]
    by_cases h : a ∈ l
    · rwa [if_pos h]
    · rw [if_neg h, List.nodup_append]
      refine ⟨ih, by simp, ?_⟩
      intro b hb c hc
      obtain rfl := List.mem_singleton.mp hc
      rintro rfl
      exact h (List.mem_eraseDups.mp hb)

theorem eraseDups_of_nodup {l : List α} (h : l.Nodup) : l.eraseDups = l := by
  induction l using List.reverseRecOn with
  | nil => rfl
  | append_singleton l a ih =>
    rw [List.nodup_append] at h
    have ha : a ∉ l := fun hm => h.2.2 a hm a (List.mem_singleton.mpr rfl) rfl
    rw [eraseDups_concat, if_neg ha, ih h.1]

@[simp] theorem eraseDups_eraseDups (l : List α) : l.eraseDups.eraseDups = l.eraseDups :=
  eraseDups_of_nodup (eraseDups_nodup l)

theorem removeAll_congr {xs ys : List α} (h : ∀ a, a ∈ xs ↔ a ∈ ys) (zs : List α) :
    zs.removeAll xs = zs.removeAll ys := by
  have hc (a : α) : xs.contains a = ys.contains a := by
    rw [Bool.eq_iff_iff, List.contains_iff_mem, List.contains_iff_mem, h]
  simp only [List.removeAll, List.elem_eq_contains, hc]

@[simp] theorem eraseDups_eraseDups_append (xs ys : List α) :
    (xs.eraseDups ++ ys).eraseDups = (xs ++ ys).eraseDups := by
  rw [List.eraseDups_append, List.eraseDups_append, eraseDups_eraseDups,
    removeAll_congr fun _ => List.mem_eraseDups]

@[simp] theorem eraseDups_append_eraseDups (xs ys : List α) :
    (xs ++ ys.eraseDups).eraseDups = (xs ++ ys).eraseDups := by
  rw [List.eraseDups_append, List.eraseDups_append, List.removeAll, List.removeAll,
    eraseDups_filter, eraseDups_filter, eraseDups_eraseDups]

theorem eraseDups_self_append (xs ys : List α) :
    (xs ++ (xs ++ ys)).eraseDups = (xs ++ ys).eraseDups := by
  have htwice : (xs ++ xs).eraseDups = xs.eraseDups := by
    have hnil : xs.removeAll xs = [] := by
      rw [List.removeAll, List.filter_eq_nil_iff]
      intro a ha
      simp [ha]
    rw [List.eraseDups_append, hnil, List.eraseDups_nil, List.append_nil]
  rw [← List.append_assoc, ← eraseDups_eraseDups_append (xs ++ xs), htwice,
    eraseDups_eraseDups_append]

/-- What stands more than once adds nothing after the first time. -/
theorem eraseDups_flatMap_eraseDups {β : Type} [BEq β] [LawfulBEq β] (f : α → List β) (l : List α) :
    (l.eraseDups.flatMap f).eraseDups = (l.flatMap f).eraseDups := by
  induction l using List.reverseRecOn with
  | nil => rfl
  | append_singleton l a ih =>
    rw [eraseDups_concat, List.flatMap_append, List.flatMap_singleton]
    by_cases h : a ∈ l
    · have hnil : (f a).removeAll (l.flatMap f) = [] := by
        rw [List.removeAll, List.filter_eq_nil_iff]
        intro b hb
        simpa using ⟨a, h, hb⟩
      rw [if_pos h, ih, List.eraseDups_append, hnil, List.eraseDups_nil, List.append_nil]
    · rw [if_neg h, List.flatMap_append, List.flatMap_singleton,
        ← eraseDups_eraseDups_append, ih, eraseDups_eraseDups_append]

end

theorem eraseDups_eq_nil {α : Type} [BEq α] {l : List α} : l.eraseDups = [] ↔ l = [] := by
  cases l with
  | nil => simp
  | cons a l => simp [List.eraseDups_cons]

/-! ## Adding and merging -/

namespace Entry

theorem add_mk (contractName : String) (names : List String) (name : String) :
    ({ contractName, implementations := names.eraseDups } : Entry).add name =
      { contractName, implementations := (names ++ [name]).eraseDups } := by
  rw [eraseDups_concat, add]
  by_cases h : name ∈ names
  · rw [if_pos h, if_pos (by simpa using h)]
  · rw [if_neg h, if_neg (by simpa using h)]

/-- What was given to an entry and what is merged into it, later duplicates removed. -/
theorem merge_mk (contractName : String) (names more : List String) :
    ({ contractName, implementations := names.eraseDups } : Entry).merge more =
      { contractName, implementations := (names ++ more).eraseDups } := by
  induction more generalizing names with
  | nil => rw [List.append_nil]; rfl
  | cons name more ih =>
    rw [merge, List.foldl_cons, add_mk, ← merge, ih, List.append_assoc, List.singleton_append]

end Entry

end ProviderRegistry.Registry
