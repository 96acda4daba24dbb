import ProviderRegistry.Proofs.Effects
import ProviderRegistry.Proofs.Importing
import ProviderRegistry.Proofs.Reports
import ProviderRegistry.Proofs.Walking

/-!
# One class over many routes

A name that no class has is rewritten through the imports of modules, one hop after another
(`Scope.Hop`, `Scope.Route`), and where this ends does not depend on the route: a class is
known by its own name to whatever reaches it in as many hops as are made
(`Scope.Route.canonicalWithin_eq_iff`). So lookups, bases and markers agree about it
(`StaticModel.KnownOverRoutes`), and its providers stand in one entry
(`FinishedRound.routes_lead_to_one_key`).
-/

namespace ProviderRegistry

open Symbols Registry Resolution Syntax

namespace Symbols

namespace Scope

variable {scope : Scope} {name next key : String} {m : SourceModule}

/-! ## Hops -/

/-- A name leads through an import. The longest module that it properly starts with binds the
component after that by importing `target`, and has no class of this name. -/
structure LeadsThrough (scope : Scope) (name : String) (before : List String) (head : String)
    (rest : List String) (m : SourceModule) (target : String) : Prop where
  undeclared : scope.declares name = false
  parts : dottedParts name = before ++ head :: rest
  ne_nil : before ≠ []
  module : scope.modules.lookup (joinDots before) = some m
  longest : ∀ longer, longer <+: dottedParts name → longer ≠ dottedParts name →
    before.length < longer.length → scope.modules.lookup (joinDots longer) = none
  imported : m.imports.lookup head = some target
  notClass : head ∉ m.topLevel

/-- One import further on: what is imported takes the place of the module and the component
after it, and the other components are kept. -/
def Hop (scope : Scope) (name next : String) : Prop :=
  ∃ before head rest m target, scope.LeadsThrough name before head rest m target ∧
    next = joinDots (target :: rest)

/-- The module that a name is split after is the longest one that it starts with. -/
theorem splitModule?_eq_some_iff {rest initial parts : List String} :
    scope.splitModule? rest initial = some (m, parts) ↔
      ∃ before after, initial.reverse = before ++ after ∧ parts = after ++ rest ∧ before ≠ [] ∧
        scope.modules.lookup (joinDots before) = some m ∧
        ∀ longer, longer <+: initial.reverse → before.length < longer.length →
          scope.modules.lookup (joinDots longer) = none := by
  induction initial generalizing rest with
  | nil =>
    refine ⟨fun h => (by cases h), ?_⟩
    rintro ⟨before, after, hparts, -, hne, -⟩
    exact absurd (List.append_eq_nil_iff.mp hparts.symm).1 hne
  | cons last initial ih =>
    rw [splitModule?]
    cases hlookup : scope.modules.lookup (joinDots (last :: initial).reverse) with
    | some found =>
      -- All components together are a module, and no other is longer.
      simp only [Option.some.injEq, Prod.mk.injEq]
      constructor
      · rintro ⟨rfl, rfl⟩
        refine ⟨(last :: initial).reverse, [], (List.append_nil _).symm, rfl, by simp, hlookup,
          fun longer hstart hlonger => ?_⟩
        exact absurd hstart.length_le (by omega)
      · rintro ⟨before, after, hparts, rfl, -, hmodule, hlongest⟩
        cases after with
        | nil =>
          rw [hparts, List.append_nil, hmodule] at hlookup
          exact ⟨(Option.some.inj hlookup).symm, rfl⟩
        | cons next after =>
          have hnone := hlongest _ (List.prefix_refl _) (by rw [hparts]; simp)
          rw [hlookup] at hnone
          cases hnone
    | none =>
      simp only
      rw [ih, List.reverse_cons]
      constructor
      · rintro ⟨before, after, hparts, rfl, hne, hmodule, hlongest⟩
        refine ⟨before, after ++ [last], by rw [hparts, List.append_assoc],
          by rw [List.append_assoc]; rfl, hne, hmodule, fun longer hstart hlonger => ?_⟩
        rcases List.prefix_concat_iff.mp hstart with rfl | hstart
        · rwa [List.reverse_cons] at hlookup
        · exact hlongest longer hstart hlonger
      · rintro ⟨before, after, hparts, rfl, hne, hmodule, hlongest⟩
        -- The last component comes after the module, which is not all of them.
        rcases List.eq_nil_or_concat after with rfl | ⟨after, final, rfl⟩
        · rw [List.reverse_cons, hparts, List.append_nil, hmodule] at hlookup
          cases hlookup
        · rw [List.concat_eq_append, ← List.append_assoc] at hparts
          obtain ⟨hinitial, hlast⟩ := List.append_inj' hparts rfl
          obtain rfl := List.singleton_inj.mp hlast
          refine ⟨before, after, hinitial, by simp, hne, hmodule, fun longer hstart hlonger => ?_⟩
          exact hlongest longer (hstart.trans (List.prefix_append _ _)) hlonger

/-- **What a hop is.** The rewriting of a name that no class has is a hop. -/
theorem hop_iff :
    scope.Hop name next ↔ scope.declares name = false ∧ scope.hop? name = some next := by
  rw [hop?]
  rcases List.eq_nil_or_concat (dottedParts name) with hnil | ⟨initial, last, hparts⟩
  · exact absurd hnil (dottedParts_ne_nil name)
  rw [List.concat_eq_append] at hparts
  have hreverse : (dottedParts name).reverse = last :: initial.reverse := by
    rw [hparts, List.reverse_append, List.reverse_singleton, List.singleton_append]
  -- The proper starts of the name are the starts of its components before the last.
  have hproper {longer : List String} :
      longer <+: initial ↔ longer <+: dottedParts name ∧ longer ≠ dottedParts name := by
    rw [hparts, List.prefix_concat_iff]
    refine ⟨fun h => ⟨.inr h, ?_⟩, fun h => h.1.resolve_left h.2⟩
    rintro rfl
    exact absurd h.length_le (by simp)
  rw [hreverse]
  constructor
  · rintro ⟨before, head, rest, m, target, hleads, rfl⟩
    refine ⟨hleads.undeclared, ?_⟩
    have hsplit : scope.splitModule? [last] initial.reverse = some (m, head :: rest) := by
      rw [splitModule?_eq_some_iff, List.reverse_reverse]
      have hstart : before <+: initial :=
        hproper.mpr ⟨hleads.parts ▸ List.prefix_append _ _, by simp [hleads.parts]⟩
      obtain ⟨after, rfl⟩ := hstart
      have hrest := hleads.parts
      rw [hparts, List.append_assoc, List.append_cancel_left_eq] at hrest
      exact ⟨before, after, rfl, hrest.symm, hleads.ne_nil, hleads.module,
        fun longer hlonger => hleads.longest longer (hproper.mp hlonger).1 (hproper.mp hlonger).2⟩
    have hclass : m.topLevel.contains head = false := by simp [hleads.notClass]
    simp only [hsplit, hclass, hleads.imported, Bool.false_eq_true, if_false, Option.map_some]
  · rintro ⟨hundeclared, hhop⟩
    simp only at hhop
    split at hhop
    next m head rest hsplit =>
      split at hhop
      next => cases hhop
      next hclass =>
        obtain ⟨target, himported, rfl⟩ := Option.map_eq_some_iff.mp hhop
        rw [splitModule?_eq_some_iff, List.reverse_reverse] at hsplit
        obtain ⟨before, after, rfl, hrest, hne, hmodule, hlongest⟩ := hsplit
        refine ⟨before, head, rest, m, target, ⟨hundeclared, ?_, hne, hmodule, ?_, himported, ?_⟩,
          rfl⟩
        · rw [hparts, List.append_assoc, ← hrest]
        · exact fun longer hstart hother => hlongest longer (hproper.mpr ⟨hstart, hother⟩)
        · exact fun hmem => hclass (List.contains_iff_mem.mpr hmem)
    next => cases hhop

theorem Hop.unique {other : String} (h : scope.Hop name next) (h' : scope.Hop name other) :
    next = other :=
  Option.some.inj ((hop_iff.mp h).2.symm.trans (hop_iff.mp h').2)

theorem not_hop_of_declares (h : scope.declares name = true) (next : String) :
    ¬ scope.Hop name next := by
  intro hhop
  rw [(hop_iff.mp hhop).1] at h
  cases h

/-! ## Routes -/

/-- A name leads to another one in a number of hops. -/
inductive Route (scope : Scope) : Nat → String → String → Prop
  | here (name : String) : Route scope 0 name name
  | hop {hops : Nat} {name next key : String} (first : scope.Hop name next)
      (rest : Route scope hops next key) : Route scope (hops + 1) name key

theorem canonicalWithin_succ_of_hop (h : scope.Hop name next) (hops : Nat) :
    scope.canonicalWithin (hops + 1) name = scope.canonicalWithin hops next := by
  obtain ⟨hundeclared, hhop⟩ := hop_iff.mp h
  rw [canonicalWithin, hundeclared, hhop]
  rfl

theorem canonicalWithin_of_not_hop (h : ∀ next, ¬ scope.Hop name next) (hops : Nat) :
    scope.canonicalWithin hops name = name := by
  cases hops with
  | zero => rfl
  | succ hops =>
    rw [canonicalWithin]
    by_cases hdeclares : scope.declares name = true
    · rw [if_pos hdeclares]
    · rw [if_neg hdeclares]
      cases hhop : scope.hop? name with
      | none => rfl
      | some next => exact absurd (hop_iff.mpr ⟨Bool.eq_false_iff.mpr hdeclares, hhop⟩) (h next)

/-- **Where following imports ends**: at a name that no import leads on from, or when all
hops have been made. -/
theorem exists_route (scope : Scope) (hops : Nat) (name : String) :
    ∃ made ≤ hops, scope.Route made name (scope.canonicalWithin hops name) ∧
      (made = hops ∨ ∀ next, ¬ scope.Hop (scope.canonicalWithin hops name) next) := by
  induction hops generalizing name with
  | zero => exact ⟨0, Nat.le_refl 0, .here name, .inl rfl⟩
  | succ hops ih =>
    by_cases h : ∃ next, scope.Hop name next
    · obtain ⟨next, hnext⟩ := h
      obtain ⟨made, hmade, hroute, hends⟩ := ih next
      rw [canonicalWithin_succ_of_hop hnext]
      exact ⟨made + 1, by omega, .hop hnext hroute, hends.imp_left (congrArg (· + 1))⟩
    · have hstops : ∀ next, ¬ scope.Hop name next := not_exists.mp h
      rw [canonicalWithin_of_not_hop hstops]
      exact ⟨0, by omega, .here name, .inr hstops⟩

/-- Of two modules that import one name from each other, the hops end at one. -/
example : Scope.canonical ⟨[("a", ⟨"a", ⟨.none, ["a.py"]⟩, false, [("X", "b.X")], []⟩),
    ("b", ⟨"b", ⟨.none, ["b.py"]⟩, false, [("X", "a.X")], []⟩)], []⟩ "a.X" = "b.X" := by
  decide +kernel

namespace Route

variable {hops : Nat}

theorem canonicalWithin_add (h : scope.Route hops name key) (more : Nat) :
    scope.canonicalWithin (hops + more) name = scope.canonicalWithin more key := by
  induction h with
  | here name => rw [Nat.zero_add]
  | hop first _ ih => rw [Nat.add_right_comm, canonicalWithin_succ_of_hop first, ih]

/-- All routes from a name to a class are of one length. -/
theorem length_unique {hops' : Nat} (hkey : scope.declares key = true)
    (h : scope.Route hops name key) (h' : scope.Route hops' name key) : hops = hops' := by
  induction h generalizing hops' with
  | here name =>
    cases h' with
    | here => rfl
    | hop first _ => exact absurd first (not_hop_of_declares hkey _)
  | hop first _ ih =>
    cases h' with
    | here => exact absurd first (not_hop_of_declares hkey _)
    | hop first' rest' =>
      obtain rfl := first.unique first'
      rw [ih hkey rest']

/-- **How far imports are followed.** A route ends at its class exactly when it is not longer
than the hops that are made. -/
theorem canonicalWithin_eq_iff (hkey : scope.declares key = true)
    (h : scope.Route hops name key) (limit : Nat) :
    scope.canonicalWithin limit name = key ↔ hops ≤ limit := by
  constructor
  · intro heq
    obtain ⟨made, hmade, hroute, -⟩ := scope.exists_route limit name
    rw [heq] at hroute
    rwa [h.length_unique hkey hroute]
  · intro hle
    obtain ⟨more, rfl⟩ := Nat.exists_eq_add_of_le hle
    rw [h.canonicalWithin_add, canonicalWithin_of_not_hop (not_hop_of_declares hkey)]

end Route

/-! ## Names over routes -/

/-- A name written in a module refers to a class over imports: its first component is
imported there and is no class there, and what it is imported as leads to the class. -/
def Refers (scope : Scope) (m : SourceModule) (written key : String) : Prop :=
  ∃ head rest target hops, dottedParts written = head :: rest ∧
    m.imports.lookup head = some target ∧ head ∉ m.topLevel ∧ hops ≤ 17 ∧
    scope.Route hops (joinDots (target :: rest)) key

theorem Refers.resolve_eq (h : scope.Refers m name key) (hkey : scope.declares key = true) :
    scope.resolve m name = key := by
  obtain ⟨head, rest, target, hops, hparts, himported, hclass, hle, hroute⟩ := h
  have hhead : m.topLevel.contains head = false := by simp [hclass]
  have hmeaning : headMeaning? m head = some target := by
    rw [headMeaning?, hhead, himported]
    rfl
  rw [resolve, splitHead, hparts]
  simp only [hmeaning]
  exact (hroute.canonicalWithin_eq_iff hkey maxHops).mpr hle

end Scope

namespace StaticModel

open Scope

/-! ## The value of a marker -/

section

variable (scope : Scope) (elements : Table String Element) (m : SourceModule)

/-- Whether an argument of a marker counts: it is a dotted name or a constant. -/
def counts (e : Expr) : Bool := (writtenName? e).isSome || (writtenLiteral? e).isSome

/-- The argument that a marker has its value from: the last that counts of the first argument
by position and those named so. -/
def valueOf? (decorator : Expr) : Option Expr :=
  match decorator.stripped with
  | .call _ args named =>
    ((args.head?.toList ++ (named.filter (·.1 == some "value")).map (·.2)).filter counts).getLast?
  | _ => none

/-- The decorator of a class that its marker is read from. -/
def markerOf? (scope : Scope) (markers : List String) (d : Declared) : Option Expr :=
  d.declaration.decorators.find? fun decorator =>
    (markerName? decorator).any fun written => markers.contains (scope.resolve d.module written)

theorem isSome_argument? (e : Expr) : (argument? scope elements m e).isSome = counts e := by
  rw [argument?_eq, counts]
  cases writtenName? e with
  | some written => rfl
  | none =>
    cases writtenLiteral? e with
    | some l => rfl
    | none => rfl

theorem filter_counts (e : Expr) :
    [e].filter counts = if (argument? scope elements m e).isSome then [e] else [] := by
  rw [isSome_argument? scope elements m]
  cases hcounts : counts e <;> simp [hcounts]

/-- Named arguments in a row: the last that counts of those of one name gives its value. -/
theorem lookup_foldl_arguments (named : List (Option String × Expr))
    (table : Table String MarkerValue) (key : String) :
    (named.foldl (fun table (name, e) =>
      match name, argument? scope elements m e with
      | some name, some v => Table.set name v table
      | _, _ => table) table).lookup key =
      (((((named.filter (·.1 == some key)).map (·.2)).filter counts).getLast?).bind
        (argument? scope elements m)).or (table.lookup key) := by
  -- By induction from the end, since a later argument takes the place of one before.
  induction named using List.reverseRecOn with
  | nil => rfl
  | append_singleton named last ih =>
    obtain ⟨name, e⟩ := last
    rw [List.foldl_append, List.foldl_cons, List.foldl_nil, List.filter_append, List.map_append,
      List.filter_append]
    by_cases hname : name = some key
    · subst hname
      have hfilter : [(some key, e)].filter (·.1 == some key) = [(some key, e)] := by simp
      rw [hfilter, List.map_singleton, filter_counts scope elements m]
      cases hvalue : argument? scope elements m e with
      | none =>
        simp only [hvalue, Option.isSome_none, Bool.false_eq_true, if_false, List.append_nil]
        exact ih
      | some v =>
        simp only [hvalue, Option.isSome_some, if_true, List.getLast?_concat, Option.bind_some,
          Option.some_or, Table.lookup_set_self]
    · have hfilter : [(name, e)].filter (·.1 == some key) = [] := by simp [hname]
      rw [hfilter, List.map_nil, List.filter_nil, List.append_nil]
      cases name with
      | none => exact ih
      | some name =>
        cases hvalue : argument? scope elements m e with
        | none =>
          simp only [hvalue]
          exact ih
        | some v =>
          have hne : key ≠ name := fun heq => hname (congrArg some heq.symm)
          simp only [hvalue, Table.lookup_set_of_ne hne]
          exact ih

variable {scope elements m}

theorem value?_of_annotation? {decorator : Expr} {a : Annotation}
    (h : annotation? scope elements m decorator = some a) :
    a.value? "value" = (valueOf? decorator).bind (argument? scope elements m) := by
  rw [annotation?] at h
  rw [valueOf?]
  cases hstripped : decorator.stripped with
  | call function args named =>
    simp only [hstripped] at h ⊢
    obtain ⟨written, -, rfl⟩ := Option.map_eq_some_iff.mp h
    refine (lookup_foldl_arguments scope elements m named _ "value").trans ?_
    rw [List.filter_append, List.getLast?_append]
    cases hlast : (((named.filter (·.1 == some "value")).map (·.2)).filter counts).getLast? with
    | some e =>
      -- An argument that counts has a value, so that the first by position is not asked.
      have hcounts := (List.mem_filter.mp (List.mem_of_getLast? hlast)).2
      rw [← isSome_argument? scope elements m] at hcounts
      obtain ⟨v, hvalue⟩ := Option.isSome_iff_exists.mp hcounts
      rw [Option.bind_some, Option.some_or, Option.bind_some, hvalue]
      rfl
    | none =>
      rw [Option.bind_none, Option.none_or, Option.none_or]
      cases args.head? with
      | none => rfl
      | some e =>
        rw [Option.toList_some, filter_counts scope elements m]
        cases hvalue : argument? scope elements m e with
        | none => simp [hvalue]
        | some v => simp [hvalue]
  | _ =>
    simp only [hstripped] at h
    obtain ⟨written, -, rfl⟩ := Option.map_eq_some_iff.mp h
    rfl

variable (scope elements m) in
/-- A marker has the type that the name of its decorator resolves to. -/
theorem map_annotationType (decorator : Expr) :
    (annotation? scope elements m decorator).map (·.annotationType) =
      (markerName? decorator).map (scope.resolve m) := by
  rw [annotation?, markerName?]
  cases decorator.stripped with
  | call function args named => exact Option.map_map ..
  | _ => exact Option.map_map ..

theorem annotation?_markers {d : Declared} {element : Element} (hannotations : element.annotations =
    d.declaration.decorators.filterMap (annotation? scope elements d.module))
    (markers : List String) : element.annotation? markers =
      (markerOf? scope markers d).bind (annotation? scope elements d.module) := by
  -- Whether a decorator counts depends on the name that it resolves to only.
  have hcounts (decorator : Expr) : (annotation? scope elements d.module decorator).any
      (fun a => markers.contains a.annotationType) =
        (markerName? decorator).any fun written =>
          markers.contains (scope.resolve d.module written) := by
    have htype := map_annotationType scope elements d.module decorator
    simpa only [Option.any_map] using congrArg (Option.any markers.contains) htype
  rw [Element.annotation?, hannotations, List.find?_filterMap, markerOf?]
  exact congrArg (fun p => (d.declaration.decorators.find? p).bind _) (funext hcounts)

end

theorem of_writtenText? {e : Expr} {text : String} (h : writtenText? e = some text) :
    writtenName? e = none ∧ writtenLiteral? e = some (.str text) := by
  rw [writtenText?] at h
  split at h
  next written hliteral =>
    obtain rfl := Option.some.inj h
    refine ⟨?_, hliteral⟩
    rw [writtenLiteral?] at hliteral
    rw [writtenName?]
    split at hliteral
    next hstripped => rw [hstripped]
    next => cases hliteral
  next => cases h

/-! ## Inheriting -/

/-- A class inherits from its bases. -/
theorem inherits_of_mem_supertypes {model : StaticModel} {e c : Element}
    (hmem : c.qualifiedName ∈ e.supertypes) : model.inherits e c = true :=
  (model.inherits_iff_reaches e c).mpr (.base hmem)

/-- An argument of a marker refers to a class: it is a name that does so over imports, or a
text that leads to the class. -/
inductive ArgumentRefers (scope : Scope) (m : SourceModule) (key : String) (e : Expr) : Prop
  | name {written : String} (h : writtenName? e = some written)
      (refers : scope.Refers m written key)
  | text {text : String} {hops : Nat} (h : writtenText? e = some text) (hle : hops ≤ 17)
      (route : scope.Route hops text key)

/-- The marker of a class names a contract by an argument that refers to it. -/
def MarkerRefers (scope : Scope) (markers : List String) (d : Declared) (key : String) : Prop :=
  ∃ decorator e, markerOf? scope markers d = some decorator ∧ valueOf? decorator = some e ∧
    ArgumentRefers scope d.module key e

/-! ## One class over all routes -/

section

variable {model scanned : StaticModel} {tree : FileTree} {reports reports' : Reports}
  {key name : String} {d p : Declared} {c e : Element} {markers : List String}

theorem declares_of_mem (hd : (key, d) ∈ scanned.scope.classes) :
    scanned.scope.declares key = true :=
  Table.has_iff.mpr (List.mem_map_of_mem hd)

variable (hscope : model.scope = {}) (helements : model.elements = none)
  (h : model.scan tree reports = (scanned, reports', .ok ()))

include helements h in
/-- Elements are known under the names of classes that have been read only. -/
theorem lookup_found_eq_none (hname : scanned.scope.declares name = false) :
    scanned.found.lookup name = none := by
  cases hlookup : scanned.found.lookup name with
  | none => rfl
  | some e =>
    obtain ⟨d, hd, -⟩ := of_mem_found helements h _ (Table.mem_of_lookup hlookup)
    rw [declares_of_mem hd] at hname
    cases hname

include helements h in
/-- A class is found under every name that leads to it. -/
theorem element?_of_route {hops : Nat} (hd : (key, d) ∈ scanned.scope.classes)
    (hroute : scanned.scope.Route hops name key) (hle : hops ≤ maxHops) :
    scanned.element? name = scanned.found.lookup key := by
  have hcanonical : scanned.scope.canonical name = key :=
    (hroute.canonicalWithin_eq_iff (declares_of_mem hd) maxHops).mpr hle
  rw [element?, lookUp, hcanonical]
  cases hroute with
  | here =>
    cases scanned.found.lookup key with
    | none => rfl
    | some e => rfl
  | hop first rest =>
    rw [lookup_found_eq_none helements h (hop_iff.mp first).1]
    rfl

include hscope helements h

/-- Every class that has been read has its element under its name. -/
theorem exists_describes (hd : (key, d) ∈ scanned.scope.classes) :
    ∃ c, scanned.found.lookup key = some c ∧ Describes scanned.scope d c ∧
      c.qualifiedName = key := by
  obtain ⟨c, -, hfound, hdescribes, -⟩ := exists_element hscope helements h hd
  exact ⟨c, hfound, hdescribes, ((keyed_found hscope helements h).of_lookup hfound).symm⟩

/-- What a table of elements of classes holds under a name is a class of this name. -/
theorem of_lookup_of_allDescribe {before : Table String Element}
    (hall : AllDescribe scanned.scope before) (hc : before.lookup key = some c) :
    scanned.scope.declares key = true ∧ c.qualifiedName = key := by
  obtain ⟨d, hd, hdescribes⟩ := hall _ (Table.mem_of_lookup hc)
  refine ⟨declares_of_mem hd, ?_⟩
  rw [Element.qualifiedName, hdescribes.module, hdescribes.qualname]
  exact ((grown_of_scan hscope helements h).classes.key _ hd).symm

/-- What refers to the name of a class that has been read has this name. -/
theorem qualifiedName_refer {before : Table String Element} (hd : (key, d) ∈ scanned.scope.classes)
    (hall : AllDescribe scanned.scope before) :
    (refer scanned.scope before key).qualifiedName = key := by
  have hcanonical : scanned.scope.canonical key = key :=
    ((Route.here key).canonicalWithin_eq_iff (declares_of_mem hd) maxHops).mpr (Nat.zero_le _)
  rw [refer, lookUp, hcanonical]
  cases hlookup : before.lookup key with
  | none =>
    obtain ⟨c, hfound, -, hname⟩ := exists_describes hscope helements h hd
    have hnamed := (wellNamed_of_scan hscope helements h).found.of_lookup hfound
    exact qualifiedName_undeclared (hname ▸ hnamed.qualifiedName)
  | some e => exact (of_lookup_of_allDescribe hscope helements h hall hlookup).2

/-- An argument of a marker that refers to a class stands for it. -/
theorem exists_argument {before : Table String Element} {x : Expr} {written : String}
    (hd : (key, d) ∈ scanned.scope.classes) (hall : AllDescribe scanned.scope before)
    (hwritten : writtenName? x = some written)
    (hrefers : scanned.scope.Refers p.module written key) :
    ∃ t, argument? scanned.scope before p.module x = some (.type t) ∧ t.qualifiedName = key := by
  rw [argument?_eq, hwritten, Option.map_some, Option.some_or,
    hrefers.resolve_eq (declares_of_mem hd)]
  exact ⟨_, rfl, qualifiedName_refer hscope helements h hd hall⟩

/-- The value of the marker of a class is what its argument stands for when the markers of the
class are read. -/
theorem exists_value (hp : (name, p) ∈ scanned.scope.classes)
    (he : scanned.found.lookup name = some e) {decorator argument : Expr}
    (hmarker : markerOf? scanned.scope markers p = some decorator)
    (hvalue : valueOf? decorator = some argument) :
    ∃ before, AllDescribe scanned.scope before ∧
      (e.annotation? markers).bind (·.value? "value") =
        argument? scanned.scope before p.module argument := by
  obtain ⟨element, before, hfound, -, hall, hannotations⟩ := exists_element hscope helements h hp
  obtain rfl : element = e := Option.some.inj (hfound.symm.trans he)
  have hmarks : element.annotation? markers =
      annotation? scanned.scope before p.module decorator := by
    rw [annotation?_markers hannotations, hmarker]
    rfl
  obtain ⟨a, ha⟩ : ∃ a, annotation? scanned.scope before p.module decorator = some a := by
    have htype := congrArg Option.isSome
      (map_annotationType scanned.scope before p.module decorator)
    rw [Option.isSome_map, Option.isSome_map] at htype
    have hcounts := List.find?_some hmarker
    rw [← Option.isSome_iff_exists, htype]
    exact Option.isSome_of_any hcounts
  refine ⟨before, hall, ?_⟩
  rw [hmarks, ha, Option.bind_some, value?_of_annotation? ha, hvalue]
  rfl

/-- **The contract of a marker** that refers to a class over imports is this class. -/
theorem contractIn?_of_markerRefers (hd : (key, d) ∈ scanned.scope.classes)
    (hc : scanned.found.lookup key = some c) (hp : (name, p) ∈ scanned.scope.classes)
    (he : scanned.found.lookup name = some e)
    (hrefers : MarkerRefers scanned.scope markers p key) :
    contractIn? scanned markers e = some c := by
  obtain ⟨decorator, argument, hmarker, hvalue, hargument⟩ := hrefers
  obtain ⟨before, hall, hstands⟩ := exists_value hscope helements h hp he hmarker hvalue
  have hkey : scanned.element? key = some c :=
    (element?_of_route helements h hd (.here key) (Nat.zero_le _)).trans hc
  rw [contractIn?, hstands]
  cases hargument with
  | name hwritten hrefers =>
    obtain ⟨t, ht, hname⟩ := exists_argument hscope helements h hd hall hwritten hrefers
    simp only [ht, hname, hkey, Option.getD_some]
  | @text text hops htext hle hroute =>
    obtain ⟨hnoName, hliteral⟩ := of_writtenText? htext
    have hreference : scanned.reference text = c := by
      rw [reference, element?_of_route helements h hd hroute hle, hc]
      rfl
    rw [argument?_eq, hnoName, hliteral]
    exact congrArg some hreference

omit hscope helements h in
/-- A concrete class is accepted for the contract that its marker names and it inherits from. -/
theorem mem_acceptedBindings (he : scanned.found.lookup name = some e)
    (hconcrete : isConcrete e = true) (hcontract : contractIn? scanned markers e = some c)
    (hinherits : scanned.inherits e c = true) :
    ⟨c, e, requestsFactory markers e⟩ ∈ acceptedBindings scanned markers := by
  have hverdict : verdict scanned markers e = .ok ⟨c, e, requestsFactory markers e⟩ := by
    rw [verdict, hconcrete, hcontract]
    simp only [Bool.not_true, Bool.false_eq_true, if_false, if_pos hinherits]
  have hmarked : (e.annotation? markers).isSome = true := by
    cases hmarks : e.annotation? markers with
    | some a => rfl
    | none =>
      rw [contractIn?, hmarks] at hcontract
      cases hcontract
  refine List.mem_filterMap.mpr ⟨e, List.mem_filter.mpr ⟨?_, hmarked⟩, by rw [hverdict]; rfl⟩
  exact List.mem_map.mpr ⟨_, Table.mem_of_lookup he, rfl⟩

end

/-- What is known of a class whatever route its name is reached over, in at most as many hops
as are made: its name, its element, and that it is meant by bases and by markers. -/
structure KnownOverRoutes (scanned : StaticModel) (key : String) (d : Declared) (c : Element) :
    Prop where
  found : scanned.found.lookup key = some c
  describes : Describes scanned.scope d c
  canonical : ∀ hops name, scanned.scope.Route hops name key →
    (scanned.scope.canonical name = key ↔ hops ≤ 17)
  element : ∀ hops name, scanned.scope.Route hops name key → hops ≤ 17 →
    scanned.element? name = some c
  base : ∀ name p e, (name, p) ∈ scanned.scope.classes → scanned.found.lookup name = some e →
    e.supertypes = (p.declaration.bases.filterMap (·.dotted?)).map
        (scanned.scope.resolve p.module) ∧
      ∀ base ∈ p.declaration.bases, ∀ written, base.dotted? = some written →
        scanned.scope.Refers p.module written key →
          scanned.scope.resolve p.module written = key ∧ scanned.inherits e c = true
  argument : ∀ name p e, (name, p) ∈ scanned.scope.classes → scanned.found.lookup name = some e →
    ∃ elements, e.annotations = p.declaration.decorators.filterMap
        (annotation? scanned.scope elements p.module) ∧
      ∀ x written, writtenName? x = some written → scanned.scope.Refers p.module written key →
        ∃ t, argument? scanned.scope elements p.module x = some (.type t) ∧ t.qualifiedName = key
  marker : ∀ markers name p e, (name, p) ∈ scanned.scope.classes →
    scanned.found.lookup name = some e → MarkerRefers scanned.scope markers p key →
      contractIn? scanned markers e = some c

section

variable {model scanned : StaticModel} {tree : FileTree} {reports reports' : Reports}
  {key : String} {d : Declared} (hscope : model.scope = {}) (helements : model.elements = none)
  (h : model.scan tree reports = (scanned, reports', .ok ()))

include hscope helements h

theorem exists_knownOverRoutes (hd : (key, d) ∈ scanned.scope.classes) :
    ∃ c, KnownOverRoutes scanned key d c := by
  obtain ⟨c, hfound, hdescribes, hname⟩ := exists_describes hscope helements h hd
  have hdeclares := declares_of_mem hd
  refine ⟨c, hfound, hdescribes, ?_, ?_, ?_, ?_, ?_⟩
  · exact fun hops name hroute => hroute.canonicalWithin_eq_iff hdeclares maxHops
  · exact fun hops name hroute hle => (element?_of_route helements h hd hroute hle).trans hfound
  · intro name p e hp he
    obtain ⟨element, before, helement, hdescribesIt, -⟩ := exists_element hscope helements h hp
    obtain rfl : element = e := Option.some.inj (helement.symm.trans he)
    refine ⟨hdescribesIt.supertypes, fun base hbase written hwritten hrefers => ?_⟩
    have hresolve := hrefers.resolve_eq hdeclares
    refine ⟨hresolve, inherits_of_mem_supertypes ?_⟩
    rw [hdescribesIt.supertypes, hname]
    exact List.mem_map.mpr ⟨written, List.mem_filterMap.mpr ⟨base, hbase, hwritten⟩, hresolve⟩
  · intro name p e hp he
    obtain ⟨element, before, helement, -, hall, hannotations⟩ :=
      exists_element hscope helements h hp
    obtain rfl : element = e := Option.some.inj (helement.symm.trans he)
    exact ⟨before, hannotations, fun x written hwritten hrefers =>
      exists_argument hscope helements h hd hall hwritten hrefers⟩
  · exact fun markers name p e hp he hrefers =>
      contractIn?_of_markerRefers hscope helements h hd hfound hp he hrefers

/-- What the imports of a module that has been read bind a name to is what its last import of
the name says, relative ones from its package. -/
theorem exists_lookup_imports {entry : String × SourceModule}
    (hentry : entry ∈ scanned.scope.modules) :
    ∃ root components statements, entry.2.ReadAt tree model root components statements ∧
      ∀ head, entry.2.imports.lookup head = Table.last? ((breadthFirst statements).flatMap
        (importsOf (SourceModule.packageOf entry.2.name entry.2.isPackage))) head := by
  obtain ⟨root, components, statements, hread⟩ :=
    (grown_of_scan hscope helements h).isRead entry hentry
  refine ⟨root, components, statements, hread, fun head => ?_⟩
  have himports := SourceModule.lookup_imports entry.2.name entry.2.path entry.2.isPackage
    statements head
  rwa [← hread.eq] at himports

end

end StaticModel

end Symbols

/-! ## Rounds -/

namespace FinishedRound

variable {r : FinishedRound} {model scanned : StaticModel} {tree : FileTree}
  {reports reports' : Reports}

/-- A round over sources: it scans them, or its model has done so before. -/
def RunsOver (r : FinishedRound) (model scanned : StaticModel) (tree : FileTree)
    (reports : Reports) : Prop :=
  r.start.model = .static model ∧ r.start.world.files = tree ∧ r.start.reports = reports ∨
    r.start.model = .static scanned

/-- A round has one entry for a contract, which lists every concrete class that inherits from
it and whose marker refers to it, over whatever route. -/
structure Gathers (r : FinishedRound) (scanned : StaticModel) (key : String) (c : Element) :
    Prop where
  one : ∀ entry ∈ r.outcome.entries, ∀ other ∈ r.outcome.entries, entry.contractName = key →
    other.contractName = key → entry = other
  lists : ∀ name p e, (name, p) ∈ scanned.scope.classes → scanned.found.lookup name = some e →
    isConcrete e = true → scanned.inherits e c = true →
      StaticModel.MarkerRefers scanned.scope r.processor.markers p key →
        ∃ entry ∈ r.outcome.entries, entry.contractName = key ∧ name ∈ entry.implementations

section

variable (hscope : model.scope = {}) (helements : model.elements = none)
  (h : model.scan tree reports = (scanned, reports', .ok ()))

include h in
theorem RunsOver.bindings_eq (hover : r.RunsOver model scanned tree reports) :
    r.bindings = acceptedBindings scanned r.processor.markers := by
  rcases hover with ⟨hmodel, rfl, rfl⟩ | hmodel
  · exact bindings_eq_acceptedBindings hmodel h
  · have hagain : scanned.scan r.start.world.files r.start.reports =
        (scanned, r.start.reports, .ok ()) := by
      rw [StaticModel.scan, if_pos (StaticModel.isSome_elements_of_scan h)]
    exact bindings_eq_acceptedBindings hmodel hagain

include hscope helements h in
theorem RunsOver.gathers (hover : r.RunsOver model scanned tree reports) {key : String}
    {d : Declared} {c : Element} (hknown : scanned.KnownOverRoutes key d c) :
    r.Gathers scanned key c where
  one := by
    intro entry hentry other hother hkey hkey'
    exact List.inj_on_of_nodup_map nodup_contractName hentry hother (hkey.trans hkey'.symm)
  lists := by
    intro name p e hp he hconcrete hinherits hrefers
    have hkeyed := StaticModel.keyed_found hscope helements h
    have hcontract := hknown.marker _ name p e hp he hrefers
    have hmem := StaticModel.mem_acceptedBindings he hconcrete hcontract hinherits
    rw [← hover.bindings_eq h] at hmem
    obtain ⟨b, hb, himplementation, entry, hentry, hname, hlists⟩ := accepts_of_mem_bindings hmem
    -- The class has one binding, whose contract is the one that its marker refers to.
    rw [hover.bindings_eq h] at hb
    have hsame := (of_verdict_eq_ok _ (of_mem_acceptedBindings hb).2).2.1
    rw [himplementation, hcontract] at hsame
    rw [Binding.key, ← Option.some.inj hsame, ← hkeyed.of_lookup hknown.found] at hname
    rw [← hkeyed.of_lookup he] at hlists
    exact ⟨entry, hentry, hname, hlists⟩

include hscope helements h in
/-- **All routes lead to one key.** Whatever name a class is reached over in at most 17 hops,
it is known by its own name: lookups find its element, bases and markers mean it, and the
providers that refer to it stand in one entry. What any other name leads to is found after at
most 17 hops, too. A hop goes by what the import statements of a module bind. -/
theorem routes_lead_to_one_key {key : String} {d : Declared}
    (hd : (key, d) ∈ scanned.scope.classes) :
    (∃ c, scanned.KnownOverRoutes key d c ∧
      ∀ r : FinishedRound, r.RunsOver model scanned tree reports → r.Gathers scanned key c) ∧
    (∀ name, ∃ hops ≤ 17, scanned.scope.Route hops name (scanned.scope.canonical name) ∧
      (hops = 17 ∨ ∀ next, ¬ scanned.scope.Hop (scanned.scope.canonical name) next)) ∧
    ∀ entry ∈ scanned.scope.modules, ∃ root components statements,
      entry.2.ReadAt tree model root components statements ∧
        ∀ head, entry.2.imports.lookup head = Table.last? ((breadthFirst statements).flatMap
          (importsOf (SourceModule.packageOf entry.2.name entry.2.isPackage))) head := by
  obtain ⟨c, hknown⟩ := StaticModel.exists_knownOverRoutes hscope helements h hd
  refine ⟨⟨c, hknown, fun r hover => hover.gathers hscope helements h hknown⟩, ?_, ?_⟩
  · exact fun name => scanned.scope.exists_route Scope.maxHops name
  · exact fun entry hentry => StaticModel.exists_lookup_imports hscope helements h hentry

end

end FinishedRound

/-! ### A class over two routes -/

/-- A package that gives a class of its module another name, a module that imports the
package, and one whose classes reach the class in two ways. -/
def routedTree : FileTree :=
  ⟨[], [(["x"], .directory), (["x", "p"], .directory),
    (["x", "p", "__init__.py"], .file (Text.utf8Bytes "from .a import B as S\n".toList)),
    (["y"], .directory), (["y", "p"], .directory),
    (["y", "p", "a.py"], .file (Text.utf8Bytes "class B:0\n".toList)),
    (["z"], .directory), (["z", "r.py"], .file (Text.utf8Bytes "import p\n".toList)),
    (["w"], .directory),
    (["w", "s.py"], .file (Text.utf8Bytes ("import p.a\nfrom r import p as z\n" ++
      "@k(z.S)\nclass X(z.S):0\n@k(p.a.B)\nclass Y(p.a.B):0\n").toList))]⟩

def routedModel : StaticModel where
  roots := [⟨.none, ["x"]⟩, ⟨.none, ["y"]⟩, ⟨.none, ["z"]⟩, ⟨.none, ["w"]⟩]
  ignoreDirs := []
  encoding := "utf-8"

def routedScan : StaticModel × Reports × Except ScanFault Unit := routedModel.scan routedTree {}

def routedSession : Session where
  model := .static routedModel
  world := { files := routedTree, modules := [], classes := #[] }

def routedOutput : Output where
  classOutput := ⟨.none, ["o"]⟩
  sourceOutput := ⟨.none, ["o"]⟩
  servicesDir := Naming.servicesDir
  encoding := "utf-8"

def routedRound? : Option FinishedRound :=
  FinishedRound.run? ⟨["k"], ⟨"g", ""⟩⟩ routedOutput routedSession

def routedRound : FinishedRound := routedRound?.get (by decide +kernel)

theorem routedRound_start : routedRound.start = routedSession :=
  (FinishedRound.of_run?_eq_some (Option.some_get _).symm).2.2

/-- The scan rewrites one name to the next. -/
def Rewrites (name next : String) : Prop :=
  routedScan.1.scope.declares name = false ∧ routedScan.1.scope.hop? name = some next

instance (name next : String) : Decidable (Rewrites name next) :=
  inferInstanceAs (Decidable (_ ∧ _))

theorem routedScan_rewrites : routedScan.2.2.isOk = true ∧
    routedScan.1.scope.declares "p.a.B" = true ∧
    Rewrites "r.p.S" "p.S" ∧ Rewrites "p.S" "p.a.B" := by
  decide +kernel

/-- The class is found over its other name, and both classes that reach it stand in its
entry. -/
theorem routes_lead_to_one_key_renamed : ∃ d c,
    ("p.a.B", d) ∈ routedScan.1.scope.classes ∧
    routedScan.1.scope.Route 2 "r.p.S" "p.a.B" ∧ routedScan.1.element? "r.p.S" = some c ∧
    routedRound.Gathers routedScan.1 "p.a.B" c ∧
    routedRound.outcome.entries = [⟨"p.a.B", ["s.X", "s.Y"]⟩] := by
  obtain ⟨hok, hdeclares, hfirst, hsecond⟩ := routedScan_rewrites
  obtain ⟨d, hd⟩ := Option.isSome_iff_exists.mp hdeclares
  have hmem := Table.mem_of_lookup hd
  have hroute : routedScan.1.scope.Route 2 "r.p.S" "p.a.B" :=
    .hop (Scope.hop_iff.mpr hfirst) (.hop (Scope.hop_iff.mpr hsecond) (.here _))
  obtain ⟨⟨c, hknown, hrounds⟩, -⟩ :=
    FinishedRound.routes_lead_to_one_key rfl rfl (StaticModel.eq_of_isOk hok) hmem
  refine ⟨d, c, hmem, hroute, hknown.element 2 _ hroute (by decide), hrounds routedRound ?_, ?_⟩
  · exact .inl (by rw [routedRound_start]; exact ⟨rfl, rfl, rfl⟩)
  · decide +kernel

end ProviderRegistry
