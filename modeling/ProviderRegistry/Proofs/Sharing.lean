import ProviderRegistry.Proofs.Iterations

/-!
# What iterations over one loader give

All iterations over a loader give the same objects, as far as each has come, and the loader
makes no more than the one that has come furthest asks for. If all providers can be made,
these are the instances that making them in turn would give (`iterations_share`). If some
cannot, an iteration that ends may have left providers out, and it has done so just when
some request, its own or another, has raised an exception (`complete_iff_nothing_raised`):
the exception is not raised again.
-/

namespace ProviderRegistry.World

variable {importer : Importer} {loader : ServiceLoader} {w w' : World} {requests : List Request}

/-! ## A small world -/

/-- A class of a module; the first one made is the contract of the others. -/
def sampleClass (id : ClassId) (name : String) (construction : Option Construction := none) :
    LiveClass where
  name
  qualname := name
  module := "m"
  bases := if id = 0 then [] else [0]
  order := if id = 0 then [0] else [id, 0]
  metaclass := .plain
  layout := "object"
  construction

/-- A world with a contract, two providers of it and one that cannot be made, and with a
registry file. -/
def sampleWorld (registry : String) : World where
  files := ⟨[], [(["o"], .directory), (["o", "s"], .directory),
    (["o", "s", "m.C"], .file (Text.utf8Bytes registry.toList))]⟩
  modules := [("m", { name := "m", names := [("C", .type 0), ("I", .type 1), ("J", .type 2),
    ("X", .type 3)] })]
  classes := #[sampleClass 0 "C", sampleClass 1 "I", sampleClass 2 "J",
    sampleClass 3 "X" (some (.raises "ValueError"))]

/-- A loader of the contract. -/
def sampleLoader : ServiceLoader where
  service := .type 0
  resources := { roots := some [⟨.none, ["o"]⟩] }
  servicesDir := "s"

/-! ## One sequence -/

/-- A loader whose providers can all be made has made the first of them, and is where making
these leads to. -/
theorem Progress.of_run_mapM {names : List String} {objects : List Object}
    {raised : List Raised} {loader' : ServiceLoader} {w₁ : World}
    (h : Progress importer loader w raised loader' w₁)
    (hnames : (loader.providerNames.run w).1 = .ok names)
    (hall : (names.mapM (loader.provide importer)).run w = (.ok objects, w')) :
    raised = [] ∧ loader'.instances <+: objects ∧
      ((names.take loader'.instances.length).mapM (loader.provide importer)).run w =
        (.ok loader'.instances, w₁) ∧
      (loader'.pending = some [] → loader'.instances = objects) := by
  cases h with
  | unread => exact ⟨rfl, List.nil_prefix, rfl, nofun⟩
  | unreadable hread => simp [hread] at hnames
  | @reading _ left tried w₀ _ hread htried =>
    obtain rfl : w₀ = w := by
      simpa [hread] using loader.run_providerNames_snd w
    obtain rfl : _ = names := by
      simpa [hread] using hnames
    obtain ⟨hnone, hmade⟩ := htried.of_run_mapM hall
    have hsplit := htried.eq_of_exceptionsOf_eq_nil hnone
    have hlength := (ServiceLoader.provides_of_run_mapM hmade).length_eq
    rw [← hsplit] at hall
    obtain ⟨first, w₂, more, hfirst, hmore, rfl⟩ := of_run_mapM_append hall
    rw [hmade] at hfirst
    cases hfirst
    refine ⟨hnone, List.prefix_append _ _, ?_, fun hpending => ?_⟩
    · rw [ServiceLoader.instances_having, ← hsplit, ← hlength, List.take_left]
      exact hmade
    · obtain rfl : left = [] := Option.some.inj hpending
      cases hmore
      exact (List.append_nil _).symm

/-- **Iterations share one sequence.** If the providers of the names that a loader reads can
all be made in turn, then no request raises, whatever is asked of any number of iterations
and in whatever order; all iterations give the same objects, one that has ended all of them,
and so do requests for the first instance; each object is an instance of the provider of the
name at its place. As many providers have been made as the furthest iteration has given, and
the world is what making these, in order and each once, leads to. -/
theorem iterations_share {names : List String} {objects : List Object}
    (hnames : (loader.providerNames.run w).1 = .ok names)
    (hall : ((names.mapM (loader.provide importer)).run w).1 = .ok objects)
    (hrequests : .reload ∉ requests) :
    let u := Usage.after importer loader w requests
    names.Nodup ∧ List.Forall₂ (loader.Provides importer) names objects ∧ u.raised = [] ∧
      (∀ i, u.given i = objects.take (u.cursors i).position ∧
        (u.cursors i).position ≤ u.furthest ∧
        ((u.cursors i).isOver = true → u.given i = objects)) ∧
      (∀ o ∈ u.firsts, objects.head? = some o) ∧
      u.loader.instances.length = u.furthest ∧
      ((names.take u.furthest).mapM (loader.provide importer)).run w =
        (.ok (objects.take u.furthest), u.world) := by
  intro u
  have hstep : InStep importer loader w u := inStep_after importer loader w hrequests
  rcases hrun : (names.mapM (loader.provide importer)).run w with ⟨result, w'⟩
  rw [hrun] at hall
  obtain rfl : result = .ok objects := hall
  obtain ⟨hraised, hprefix, hmade, hend⟩ := hstep.progress.of_run_mapM hnames hrun
  have htake := List.prefix_iff_eq_take.mp hprefix
  rw [← hstep.furthest] at hmade htake
  refine ⟨?_, ServiceLoader.provides_of_run_mapM hrun, hraised, fun i => ?_, fun o ho => ?_,
    hstep.furthest.symm, htake ▸ hmade⟩
  · exact ServiceLoader.nodup_of_run_providerNames (Prod.ext hnames rfl)
  · have hfollows := hstep.follows i
    have hle : (u.cursors i).position ≤ u.furthest := hstep.furthest ▸ hfollows.position_le
    refine ⟨?_, hle, fun hover => ?_⟩
    · rw [hfollows.given_eq, htake, List.take_take, Nat.min_eq_left hle]
    · obtain ⟨hpending, heq⟩ := hfollows.complete hover hraised
      rw [hfollows.given_eq, heq, List.take_length, hend hpending]
  · exact head?_of_isPrefix hprefix (hstep.firsts o ho)

theorem eq_ok_of_toOption {α : Type} {result : Except Raised α} {a : α}
    (h : result.toOption = some a) : result = .ok a := by
  cases result with
  | error e => cases h
  | ok b => exact congrArg _ (Option.some.inj h)

/-- A request for the first instance comes between two iterations, of which the second
overtakes the first and ends before it. -/
def overtaking : List Request := [.begin 0, .next 0, .first, .next 1, .next 1, .next 1, .next 0]

theorem iterations_share_overtaking :
    let w := sampleWorld "m:I\nm:J\n"
    let u := Usage.after importModule sampleLoader w overtaking
    (sampleLoader.providerNames.run w).1 = .ok ["m:I", "m:J"] ∧ .reload ∉ overtaking ∧
      u.given 0 = u.given 1 ∧ u.loader.instances.length = u.furthest := by
  have hnames : (sampleLoader.providerNames.run (sampleWorld "m:I\nm:J\n")).1 =
      .ok ["m:I", "m:J"] := eq_ok_of_toOption (by decide +kernel)
  have hall : ((["m:I", "m:J"].mapM (sampleLoader.provide importModule)).run
      (sampleWorld "m:I\nm:J\n")).1 = .ok [.instanceOf 1 0, .instanceOf 2 1] :=
    eq_ok_of_toOption (by decide +kernel)
  have hrequests : .reload ∉ overtaking := by decide
  have hposition :
      ((Usage.after importModule sampleLoader (sampleWorld "m:I\nm:J\n") overtaking).cursors
        0).position =
      ((Usage.after importModule sampleLoader (sampleWorld "m:I\nm:J\n") overtaking).cursors
        1).position := by decide +kernel
  have h := iterations_share hnames hall hrequests
  exact ⟨hnames, hrequests, by rw [(h.2.2.2.1 0).1, (h.2.2.2.1 1).1, hposition],
    h.2.2.2.2.2.1⟩

/-! ## What an iteration leaves out -/

/-- What a loader has made when no names are left. -/
theorem Progress.of_exhausted {raised : List Raised} {loader' loader'' : ServiceLoader} {w₁ : World}
    (h : Progress importer loader w raised loader' w₁)
    (hend : Advances importer loader' w₁ (.ok false) loader'' w') :
    ∃ made : List (String × Object), loader'.instances = made.map (·.2) ∧
      (∀ m ∈ made, loader.Provides importer m.1 m.2) ∧
      (∀ names, (loader.providerNames.run w).1 = .ok names →
        (made.map (·.1)).Sublist names) ∧
      ((loader.providerNames.run w).1 = .ok (made.map (·.1)) ↔ raised = []) := by
  cases hend with
  | exhausted hfaces =>
    cases h with
    | unread =>
      refine ⟨[], rfl, List.forall_mem_nil _, fun _ _ => List.nil_sublist _, ?_⟩
      simp [hfaces.run_providerNames]
    | unreadable hread =>
      refine ⟨[], rfl, List.forall_mem_nil _, fun _ _ => List.nil_sublist _, ?_⟩
      simp [hread]
    | @reading names left tried w₂ _ hread htried =>
      refine ⟨madeOf tried, (map_snd_madeOf tried).symm, htried.provides_of_mem_madeOf, ?_, ?_⟩
      · rintro _ hnames
        obtain rfl : names = _ := by simpa [hread] using hnames
        exact (map_fst_madeOf_sublist tried).trans
          ((List.sublist_append_left _ _).trans htried.sublist)
      · rw [hread, ← htried.map_fst_madeOf_eq_iff hfaces.eq_left.1, Except.ok.injEq, eq_comm]

/-- **An iteration that ends has given every provider just when no exception was raised**
since the loader had read nothing, by this iteration or any other request. Whatever was
raised, it has given instances of providers in the order of their names; those that are
missing are not spoken of again. -/
theorem complete_iff_nothing_raised (hrequests : .reload ∉ requests) {i : Nat}
    (hopen : ((Usage.after importer loader w requests).cursors i).isOver = false)
    (hend : (Usage.after importer loader w requests).answer importer i = .ok none) :
    let u := Usage.after importer loader w requests
    ∃ made : List (String × Object), u.given i = made.map (·.2) ∧
      (∀ m ∈ made, loader.Provides importer m.1 m.2) ∧
      (∀ names, (loader.providerNames.run w).1 = .ok names →
        (made.map (·.1)).Sublist names) ∧
      ((loader.providerNames.run w).1 = .ok (made.map (·.1)) ↔ u.raised = []) := by
  intro u
  have hstep : InStep importer loader w u := inStep_after importer loader w hrequests
  obtain ⟨answer, c', loader', w₁, hmove, hrun⟩ :=
    Cursor.moves importer (u.cursors i) u.loader u.world
  obtain rfl : answer = .ok none := by
    rw [← hend]
    exact congrArg (·.1.1.1) hrun.symm
  cases hmove with
  | finished hover => simp [u, hopen] at hover
  | ended _ hge hadvance =>
    have hall : u.given i = u.loader.instances := by
      rw [(hstep.follows i).given_eq, List.take_of_length_le hge]
    rw [hall]
    exact hstep.progress.of_exhausted hadvance

/-- The provider of the first name raises; the second iteration comes after that. -/
def retrying : Usage :=
  Usage.after importModule sampleLoader (sampleWorld "m:X\nm:I\n") [.next 0, .next 1]

theorem providerNames_retrying :
    (sampleLoader.providerNames.run (sampleWorld "m:X\nm:I\n")).1 = .ok ["m:X", "m:I"] :=
  eq_ok_of_toOption (by decide +kernel)

theorem over_retrying : (retrying.cursors 1).isOver = false ∧
    (retrying.answer importModule 1).toOption = some none ∧ retrying.raised ≠ [] ∧
    retrying.given 1 = [.instanceOf 1 0] := by
  decide +kernel

theorem complete_iff_nothing_raised_retrying :
    retrying.raised ≠ [] ∧ ∃ made : List (String × Object), retrying.given 1 = made.map (·.2) ∧
      made.map (·.1) ≠ ["m:X", "m:I"] := by
  obtain ⟨hopen, hend, hraised, -⟩ := over_retrying
  obtain ⟨made, hgiven, -, -, hiff⟩ := complete_iff_nothing_raised
    (by decide : Request.reload ∉ [.next 0, .next 1]) hopen (eq_ok_of_toOption hend)
  exact ⟨hraised, made, hgiven,
    fun hall => hraised (hiff.mp (hall ▸ providerNames_retrying))⟩

/-- An iteration may end, after an exception, without having given every provider. -/
theorem ended_without_all :
    ¬ ∀ (loader : ServiceLoader) (w : World) (requests : List Request) (i : Nat),
      .reload ∉ requests →
      ((Usage.after importModule loader w requests).cursors i).isOver = false →
      (Usage.after importModule loader w requests).answer importModule i = .ok none →
      ∃ names, (loader.providerNames.run w).1 = .ok names ∧
        ((Usage.after importModule loader w requests).given i).length = names.length := by
  intro h
  obtain ⟨hopen, hend, -, hgiven⟩ := over_retrying
  obtain ⟨names, hnames, hlength⟩ := h sampleLoader (sampleWorld "m:X\nm:I\n")
    [.next 0, .next 1] 1 (by decide) hopen (eq_ok_of_toOption hend)
  obtain rfl : ["m:X", "m:I"] = names := by
    simpa [providerNames_retrying] using hnames
  exact absurd ((congrArg List.length hgiven).symm.trans hlength) (by decide)

end ProviderRegistry.World
