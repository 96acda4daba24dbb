import ProviderRegistry.Proofs.Sharing

/-!
# Iterations over a loader that starts anew

A loader that starts anew forgets what it has made, but iterations under way keep their
places. What such an iteration gives is still an instance of a registered provider; but when
the loader makes one more instance and this does not reach to where the iteration stands, it
fails with an exception of its own (`next_after_requests`). That can only happen to
iterations begun before the loader started anew. The other exceptions are those of the
loader, and a few that loaders let through (`LetsThrough`).
-/

namespace ProviderRegistry.World

variable {importer : Importer} {loader : ServiceLoader} {w w' : World} {requests : List Request}

/-! ## What loaders raise -/

/-- The exceptions that a loader lets through instead of telling what is wrong in its own
words. -/
inductive LetsThrough (importer : Importer) (loader : ServiceLoader) : Raised → Prop
  /-- The contract or a provider has no name. -/
  | naming {o : Object} {w w' : World} {e : Raised} : (qualifiedNameOf o).run w = (.error e, w') →
      LetsThrough importer loader e
  /-- The system refuses to look for registry files. -/
  | searching {name : String} {w w' : World} {e : Raised} :
      (loader.resources.resources name).run w = (.error e, w') → LetsThrough importer loader e
  /-- A module, while it is imported, raises an exception that is not about names. -/
  | importing {name : String} {w w' : World} {e : Raised} :
      (resolveName importer name).run w = (.error e, w') → e.isA "ImportError" = false →
      e.isA "AttributeError" = false → e.isA "ValueError" = false →
      LetsThrough importer loader e
  /-- A constructor raises an exception that programs do not catch. -/
  | constructing {id : ClassId} {w w' : World} {e : Raised} :
      (instantiate id).run w = (.error e, w') → e.isA "Exception" = false →
      LetsThrough importer loader e

namespace ServiceLoader

/-- An exception that a loader raises in its own words or lets through. -/
def Raises (importer : Importer) (loader : ServiceLoader) (e : Raised) : Prop :=
  e.kind = "ServiceConfigurationError" ∨ LetsThrough importer loader e

section

variable (importer : Importer) (loader : ServiceLoader)

theorem raisesOnly_qualifiedNameOf (o : Object) :
    Run.RaisesOnly (loader.Raises importer) (qualifiedNameOf o) :=
  fun _ _ _ h => .inr (.naming h)

/-- What a loader tells in its own words is an exception of its kind, whatever the cause. -/
theorem raisesOnly_fault {α : Type} (text : String) (cause : Raised → Raised)
    (hcause : ∀ e, (cause e).kind = e.kind) :
    Run.RaisesOnly (loader.Raises importer)
      (loader.fault text >>= fun e => throw (cause e) : Run α) := by
  refine Run.RaisesOnly.bind_of_gives ?_ fun e w w' h => ?_
  · exact (loader.raisesOnly_qualifiedNameOf importer _).bind fun _ => .of_pure _
  · refine .of_throw (.inl ?_)
    rw [hcause]
    obtain ⟨name, w₁, -, hpure⟩ := Leaves.run_bind_eq_ok_iff.mp h
    cases hpure
    rfl

theorem raisesOnly_namesIn (names : List String) (path : Path) :
    Run.RaisesOnly (loader.Raises importer) (loader.namesIn names path) := by
  refine Run.RaisesOnly.of_world.bind fun w => ?_
  split
  · next e _ => exact loader.raisesOnly_fault importer _ (·.causedBy (.ofTextFile e)) fun _ => rfl
  · split
    · exact .of_throw (.inl rfl)
    · exact .of_pure _

theorem raisesOnly_providerNames :
    Run.RaisesOnly (loader.Raises importer) loader.providerNames := by
  refine (loader.raisesOnly_qualifiedNameOf importer _).bind fun name => ?_
  exact Run.RaisesOnly.bind (fun _ _ _ h => .inr (.searching h)) fun paths =>
    .foldlM (loader.raisesOnly_namesIn importer) _ _

theorem raisesOnly_isProvider (o : Object) :
    Run.RaisesOnly (loader.Raises importer) (loader.isProvider o) := by
  unfold isProvider
  split
  · exact Run.RaisesOnly.of_world.bind fun _ => .of_pure _
  · exact .of_pure _

theorem raisesOnly_providerClass (name : String) :
    Run.RaisesOnly (loader.Raises importer) (loader.providerClass importer name) := by
  refine Run.RaisesOnly.bind_outcome (fun o => ?_) fun w e w' h => ?_
  · refine (loader.raisesOnly_isProvider importer o).bind fun _ => ?_
    split
    · exact .of_pure _
    · exact loader.raisesOnly_fault importer _ id fun _ => rfl
  · dsimp only
    split
    · exact loader.raisesOnly_fault importer _ (·.causedBy e) fun _ => rfl
    · next hkind =>
      simp only [Bool.or_eq_true, not_or, Bool.not_eq_true] at hkind
      exact .of_throw (.inr (.importing h hkind.1.1 hkind.1.2 hkind.2))

theorem raisesOnly_makeInstance (id : ClassId) :
    Run.RaisesOnly (loader.Raises importer) (loader.makeInstance (.type id)) := by
  refine Run.RaisesOnly.bind_outcome (fun o => .of_pure _) fun w e w' h => ?_
  dsimp only
  split
  · refine (loader.raisesOnly_qualifiedNameOf importer _).bind fun name => ?_
    exact loader.raisesOnly_fault importer _ (·.causedBy e) fun _ => rfl
  · next hkind => exact .of_throw (.inr (.constructing h (by simpa using hkind)))

end

/-- Only classes are taken for providers. -/
theorem type_of_run_isProvider {o : Object} (h : (loader.isProvider o).run w = (.ok true, w')) :
    ∃ id, o = .type id := by
  unfold isProvider at h
  split at h
  · next id _ _ => exact ⟨id, rfl⟩
  · cases h

theorem type_of_run_providerClass {name : String} {o : Object}
    (h : (loader.providerClass importer name).run w = (.ok o, w')) : ∃ id, o = .type id := by
  obtain ⟨result, w₁, -, h⟩ := Leaves.run_bind_eq_ok_iff.mp h
  cases result with
  | error e =>
    -- Whatever the exception is turned into, nothing is found.
    dsimp only at h
    split at h
    · exact absurd h Leaves.run_bind_throw_ne_ok
    · cases h
  | ok found =>
    obtain ⟨isProvider, w₂, hprovider, h⟩ := Leaves.run_bind_eq_ok_iff.mp h
    cases isProvider with
    | true =>
      cases h
      exact type_of_run_isProvider hprovider
    | false => exact absurd h Leaves.run_bind_throw_ne_ok

end ServiceLoader

theorem Advances.raises {loader' : ServiceLoader} {e : Raised}
    (h : Advances importer loader w (.error e) loader' w') : loader.Raises importer e := by
  cases h with
  | unreadable _ hread => exact loader.raisesOnly_providerNames importer hread
  | lost _ hclass => exact loader.raisesOnly_providerClass importer _ hclass
  | refused _ hclass hmade =>
    obtain ⟨id, rfl⟩ := ServiceLoader.type_of_run_providerClass hclass
    exact loader.raisesOnly_makeInstance importer id hmade

/-! ## What loaders keep -/

/-- Whether an object is an instance of a registered provider: of one whose name stands in
the registry files in some world. -/
def ServiceLoader.IsProvided (importer : Importer) (loader : ServiceLoader) (o : Object) : Prop :=
  ∃ w names name, (loader.providerNames.run w).1 = .ok names ∧ name ∈ names ∧
    loader.Provides importer name o

namespace Progress

variable {loader' : ServiceLoader} {raised : List Raised} {w₀ : World}
  (h : Progress importer loader w₀ raised loader' w)

include h

/-- What a loader has made are instances of registered providers. -/
theorem isProvided : ∀ o ∈ loader'.instances, loader.IsProvided importer o := by
  cases h with
  | unread => exact List.forall_mem_nil _
  | unreadable _ => exact List.forall_mem_nil _
  | @reading names left tried w₁ _ hread htried =>
    intro o ho
    rw [ServiceLoader.instances_having, ← map_snd_madeOf] at ho
    obtain ⟨m, hm, rfl⟩ := List.mem_map.mp ho
    refine ⟨w₀, names, m.1, by rw [hread], ?_, htried.provides_of_mem_madeOf m hm⟩
    exact htried.sublist.subset (List.mem_append_left _
      ((map_fst_madeOf_sublist tried).subset (List.mem_map_of_mem hm)))

/-- Only what it has made and the names left change about a loader. -/
theorem eq_having : ∃ made left, loader' = loader.having made left := by
  cases h with
  | unread => exact ⟨_, _, rfl⟩
  | unreadable _ => exact ⟨_, _, rfl⟩
  | reading _ _ => exact ⟨_, _, rfl⟩

theorem unread_eq : loader'.unread = loader.unread := by
  obtain ⟨made, left, rfl⟩ := h.eq_having
  rfl

theorem raises {e : Raised} (he : loader'.Raises importer e) : loader.Raises importer e := by
  obtain ⟨made, left, rfl⟩ := h.eq_having
  refine he.imp_right fun hlets => ?_
  cases hlets with
  | naming hname => exact .naming hname
  | searching hsearch => exact .searching hsearch
  | importing hresolve himport hattribute hvalue =>
    exact .importing hresolve himport hattribute hvalue
  | constructing hmade hkind => exact .constructing hmade hkind

end Progress

/-- Whatever an iteration does, wherever it stands, gets its loader further or leaves it
where it is. -/
theorem Moves.exists_progress {c c' : Cursor} {fresh loader' : ServiceLoader}
    {answer : Except Raised (Option Object)} {raised : List Raised} {w₀ : World}
    (h : Moves importer c loader w answer c' loader' w')
    (hprogress : Progress importer fresh w₀ raised loader w) :
    ∃ raised', Progress importer fresh w₀ raised' loader' w' := by
  cases h with
  | finished _ => exact ⟨_, hprogress⟩
  | kept _ _ => exact ⟨_, hprogress⟩
  | raised _ _ hstep => exact ⟨_, hprogress.advance hstep⟩
  | ended _ _ hstep => exact ⟨_, hprogress.advance hstep⟩
  | made _ _ hstep _ => exact ⟨_, hprogress.advance hstep⟩
  | misplaced _ _ hstep => exact ⟨_, hprogress.advance hstep⟩

/-- A loader and the iterations over it, whether or not the loader has started anew. -/
structure Sound (importer : Importer) (loader : ServiceLoader) (u : Usage) : Prop where
  progress : ∃ w raised, Progress importer loader w raised u.loader u.world
  /-- An iteration begun since the loader started stands at one of its instances, or after
  the last. -/
  position_le : ∀ i, u.isCurrent i = true → (u.cursors i).position ≤ u.loader.instances.length

/-- **One request leaves a loader and its iterations sound**, also the request to start
anew. -/
theorem Sound.ask {u : Usage} (h : Sound importer loader u) (request : Request) :
    Sound importer loader (u.ask importer request) := by
  obtain ⟨w, raised, hprogress⟩ := h.progress
  cases request with
  | begin i =>
    refine ⟨h.progress, fun j hj => ?_⟩
    by_cases hji : j = i
    · subst hji
      simp [Usage.ask]
    · simp only [Usage.ask, Function.update_of_ne hji] at hj ⊢
      exact h.position_le j hj
  | next i =>
    obtain ⟨answer, c', loader', w', hmove, hrun⟩ :=
      Cursor.moves importer (u.cursors i) u.loader u.world
    rw [Usage.ask_next hrun]
    refine ⟨⟨w, hmove.exists_progress hprogress⟩, fun j hj => ?_⟩
    by_cases hji : j = i
    · subst hji
      simpa using hmove.position_le (h.position_le j hj)
    · simpa [hji] using Nat.le_trans (h.position_le j hj) hmove.isPrefix.length_le
  | first =>
    obtain ⟨answer, c', loader', w', hmove, hrun⟩ := Cursor.moves importer {} u.loader u.world
    rw [Usage.ask_first hrun]
    exact ⟨⟨w, hmove.exists_progress hprogress⟩,
      fun j hj => Nat.le_trans (h.position_le j hj) hmove.isPrefix.length_le⟩
  | reload =>
    refine ⟨⟨u.world, [], ?_⟩, fun j hj => absurd hj Bool.false_ne_true⟩
    change Progress importer loader u.world [] u.loader.unread u.world
    rw [hprogress.unread_eq]
    exact .unread

theorem Sound.asks {u : Usage} (h : Sound importer loader u) (requests : List Request) :
    Sound importer loader (requests.foldl (Usage.ask importer) u) := by
  induction requests generalizing u with
  | nil => exact h
  | cons request rest ih => exact ih (h.ask request)

theorem sound_after (importer : Importer) (loader : ServiceLoader) (w : World)
    (requests : List Request) : Sound importer loader (Usage.after importer loader w requests) :=
  Sound.asks ⟨⟨w, [], .unread⟩, fun _ _ => Nat.zero_le _⟩ requests

/-! ## What iterations give -/

/-- Whether one more instance, which the loader makes, does not reach to where an iteration
stands. -/
structure Usage.IsMisplaced (importer : Importer) (u : Usage) (i : Nat) : Prop where
  isOver : (u.cursors i).isOver = false
  position_gt : u.loader.instances.length < (u.cursors i).position
  makes : ((Loading.advance importer).run u.loader u.world).1.1 = .ok true

theorem Sound.isCurrent_of_isMisplaced {u : Usage} {i : Nat} (h : Sound importer loader u)
    (hi : u.IsMisplaced importer i) : u.isCurrent i = false := by
  refine Bool.eq_false_iff.mpr fun hcurrent => ?_
  exact absurd (h.position_le i hcurrent) (Nat.not_le.mpr hi.position_gt)

/-- An iteration that stands where one more instance does not reach fails. -/
theorem Usage.IsMisplaced.answer_eq {u : Usage} {i : Nat} (h : u.IsMisplaced importer i) :
    u.answer importer i = .error Cursor.noInstance := by
  obtain ⟨result, loader', w', hstep⟩ := exists_advances importer u.loader u.world
  obtain rfl : result = .ok true := by
    rw [← h.makes, hstep.run_eq]
  obtain ⟨o, ho⟩ := hstep.instances_of_true
  have hge : loader'.instances.length ≤ (u.cursors i).position := by
    rw [ho, List.length_append, List.length_singleton]
    exact h.position_gt
  rw [answer, Cursor.next_of_ge h.isOver (Nat.le_of_lt h.position_gt), hstep.run_eq]
  dsimp only
  rw [Cursor.give_of_ge hge]

/-- **What an iteration gives** whatever was asked before, also if the loader has started
anew: nothing, an instance of a registered provider, or an exception. Unless the loader
raised the exception or let it through, the iteration began before the loader started anew,
and stands where one more instance does not reach; then it always fails. -/
theorem next_after_requests (importer : Importer) (loader : ServiceLoader) (w : World)
    (requests : List Request) (i : Nat) :
    let u := Usage.after importer loader w requests
    (∀ o, u.answer importer i = .ok (some o) → loader.IsProvided importer o) ∧
      (∀ e, u.answer importer i = .error e → loader.Raises importer e ∨
        e = Cursor.noInstance ∧ u.isCurrent i = false ∧ u.IsMisplaced importer i) ∧
      (u.IsMisplaced importer i → u.answer importer i = .error Cursor.noInstance) := by
  intro u
  have hsound : Sound importer loader u := sound_after importer loader w requests
  obtain ⟨w₀, raised, hprogress⟩ := hsound.progress
  obtain ⟨answer, c', loader', w', hmove, hrun⟩ :=
    Cursor.moves importer (u.cursors i) u.loader u.world
  have hanswer : u.answer importer i = answer := by rw [Usage.answer, hrun]
  rw [hanswer]
  refine ⟨fun o ho => ?_, fun e he => ?_, fun hi => hanswer ▸ hi.answer_eq⟩
  · subst ho
    obtain ⟨raised', hprogress'⟩ := hmove.exists_progress hprogress
    cases hmove with
    | kept _ hsome => exact hprogress.isProvided o (List.mem_of_getElem? hsome)
    | made _ _ _ hmade => exact hprogress'.isProvided o (by simp [hmade])
  · subst he
    cases hmove with
    | raised _ _ hstep => exact .inl (hprogress.raises hstep.raises)
    | misplaced hopen hgt hstep =>
      have hi : u.IsMisplaced importer i := ⟨hopen, hgt, by rw [hstep.run_eq]⟩
      exact .inr ⟨rfl, hsound.isCurrent_of_isMisplaced hi, hi⟩

/-- An iteration has given the only provider when the loader starts anew. -/
def overtaken : Usage :=
  Usage.after importModule sampleLoader (sampleWorld "m:I\n") [.next 0, .reload]

theorem isMisplaced_overtaken : overtaken.IsMisplaced importModule 0 where
  isOver := by decide +kernel
  position_gt := by decide +kernel
  makes := eq_ok_of_toOption (by decide +kernel)

/-- Iterations over a loader that started anew raise other exceptions than those of the
loader. -/
theorem misplaced_after_reload :
    ¬ ∀ (loader : ServiceLoader) (w : World) (requests : List Request) (i : Nat) (e : Raised),
      (Usage.after importModule loader w requests).answer importModule i = .error e →
      e.kind = "ServiceConfigurationError" := by
  intro h
  exact absurd (h _ _ _ _ _ isMisplaced_overtaken.answer_eq) (by decide)

end ProviderRegistry.World
