import Promptry.Proofs.Engine.Supply

/-!
The search for partials as a relation, without the bound on how many can still be supplied, and what
a search settles. A name is settled when its partial is registered, or cannot be supplied and the
engine puts up with that. Main statements: `search_walk`, `Walk.settles`, that a search that
succeeds settles all names that can be reached, `Walk.hasPartial`, that it registers no others,
`Walk.holds`, that it registers the sources that are supplied, and `Walk.before_missing`, what is
registered when it fails at a name.
-/

namespace Promptry.Engine

open Template.References (ofTemplate)

variable {e e₁ e' : Engine} {visited queue asked : List String} {name source : String}
  {result : Except PromptError Unit}

/-! ### Steps of a search -/

/-- Names that are registered are passed over. -/
theorem search_registered {left : Nat} {before : List String} {calls : List Call}
    (registered : ∀ name ∈ before, e.hasPartial name = true) :
    search left visited (before ++ queue) e calls = search left visited queue e calls := by
  induction before with
  | nil => rfl
  | cons name before ih =>
    obtain ⟨first, rest⟩ := List.forall_mem_cons.mp registered
    rw [List.cons_append, search, if_pos (by rw [first, Bool.or_true]), ih rest]

/-- A strict engine refuses a name that is missing. -/
theorem search_missing {left : Nat} {calls : List Call} (new : name ∉ visited)
    (unregistered : e.hasPartial name = false) (missing : e.partialSource? name = none)
    (strict : e.strict = true) :
    (search left visited (name :: queue) e calls).result = .error (.partialMissing name) := by
  rw [search, if_neg (by simp [new, unregistered])]
  simp only [missing, strict, if_true]

/-- The references of a partial that is loaded come last. -/
theorem search_loaded {left : Nat} {calls : List Call} (new : name ∉ visited)
    (unregistered : e.hasPartial name = false) (supplied : e.partialSource? name = some source)
    (defined : e.definePartial name source = .ok e₁) :
    search (left + 1) visited (name :: queue) e calls =
      search left (name :: visited) (queue ++ ofTemplate source) e₁
        (calls ++ e.partialCalls name) := by
  rw [search, if_neg (by simp [new, unregistered])]
  simp only [supplied, defined]

/-! ### Searches -/

/-- The engine `e'` is behind a search of the engine `e` for the names of a queue and those that
they lead to; `visited` were looked for before, and `asked` are looked for, in order. -/
inductive Walk : Engine → List String → List String → List String → Except PromptError Unit →
    Engine → Prop where
  | done {e : Engine} {visited : List String} : Walk e visited [] [] (.ok ()) e
  | known {e e' : Engine} {visited queue asked : List String} {name : String}
      {result : Except PromptError Unit} (known : name ∈ visited ∨ e.hasPartial name = true)
      (rest : Walk e visited queue asked result e') :
      Walk e visited (name :: queue) asked result e'
  | refused {e : Engine} {visited queue : List String} {name : String} (new : name ∉ visited)
      (unregistered : e.hasPartial name = false) (missing : e.partialSource? name = none)
      (strict : e.strict = true) :
      Walk e visited (name :: queue) [name] (.error (.partialMissing name)) e
  | passed {e e' : Engine} {visited queue asked : List String} {name : String}
      {result : Except PromptError Unit} (new : name ∉ visited)
      (unregistered : e.hasPartial name = false) (missing : e.partialSource? name = none)
      (lenient : e.strict = false) (rest : Walk e (name :: visited) queue asked result e') :
      Walk e visited (name :: queue) (name :: asked) result e'
  | broken {e : Engine} {visited queue : List String} {name source : String} {err : PromptError}
      (new : name ∉ visited) (unregistered : e.hasPartial name = false)
      (supplied : e.partialSource? name = some source)
      (failed : e.definePartial name source = .error err) :
      Walk e visited (name :: queue) [name] (.error err) e
  | loaded {e e₁ e' : Engine} {visited queue asked : List String} {name source : String}
      {result : Except PromptError Unit} (new : name ∉ visited)
      (unregistered : e.hasPartial name = false) (supplied : e.partialSource? name = some source)
      (defined : e.definePartial name source = .ok e₁)
      (rest : Walk e₁ (name :: visited) (queue ++ ofTemplate source) asked result e') :
      Walk e visited (name :: queue) (name :: asked) result e'

/-- No more than `left` partials that are not registered can be supplied. -/
def SuppliesAtMost (e : Engine) (left : Nat) : Prop :=
  ∀ names : List String, names.Nodup →
    (∀ name ∈ names, e.hasPartial name = false ∧ (e.partialSource? name).isSome) →
      names.length ≤ left

theorem suppliesAtMost_supplyBound (e : Engine) : e.SuppliesAtMost e.supplyBound :=
  fun _ nodup supplied => length_le_supplyBound nodup fun name mem => (supplied name mem).2

/-- One that is registered leaves one less to be supplied, so the bound is never used up. -/
theorem SuppliesAtMost.less {left : Nat} (bound : e.SuppliesAtMost left)
    (unregistered : e.hasPartial name = false) (supplied : (e.partialSource? name).isSome)
    (same : SameSources e e₁) (registered : e₁.hasPartial name = true)
    (keeps : ∀ other, e.hasPartial other = true → e₁.hasPartial other = true) :
    ∃ less, left = less + 1 ∧ e₁.SuppliesAtMost less := by
  -- The name that is registered now could have been supplied beside those that still can.
  have more : ∀ names : List String, names.Nodup →
      (∀ other ∈ names, e₁.hasPartial other = false ∧ (e₁.partialSource? other).isSome) →
        names.length + 1 ≤ left := by
    intro names nodup free
    have fresh : name ∉ names := fun mem =>
      absurd registered (Bool.eq_false_iff.mp (free name mem).1)
    refine bound (name :: names) (List.nodup_cons.mpr ⟨fresh, nodup⟩)
      (List.forall_mem_cons.mpr ⟨⟨unregistered, supplied⟩, fun other mem => ?_⟩)
    obtain ⟨still, source⟩ := free other mem
    rw [same.partialSource?] at source
    exact ⟨Bool.eq_false_iff.mpr fun old => absurd (keeps other old) (Bool.eq_false_iff.mp still),
      source⟩
  cases left with
  | zero => exact absurd (more [] List.nodup_nil (by simp)) (by simp)
  | succ less =>
    exact ⟨less, rfl, fun names nodup free => Nat.le_of_succ_le_succ (more names nodup free)⟩

theorem SuppliesAtMost.loaded {left : Nat} (bound : e.SuppliesAtMost left)
    (unregistered : e.hasPartial name = false) (supplied : e.partialSource? name = some source)
    (defined : e.definePartial name source = .ok e₁) :
    ∃ less, left = less + 1 ∧ e₁.SuppliesAtMost less := by
  have registered := hasPartial_of_definePartial defined
  exact bound.less unregistered (by rw [supplied]; rfl) (sameSources_of_definePartial defined)
    ((registered name).mpr (.inl rfl)) fun other old => (registered other).mpr (.inr old)

/-- The search is the walk, as long as its bound is one. -/
theorem search_walk {left : Nat} (bound : e.SuppliesAtMost left) (visited queue : List String)
    (calls : List Call) :
    ∃ asked, Walk e visited queue asked (search left visited queue e calls).result
        (search left visited queue e calls).engine ∧
      (search left visited queue e calls).calls = calls ++ asked.flatMap e.partialCalls := by
  fun_induction search left visited queue e calls with
  | case1 => exact ⟨[], .done, by simp⟩
  | case2 left visited e calls name queue known ih =>
    obtain ⟨asked, walk, asks⟩ := ih bound
    exact ⟨asked, .known (by simpa using known) walk, asks⟩
  | case3 left visited e calls name queue new calls' missing strict =>
    simp only [Bool.or_eq_true, List.contains_iff_mem, not_or, Bool.not_eq_true] at new
    exact ⟨[name], .refused new.1 new.2 missing strict, by simp [calls']⟩
  | case4 left visited e calls name queue new calls' missing lenient ih =>
    simp only [Bool.or_eq_true, List.contains_iff_mem, not_or, Bool.not_eq_true] at new
    obtain ⟨asked, walk, asks⟩ := ih bound
    exact ⟨name :: asked, .passed new.1 new.2 missing (by simpa using lenient) walk,
      by rw [asks, List.flatMap_cons, List.append_assoc]⟩
  | case5 left visited e calls name queue new calls' source supplied err failed =>
    simp only [Bool.or_eq_true, List.contains_iff_mem, not_or, Bool.not_eq_true] at new
    exact ⟨[name], .broken new.1 new.2 supplied failed, by simp [calls']⟩
  | case6 visited e calls name queue new calls' source supplied e₁ defined =>
    simp only [Bool.or_eq_true, List.contains_iff_mem, not_or, Bool.not_eq_true] at new
    obtain ⟨less, impossible, -⟩ := bound.loaded new.2 supplied defined
    cases impossible
  | case7 visited e calls name queue new calls' source supplied e₁ defined left ih =>
    simp only [Bool.or_eq_true, List.contains_iff_mem, not_or, Bool.not_eq_true] at new
    obtain ⟨less, succ, bound⟩ := bound.loaded new.2 supplied defined
    cases succ
    obtain ⟨asked, walk, asks⟩ := ih bound
    refine ⟨name :: asked, .loaded new.1 new.2 supplied defined walk, ?_⟩
    rw [asks, (sameSources_of_definePartial defined).partialCalls, List.flatMap_cons,
      List.append_assoc]

/-- Resolving the partials of a template is a walk from its references. -/
theorem resolvePartials_walk (e : Engine) (template : String) :
    ∃ asked, Walk e [] (ofTemplate template) asked (e.resolvePartials template).result
        (e.resolvePartials template).engine ∧
      (e.resolvePartials template).calls = asked.flatMap e.partialCalls := by
  simpa [resolvePartials] using
    search_walk (suppliesAtMost_supplyBound e) [] (ofTemplate template) []

/-! ### What a search keeps -/

namespace Walk

theorem differInPartials (walk : Walk e visited queue asked result e') :
    DifferInPartials e e' := by
  induction walk with
  | done => exact .refl _
  | known _ _ ih => exact ih
  | refused => exact .refl _
  | passed _ _ _ _ _ ih => exact ih
  | broken => exact .refl _
  | loaded _ _ _ defined _ ih => exact (differInPartials_of_definePartial defined).trans ih

theorem sameSources (walk : Walk e visited queue asked result e') : SameSources e e' :=
  walk.differInPartials.sameSources

/-- What is registered stays so. -/
theorem keeps (walk : Walk e visited queue asked result e') {other : String}
    (registered : e.hasPartial other = true) : e'.hasPartial other = true := by
  induction walk with
  | done => exact registered
  | known _ _ ih => exact ih registered
  | refused => exact registered
  | passed _ _ _ _ _ ih => exact ih registered
  | broken => exact registered
  | loaded _ _ _ defined _ ih =>
    exact ih ((hasPartial_of_definePartial defined other).mpr (.inr registered))

end Walk

/-! ### Names that can be reached -/

/-- The names that some names lead to through the references of partials that are not registered
but can be supplied. -/
inductive Reach (e : Engine) (start : List String) : String → Prop where
  | start {name : String} (mem : name ∈ start) : Reach e start name
  | through {name source other : String} (via : Reach e start name)
      (unregistered : e.hasPartial name = false) (supplied : e.partialSource? name = some source)
      (refers : other ∈ ofTemplate source) : Reach e start other

/-- A name that needs no more to be done: its partial is registered, or nobody can supply it and the
engine puts up with that. -/
def Settled (e : Engine) (name : String) : Prop :=
  e.hasPartial name = true ∨ e.strict = false ∧ e.partialSource? name = none

theorem Settled.mono (settled : e.Settled name) (same : SameSources e e')
    (keeps : e.hasPartial name = true → e'.hasPartial name = true) : e'.Settled name := by
  rcases settled with registered | ⟨lenient, missing⟩
  · exact .inl (keeps registered)
  · exact .inr ⟨same.strict.trans lenient, by rw [same.partialSource?, missing]⟩

namespace Reach

theorem not_of_nil {n : String} : ¬ Reach e [] n := by
  intro reach
  induction reach with
  | start mem => cases mem
  | through _ _ _ _ ih => exact ih

/-- A settled name leads nowhere. -/
theorem of_settled {n : String} (reach : Reach e (name :: queue) n) (settled : e.Settled name) :
    n = name ∨ Reach e queue n := by
  induction reach with
  | start mem =>
    rcases List.mem_cons.mp mem with same | mem
    · exact .inl same
    · exact .inr (.start mem)
  | through via unregistered supplied refers ih =>
    rcases ih with rfl | reach
    · rcases settled with registered | ⟨-, missing⟩
      · rw [registered] at unregistered; cases unregistered
      · rw [missing] at supplied; cases supplied
    · exact .inr (.through reach unregistered supplied refers)

/-- Once a partial is registered, its references stand in for it. -/
theorem of_loaded {n : String} (reach : Reach e (name :: queue) n)
    (supplied : e.partialSource? name = some source)
    (defined : e.definePartial name source = .ok e₁) :
    n = name ∨ Reach e₁ (queue ++ ofTemplate source) n := by
  have same := (sameSources_of_definePartial defined).partialSource?
  induction reach with
  | start mem =>
    rcases List.mem_cons.mp mem with same | mem
    · exact .inl same
    · exact .inr (.start (List.mem_append_left _ mem))
  | @through via other n reach unregistered here refers ih =>
    by_cases new : via = name
    · subst new
      rw [supplied] at here
      cases here
      exact .inr (.start (List.mem_append_right _ refers))
    · have free : e₁.hasPartial via = false := by
        rw [← Bool.not_eq_true, hasPartial_of_definePartial defined, not_or, Bool.not_eq_true]
        exact ⟨new, unregistered⟩
      exact .inr (.through (ih.resolve_left new) free (by rw [same, here]) refers)

/-- What is reached behind a partial that was registered is reached through it. -/
theorem behind_loaded {n : String} (reach : Reach e₁ (queue ++ ofTemplate source) n)
    (unregistered : e.hasPartial name = false) (supplied : e.partialSource? name = some source)
    (defined : e.definePartial name source = .ok e₁) : Reach e (name :: queue) n := by
  have same := (sameSources_of_definePartial defined).partialSource?
  induction reach with
  | start mem =>
    rcases List.mem_append.mp mem with mem | refers
    · exact .start (List.mem_cons_of_mem _ mem)
    · exact .through (.start List.mem_cons_self) unregistered supplied refers
  | through _ free here refers ih =>
    rw [← Bool.not_eq_true, hasPartial_of_definePartial defined, not_or, Bool.not_eq_true] at free
    exact .through ih free.2 (same ▸ here) refers

theorem mono {n : String} {queue' : List String} (reach : Reach e queue n)
    (sub : queue ⊆ queue') : Reach e queue' n := by
  induction reach with
  | start mem => exact .start (sub mem)
  | through _ unregistered supplied refers ih => exact .through ih unregistered supplied refers

end Reach

/-! ### What a search settles -/

namespace Walk

/-- A search that succeeds settles all names that can be reached. -/
theorem settles (walk : Walk e visited queue asked result e') (ok : result = .ok ())
    (before : ∀ v ∈ visited, e.Settled v) {n : String} (reach : Reach e queue n) :
    e'.Settled n := by
  -- Names that were visited are settled all along, so that those passed over are, too.
  induction walk with
  | done => exact absurd reach Reach.not_of_nil
  | @known e e' visited queue asked name result known rest ih =>
    have settled : e.Settled name := known.elim (before name) .inl
    rcases reach.of_settled settled with rfl | reach
    · exact settled.mono rest.sameSources rest.keeps
    · exact ih ok before reach
  | refused => cases ok
  | @passed e e' visited queue asked name result new unregistered missing lenient rest ih =>
    have settled : e.Settled name := .inr ⟨lenient, missing⟩
    rcases reach.of_settled settled with rfl | reach
    · exact settled.mono rest.sameSources rest.keeps
    · exact ih ok (List.forall_mem_cons.mpr ⟨settled, before⟩) reach
  | broken => cases ok
  | @loaded e e₁ e' visited queue asked name source result new unregistered supplied defined rest
      ih =>
    have registered : e₁.Settled name :=
      .inl ((hasPartial_of_definePartial defined name).mpr (.inl rfl))
    rcases reach.of_loaded supplied defined with rfl | reach
    · exact registered.mono rest.sameSources rest.keeps
    · refine ih ok (List.forall_mem_cons.mpr ⟨registered, fun v mem => ?_⟩) reach
      exact (before v mem).mono (sameSources_of_definePartial defined) fun here =>
        (hasPartial_of_definePartial defined v).mpr (.inr here)

/-- A search registers only what can be reached and supplied. -/
theorem hasPartial (walk : Walk e visited queue asked result e') {n : String}
    (registered : e'.hasPartial n = true) :
    e.hasPartial n = true ∨ Reach e queue n ∧ (e.partialSource? n).isSome := by
  induction walk with
  | done => exact .inl registered
  | known _ _ ih =>
    exact (ih registered).imp_right fun new => ⟨new.1.mono (List.subset_cons_self _ _), new.2⟩
  | refused => exact .inl registered
  | passed _ _ _ _ _ ih =>
    exact (ih registered).imp_right fun new => ⟨new.1.mono (List.subset_cons_self _ _), new.2⟩
  | broken => exact .inl registered
  | loaded new unregistered supplied defined rest ih =>
    rcases ih registered with here | ⟨reach, source⟩
    · rcases (hasPartial_of_definePartial defined n).mp here with rfl | here
      · exact .inr ⟨.start List.mem_cons_self, by rw [supplied]; rfl⟩
      · exact .inl here
    · refine .inr ⟨reach.behind_loaded unregistered supplied defined, ?_⟩
      rwa [(sameSources_of_definePartial defined).partialSource?] at source

end Walk

/-! ### What a search registers -/

/-- A partial is registered as a text compiles, its references redirected. -/
def Holds (e : Engine) (name text : String) : Prop :=
  ∃ els, Template.compile true (Template.DataVariables.redirectAll text) = .ok els ∧
    Table.get? e.library.partials name = some els

namespace Walk

/-- What is registered stays as it is. -/
theorem get?_partials (walk : Walk e visited queue asked result e')
    (registered : e.hasPartial name = true) :
    Table.get? e'.library.partials name = Table.get? e.library.partials name := by
  induction walk with
  | done => rfl
  | known _ _ ih => exact ih registered
  | refused => rfl
  | passed _ _ _ _ _ ih => exact ih registered
  | broken => rfl
  | @loaded e e₁ e' visited queue asked first source result new unregistered supplied defined rest
      ih =>
    rw [ih ((hasPartial_of_definePartial defined name).mpr (.inr registered))]
    obtain ⟨els, -, rfl⟩ := definePartial_eq_ok_iff.mp defined
    refine Table.get?_insert_of_ne ?_ _ _
    rintro rfl
    rw [registered] at unregistered
    cases unregistered

/-- What is registered on the way is the source that was supplied. -/
theorem holds (walk : Walk e visited queue asked result e') (new : e.hasPartial name = false)
    (registered : e'.hasPartial name = true) :
    ∃ text, e.partialSource? name = some text ∧ e'.Holds name text := by
  induction walk with
  | done => rw [new] at registered; cases registered
  | known _ _ ih => exact ih new registered
  | refused => rw [new] at registered; cases registered
  | passed _ _ _ _ _ ih => exact ih new registered
  | broken => rw [new] at registered; cases registered
  | @loaded e e₁ e' visited queue asked first source result fresh unregistered supplied defined rest
      ih =>
    have grows := hasPartial_of_definePartial defined
    by_cases same : name = first
    · subst same
      refine ⟨source, supplied, ?_⟩
      rw [Holds, rest.get?_partials ((grows name).mpr (.inl rfl))]
      obtain ⟨els, compiled, rfl⟩ := definePartial_eq_ok_iff.mp defined
      exact ⟨els, compiled, Table.get?_insert_self _ _ _⟩
    · rw [← (sameSources_of_definePartial defined).partialSource?]
      refine ih ?_ registered
      rw [← Bool.not_eq_true, grows, not_or, Bool.not_eq_true]
      exact ⟨same, new⟩

/-! ### Where a search fails -/

/-- A search fails at a name that nobody supplies, and leaves it unregistered. -/
theorem missing (walk : Walk e visited queue asked result e')
    (failed : result = .error (.partialMissing name)) :
    e'.hasPartial name = false ∧ e.partialSource? name = none ∧ e.strict = true := by
  induction walk with
  | done => cases failed
  | known _ _ ih => exact ih failed
  | refused _ unregistered missing strict =>
    cases failed
    exact ⟨unregistered, missing, strict⟩
  | passed _ _ _ _ _ ih => exact ih failed
  | broken _ _ _ broken =>
    obtain ⟨cause, rfl⟩ := definePartial_error broken
    cases failed
  | loaded _ _ _ defined _ ih =>
    have same := sameSources_of_definePartial defined
    rw [same.partialSource?, same.strict] at ih
    exact ih failed

/-- When a search fails at a name, all names of the queue before it are registered, and all of the
queue if it is not among them. -/
theorem before_missing (walk : Walk e visited queue asked result e')
    (failed : result = .error (.partialMissing name))
    (before : ∀ v ∈ visited, e.hasPartial v = true) :
    ∀ n ∈ queue.takeWhile (· != name), e'.hasPartial n = true := by
  -- The engine is strict, so it goes on from a name only if that is registered.
  induction walk with
  | done => simp
  | @known e e' visited queue asked first result known rest ih =>
    intro n mem
    have registered : e'.hasPartial first = true := rest.keeps (known.elim (before first) id)
    rw [List.takeWhile_cons] at mem
    split at mem
    · rcases List.mem_cons.mp mem with rfl | mem
      · exact registered
      · exact ih failed before n mem
    · cases mem
  | refused =>
    cases failed
    simp
  | passed _ _ _ lenient rest =>
    have strict := (rest.missing failed).2.2
    rw [lenient] at strict
    cases strict
  | broken _ _ _ broken =>
    obtain ⟨cause, rfl⟩ := definePartial_error broken
    cases failed
  | @loaded e e₁ e' visited queue asked first source result new unregistered supplied defined rest
      ih =>
    have registered := hasPartial_of_definePartial defined
    have later := ih failed (List.forall_mem_cons.mpr
      ⟨(registered first).mpr (.inl rfl), fun v mem => (registered v).mpr (.inr (before v mem))⟩)
    intro n mem
    rw [List.takeWhile_cons] at mem
    split at mem
    · rcases List.mem_cons.mp mem with rfl | mem
      · exact rest.keeps ((registered n).mpr (.inl rfl))
      · refine later n ?_
        rw [List.takeWhile_append]
        split
        · exact List.mem_append_left _ ((List.takeWhile_prefix _).subset mem)
        · exact mem
    · cases mem

end Walk

end Promptry.Engine
