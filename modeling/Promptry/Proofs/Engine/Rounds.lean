import Promptry.Proofs.Engine.Walk
import Promptry.Proofs.Template.References

/-!
The order of the search for partials. The names of a template are looked for round by round: first
its own references, then those of the partials loaded in the round before, each name where it first
appears, and none that is registered already (`breadthFirst`). Main statements: `Walk.round`, what a
search does in one round, `Walk.asked_rounds`, that a search is its rounds up to where it ends, and
`resolvePartials_breadthFirst`.
-/

namespace Promptry.Engine

open Template.References (distinct distinct_eq_eraseDups ofTemplate)

variable {e e₁ e' : Engine} {visited names front back queue asked : List String}
  {name source template : String} {result : Except PromptError Unit} {left : Nat}

/-! ### Rounds -/

/-- The names of a list that are to be looked for, each where it first appears. -/
def fresh (e : Engine) (visited names : List String) : List String :=
  distinct visited (names.filter fun name => !e.hasPartial name)

/-- What the partial of a name refers to, if it is supplied. -/
def references (e : Engine) (name : String) : List String :=
  match e.partialSource? name with
  | some source => ofTemplate source
  | none => []

/-- The names looked for in a number of rounds: those of a list, then those that their partials
refer to, and so on. Names in `visited` were looked for before. -/
def rounds (e : Engine) : Nat → List String → List String → List String
  | 0, _, _ => []
  | depth + 1, visited, names =>
    let new := e.fresh visited names
    new ++ e.rounds depth (new.reverse ++ visited) (new.flatMap e.references)

/-- The names to be looked for on behalf of a template, in order. All rounds but the last one load a
partial, of which only so many can be supplied. -/
def breadthFirst (e : Engine) (template : String) : List String :=
  e.rounds (e.supplyBound + 1) [] (ofTemplate template)

theorem fresh_known (known : name ∈ visited ∨ e.hasPartial name = true) :
    e.fresh visited (name :: names) = e.fresh visited names := by
  unfold fresh
  cases registered : e.hasPartial name with
  | true => rw [List.filter_cons_of_neg (by simp [registered])]
  | false =>
    rw [List.filter_cons_of_pos (by simp [registered]), distinct,
      if_pos (List.contains_iff_mem.mpr (known.resolve_right (by simp [registered])))]

theorem fresh_new (new : name ∉ visited) (unregistered : e.hasPartial name = false) :
    e.fresh visited (name :: names) = name :: e.fresh (name :: visited) names := by
  unfold fresh
  rw [List.filter_cons_of_pos (by simp [unregistered]), distinct,
    if_neg (mt List.contains_iff_mem.mp new)]

theorem mem_fresh_iff : name ∈ e.fresh visited names ↔
    name ∈ names ∧ name ∉ visited ∧ e.hasPartial name = false := by
  rw [fresh, distinct_eq_eraseDups, List.mem_eraseDups, List.mem_filter, List.mem_filter]
  simp [and_comm, and_left_comm]

theorem isSome_of_references (refers : e.references name ≠ []) :
    (e.partialSource? name).isSome := by
  unfold references at refers
  split at refers
  · next source supplied => rw [supplied]; rfl
  · exact absurd rfl refers

theorem SameSources.references (same : SameSources e e₁) : e₁.references = e.references := by
  funext name
  rw [Engine.references, same.partialSource?]
  rfl

/-- What is registered among the names visited makes no difference. -/
theorem fresh_congr (agree : ∀ n ∉ visited, e₁.hasPartial n = e.hasPartial n) :
    e₁.fresh visited names = e.fresh visited names := by
  induction names generalizing visited with
  | nil => rfl
  | cons name names ih =>
    by_cases old : name ∈ visited
    · rw [fresh_known (.inl old), fresh_known (.inl old), ih agree]
    · cases registered : e.hasPartial name with
      | true =>
        rw [fresh_known (.inr ((agree name old).trans registered)), fresh_known (.inr registered),
          ih agree]
      | false =>
        rw [fresh_new old ((agree name old).trans registered), fresh_new old registered,
          ih fun n mem => agree n (mt (List.mem_cons_of_mem name) mem)]

theorem rounds_congr (same : SameSources e e₁)
    (agree : ∀ n ∉ visited, e₁.hasPartial n = e.hasPartial n) (depth : Nat) :
    e₁.rounds depth visited names = e.rounds depth visited names := by
  induction depth generalizing visited names with
  | zero => rfl
  | succ depth ih =>
    rw [rounds, rounds, fresh_congr agree, same.references]
    rw [ih fun n mem => agree n (mt (List.mem_append_right _) mem)]

/-- Nothing is left to be looked for once nothing is referred to. -/
theorem rounds_nil (depth : Nat) : e.rounds depth visited [] = [] := by
  cases depth with
  | zero => rfl
  | succ depth => exact rounds_nil depth

/-! ### A search by rounds -/

/-- How a search takes the first names of its queue: it ends among them, or it looks for the fresh
ones, loads those that are supplied, and goes on with the rest of the queue and the references of
what it loaded. -/
inductive Round (e : Engine) (visited front back asked : List String)
    (result : Except PromptError Unit) (e' : Engine) : Prop where
  | ended (failed : result ≠ .ok ()) (upTo : asked <+: e.fresh visited front)
  | through {e₁ : Engine} {later : List String} (split : asked = e.fresh visited front ++ later)
      (rest : Walk e₁ ((e.fresh visited front).reverse ++ visited)
        (back ++ (e.fresh visited front).flatMap e.references) later result e')
      (same : SameSources e e₁)
      (registered : ∀ n, e₁.hasPartial n = true ↔
        e.hasPartial n = true ∨ n ∈ e.fresh visited front ∧ (e.partialSource? n).isSome)

theorem Round.after_known (known : name ∈ visited ∨ e.hasPartial name = true)
    (round : Round e visited front back asked result e') :
    Round e visited (name :: front) back asked result e' := by
  have order : e.fresh visited (name :: front) = e.fresh visited front := fresh_known known
  cases round with
  | ended failed upTo => exact .ended failed (order ▸ upTo)
  | through split rest same registered =>
    rw [← order] at split rest registered
    exact .through split rest same registered

/-- A name that was looked for stands before the rest of the round, and what its partial refers to
behind the queue. -/
theorem Round.after_new (new : name ∉ visited) (unregistered : e.hasPartial name = false)
    (same : SameSources e e₁) (registered : ∀ n, e₁.hasPartial n = true ↔
      e.hasPartial n = true ∨ n = name ∧ (e.partialSource? n).isSome)
    (round : Round e₁ (name :: visited) front (back ++ e.references name) asked result e') :
    Round e visited (name :: front) back (name :: asked) result e' := by
  have agree : ∀ n ∉ name :: visited, e₁.hasPartial n = e.hasPartial n := by
    intro n mem
    rw [Bool.eq_iff_iff, registered]
    simp [List.ne_of_not_mem_cons mem]
  have order : e.fresh visited (name :: front) = name :: e.fresh (name :: visited) front :=
    fresh_new new unregistered
  cases round with
  | ended failed upTo =>
    rw [fresh_congr agree] at upTo
    refine .ended failed ?_
    rw [order]
    exact List.cons_prefix_cons.mpr ⟨rfl, upTo⟩
  | @through e₂ later split rest same₂ registered₂ =>
    rw [fresh_congr agree] at split rest registered₂
    have whole : name :: asked = e.fresh visited (name :: front) ++ later := by
      rw [split, order, List.cons_append]
    refine .through whole ?_ (same.trans same₂) fun n => ?_
    · rw [order, List.reverse_cons, List.append_assoc, List.flatMap_cons, ← List.append_assoc back]
      rwa [same.references] at rest
    · rw [registered₂, registered, order, same.partialSource?, List.mem_cons]
      tauto

/-- A search takes any first part of its queue in one round. -/
theorem Walk.round (walk : Walk e visited (front ++ back) asked result e') :
    Round e visited front back asked result e' := by
  induction front generalizing e visited back asked with
  | nil =>
    refine .through rfl ?_ (.refl e) ?_
    · rw [List.nil_append] at walk
      simpa [fresh, distinct] using walk
    · intro n
      simp [fresh, distinct]
  | cons name front ih =>
    rw [List.cons_append] at walk
    cases walk with
    | known known rest => exact (ih rest).after_known known
    | refused new unregistered missing strict =>
      refine .ended (fun ok => by cases ok) ?_
      rw [fresh_new new unregistered]
      exact List.prefix_append [name] _
    | passed new unregistered missing lenient rest =>
      have silent : e.references name = [] := by rw [references, missing]
      refine Round.after_new new unregistered (.refl e) ?_ (ih ?_)
      · intro n
        constructor
        · exact .inl
        · rintro (old | ⟨rfl, supplied⟩)
          · exact old
          · rw [missing] at supplied
            cases supplied
      · rwa [silent, List.append_nil]
    | broken new unregistered supplied failed =>
      refine .ended (fun ok => by cases ok) ?_
      rw [fresh_new new unregistered]
      exact List.prefix_append [name] _
    | loaded new unregistered supplied defined rest =>
      refine Round.after_new new unregistered (sameSources_of_definePartial defined) ?_ (ih ?_)
      · intro n
        rw [hasPartial_of_definePartial defined, or_comm]
        constructor
        · rintro (old | rfl)
          · exact .inl old
          · exact .inr ⟨rfl, by rw [supplied]; rfl⟩
        · exact Or.imp_right And.left
      · rw [references, supplied]
        rwa [← List.append_assoc]

theorem Walk.asked_nil (walk : Walk e visited [] asked result e') : asked = [] := by
  cases walk
  rfl

/-- The names looked for are the first ones of a list, and all of them unless the search fails. -/
structure UpToEnd (asked : List String) (result : Except PromptError Unit) (names : List String) :
    Prop where
  order : asked <+: names
  whole : result = .ok () → asked = names

theorem UpToEnd.prepend (upTo : UpToEnd asked result names) (before : List String) :
    UpToEnd (before ++ asked) result (before ++ names) where
  order := (List.prefix_append_right_inj before).mpr upTo.order
  whole ok := by rw [upTo.whole ok]

/-- A search looks for the names of its rounds. There are no more of these than partials that can be
supplied, and the last one. -/
theorem Walk.asked_rounds {depth : Nat} (walk : Walk e visited queue asked result e')
    (bound : e.SuppliesAtMost left) (enough : left < depth) :
    UpToEnd asked result (e.rounds depth visited queue) := by
  induction depth generalizing e visited queue asked left with
  | zero => exact absurd enough (Nat.not_lt_zero left)
  | succ depth ih =>
    rw [← List.append_nil queue] at walk
    rw [rounds]
    cases walk.round with
    | ended failed upTo =>
      exact ⟨upTo.trans (List.prefix_append _ _), fun ok => absurd ok failed⟩
    | @through e₁ later split rest same registered =>
      rw [List.nil_append] at rest
      rw [split]
      refine UpToEnd.prepend ?_ _
      by_cases silent : (e.fresh visited queue).flatMap e.references = []
      · rw [silent] at rest ⊢
        rw [rest.asked_nil, rounds_nil]
        exact ⟨List.prefix_rfl, fun _ => rfl⟩
      -- a name of this round has references, so that its partial was registered in it
      obtain ⟨name, mem, refers⟩ : ∃ name ∈ e.fresh visited queue, e.references name ≠ [] := by
        simpa [List.flatMap_eq_nil_iff] using silent
      have supplied := isSome_of_references refers
      obtain ⟨less, rfl, remaining⟩ := bound.less (mem_fresh_iff.mp mem).2.2 supplied same
        ((registered name).mpr (.inr ⟨mem, supplied⟩)) fun n old => (registered n).mpr (.inl old)
      rw [← rounds_congr same]
      · exact ih rest remaining (Nat.lt_of_succ_lt_succ enough)
      · intro n new
        rw [List.mem_append, List.mem_reverse, not_or] at new
        rw [Bool.eq_iff_iff, registered]
        simp [new.1]

/-- The resolver is asked for every name that is looked for. -/
theorem flatMap_partialCalls (asked : List String) : asked.flatMap e.partialCalls =
    if e.partialResolver.isSome then asked.map Call.partialSource else [] := by
  unfold partialCalls
  split
  · exact List.flatMap_pure_eq_map ..
  · simp

/-- The names are distinct, and none of them was visited or is registered. -/
structure AllNew (e : Engine) (visited names : List String) : Prop where
  nodup : names.Nodup
  unvisited : ∀ n ∈ names, n ∉ visited
  unregistered : ∀ n ∈ names, e.hasPartial n = false

theorem AllNew.single (new : name ∉ visited) (unregistered : e.hasPartial name = false) :
    e.AllNew visited [name] where
  nodup := List.nodup_singleton name
  unvisited := by simpa using new
  unregistered := by simpa using unregistered

/-- New names may stand behind one that was visited before them. -/
theorem AllNew.cons (new : name ∉ visited) (unregistered : e.hasPartial name = false)
    (rest : e₁.AllNew (name :: visited) names)
    (keeps : ∀ n, e.hasPartial n = true → e₁.hasPartial n = true) :
    e.AllNew visited (name :: names) := by
  constructor
  case nodup =>
    exact List.nodup_cons.mpr ⟨fun mem => rest.unvisited name mem List.mem_cons_self, rest.nodup⟩
  case unvisited =>
    refine List.forall_mem_cons.mpr ⟨new, fun n mem old => ?_⟩
    exact rest.unvisited n mem (List.mem_cons_of_mem name old)
  case unregistered =>
    refine List.forall_mem_cons.mpr ⟨unregistered, fun n mem => Bool.eq_false_iff.mpr ?_⟩
    intro old
    exact absurd (keeps n old) (Bool.eq_false_iff.mp (rest.unregistered n mem))

/-- A search looks for no name twice, and for none that is registered. -/
theorem Walk.allNew (walk : Walk e visited queue asked result e') : e.AllNew visited asked := by
  induction walk with
  | done => exact ⟨List.nodup_nil, by simp, by simp⟩
  | known _ _ ih => exact ih
  | refused new unregistered => exact .single new unregistered
  | passed new unregistered _ _ _ ih => exact ih.cons new unregistered fun _ old => old
  | broken new unregistered => exact .single new unregistered
  | loaded new unregistered _ defined _ ih =>
    apply ih.cons new unregistered
    intro n old
    exact (hasPartial_of_definePartial defined n).mpr (.inr old)

/-! ### The whole search -/

/-- How the partials of a template are resolved: the names `asked` are looked for, in order. -/
structure Searched (e : Engine) (template : String) (asked : List String) (outcome : Outcome Unit) :
    Prop where
  /-- The search comes to its end; the bound that it is given is never used up. -/
  walk : Walk e [] (ofTemplate template) asked outcome.result outcome.engine
  /-- The resolver is asked once for each of the names. -/
  calls : outcome.calls =
    if e.partialResolver.isSome then asked.map Call.partialSource else []
  order : UpToEnd asked outcome.result (e.breadthFirst template)
  once : asked.Nodup
  unregistered : ∀ name ∈ asked, e.hasPartial name = false
  /-- No more are loaded than the resolver and the store can supply. -/
  bounded : (asked.filter fun name => (e.partialSource? name).isSome).length ≤ e.supplyBound
  /-- Partials that were registered stay as they are. -/
  keeps : ∀ name, e.hasPartial name = true →
    Table.get? outcome.engine.library.partials name = Table.get? e.library.partials name
  /-- What is registered is the source that is supplied. -/
  holds : ∀ name, e.hasPartial name = false → outcome.engine.hasPartial name = true →
    ∃ source, e.Supplies name source ∧ outcome.engine.Holds name source
  /-- Unless the search fails, all partials that can be reached and supplied are registered, and no
  others. -/
  registers : outcome.result = .ok () → ∀ name, e.hasPartial name = false →
    (outcome.engine.hasPartial name = true ↔
      Reach e (ofTemplate template) name ∧ ∃ source, e.Supplies name source)

/-- The partials of a template are looked for in breadth-first order, each once. If the search does
not fail, those that can be reached and supplied are registered as they are supplied, and the others
are left as they were. -/
theorem resolvePartials_breadthFirst (e : Engine) (template : String) :
    ∃ asked, Searched e template asked (e.resolvePartials template) := by
  obtain ⟨asked, walk, calls⟩ := e.resolvePartials_walk template
  have new := walk.allNew
  refine ⟨asked, ?_⟩
  constructor
  case walk => exact walk
  case calls => rw [calls, flatMap_partialCalls]
  case order =>
    exact walk.asked_rounds (suppliesAtMost_supplyBound e) (Nat.lt_succ_self e.supplyBound)
  case once => exact new.nodup
  case unregistered => exact new.unregistered
  case bounded =>
    apply length_le_supplyBound (new.nodup.filter _)
    intro name mem
    exact (List.mem_filter.mp mem).2
  case keeps => exact fun name => walk.get?_partials
  case holds =>
    intro name unregistered registered
    obtain ⟨source, supplied, holds⟩ := walk.holds unregistered registered
    exact ⟨source, supplies_iff.mpr supplied, holds⟩
  case registers =>
    intro ok name unregistered
    simp only [supplies_iff, ← Option.isSome_iff_exists]
    constructor
    · intro registered
      exact (walk.hasPartial registered).resolve_left (by simp [unregistered])
    · rintro ⟨reach, supplied⟩
      rcases walk.settles ok nofun reach with registered | ⟨-, missing⟩
      · exact registered
      · rw [walk.sameSources.partialSource?] at missing
        rw [missing] at supplied
        cases supplied

/-- Partials that refer to themselves and to each other, and one that the resolver fails to find. -/
example :
    let e : Engine := { partialResolver := some [
      ("a", .found "\x7b\x7b> b\x7d\x7d\x7b\x7b> a\x7d\x7d\x7b\x7b> gone\x7d\x7d"),
      ("gone", .failed "down"), ("b", .found "\x7b\x7b> c\x7d\x7d"),
      ("c", .found "\x7b\x7b> a\x7d\x7d")] }
    e.breadthFirst "\x7b\x7b> a\x7d\x7d" = ["a", "b", "gone", "c"] := rfl

end Promptry.Engine
