import FortranTyping.Proofs.Walk.Unit

/-!
# The order of visits

A check gives every node of a unit its type once, in post-order, whatever it finds wrong on the way.
The nodes within an expression get theirs in one go, and the expression itself is the last of them.
What the resolver finds has no bearing on this, even if it tells the occurrences of a name apart by
their places.
-/

namespace FortranTyping

/-! ## Types that are dropped -/

/-- A step drops no type, and so a note that one was dropped comes from the search for a
declaration. -/
theorem Step.retyped_mem_events {ctx : Context} {step : Step} {id : NodeId}
    (h : .retyped id ∈ step.events ctx) :
    ∃ e designator, step.typed? = some e ∧ e.designator? = some designator ∧
      .retyped id ∈ ctx.resolver.events designator := by
  cases step with
  | node loops expected e =>
      simp only [events, Expr.searches, List.mem_append, List.mem_singleton, reduceCtorEq,
        or_false] at h
      cases hdesignator : e.designator? with
      | none => simp [hdesignator] at h
      | some designator =>
          simp only [hdesignator] at h
          split at h
          · cases h
          · exact ⟨e, designator, rfl, hdesignator, h⟩
  | _ => simp [events] at h

/-! ## Visits of a unit -/

/-- How the pass of a check has gone through a unit. -/
structure VisitSpec (resolver : Resolver) (program : ProgramUnit) (pass : Pass) : Prop where
  /-- The nodes that have a type are those of the unit, in post-order. -/
  ids : pass.types.ids = program.ids
  /-- What is within an expression got its types without interruption, and then the expression. -/
  blocks : ∀ e ∈ program.postorder,
    (∃ parts, e.ids = parts ++ [e.id]) ∧ e.ids <:+: pass.types.ids
  /-- No type was dropped: the log says so only where the resolver does. -/
  kept : ∀ id, .retyped id ∈ pass.events → ∃ e ∈ program.postorder, ∃ designator,
    e.designator? = some designator ∧ .retyped id ∈ resolver.events designator

namespace ProgramUnit

variable {program : ProgramUnit}

theorem check_ids (resolver : Resolver) (options : Options) (distinct : program.ids.Nodup) :
    (program.check resolver options).types.ids = program.ids := by
  rw [TypeMap.ids, check_entries resolver options distinct, Step.typings_ids, typed_steps]
  rfl

/-- Every node is typed once and in post-order, with whatever options and declarations. -/
theorem check_visitSpec (resolver : Resolver) (options : Options) (distinct : program.ids.Nodup) :
    VisitSpec resolver program (program.check resolver options) := by
  have hids := check_ids resolver options distinct
  refine ⟨hids, ?_, ?_⟩
  · intro e he
    obtain ⟨parts, hparts⟩ := e.exists_parts
    refine ⟨⟨parts.map Expr.id, by rw [Expr.ids, hparts, List.map_append]; rfl⟩, ?_⟩
    rw [hids]
    exact (program.nested_postorder e he).map Expr.id
  · intro id hid
    have hstep : ∃ step ∈ program.steps ⟨resolver, options⟩,
        .retyped id ∈ step.events ⟨resolver, options⟩ := by
      rw [check_eq_follow resolver options distinct] at hid
      simpa [Pass.log, Pass.follow, Pass.empty] using hid
    obtain ⟨step, hstep, hevent⟩ := hstep
    obtain ⟨e, designator, htyped, hdesignator, hsearch⟩ := Step.retyped_mem_events hevent
    refine ⟨e, ?_, designator, hdesignator, hsearch⟩
    rw [← program.typed_steps ⟨resolver, options⟩]
    exact List.mem_filterMap.mpr ⟨step, hstep, htyped⟩

/-- The unit `integer, dimension(n) :: a(2) = [((.not. 1, j = 1, 0.5), i = 1, 2, 0), 'c' + 1]`, in
which nearly everything is ill-typed. -/
def illTyped : ProgramUnit :=
  let name (text : String) : Located String := ⟨.ofWidth 0 1, text⟩
  let number (index : Nat) (text : String) : Expr := .literal (.ofIndex index) (.integer text)
  let dimension (upper : Expr) : Shape := [⟨none, some upper⟩]
  let negation : Expr := .unary (.ofIndex 3) .not (number 2 "1")
  let inner : Entry := .impliedDo (.ofWidth 0 2) [.plain negation] (name "j") (number 4 "1")
    (.literal (.ofIndex 5) (.real "0.5")) none
  let outer : Entry := .impliedDo (.ofWidth 0 3) [inner] (name "i") (number 6 "1") (number 7 "2")
    (some (number 8 "0"))
  let sum : Expr := .binary (.ofIndex 11) .add (.literal (.ofIndex 9) (.character "c"))
    (number 10 "1")
  let entity : Entity := ⟨name "a", some (dimension (number 1 "2")),
    some (.array (.ofIndex 12) [outer, .plain sum])⟩
  ⟨.mainProgram, name "p", [⟨.ofWidth 0 9, ⟨⟨⟨.ofWidth 0 7, .integer⟩, none, none⟩,
    [.dimension (dimension (.reference (.ofIndex 0) (name "n")))], [entity]⟩⟩], []⟩

theorem illTyped_visitSpec :
    illTyped.ids.Nodup ∧
      VisitSpec (.ofScope .empty) illTyped (illTyped.check (.ofScope .empty) {}) := by
  have distinct : illTyped.ids.Nodup := by decide
  exact ⟨distinct, check_visitSpec _ _ distinct⟩

end ProgramUnit

end FortranTyping
