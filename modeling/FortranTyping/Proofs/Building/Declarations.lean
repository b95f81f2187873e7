import FortranTyping.Proofs.Building.Covering
import FortranTyping.Proofs.Building.Identities

/-!
# Places of declaration statements

A declaration statement covers its keyword, and whatever of its entities was built behind the
keyword, with one exception. Because the name of an entity is placed behind its initial value, and
the statement ends with the initial value, such a name is covered only if another entity of the
statement ends behind it.
-/

namespace FortranTyping

open List

/-! ## Extending a span -/

namespace Span

theorem foldl_extendTo_start (s : Span) (stops : List Nat) :
    (stops.foldl extendTo s).start = s.start := by
  induction stops generalizing s with
  | nil => rfl
  | cons stop stops ih => exact ih _

theorem foldl_extendTo_stop (s : Span) (stops : List Nat) :
    (stops.foldl extendTo s).stop = stops.foldl max s.stop := by
  induction stops generalizing s with
  | nil => rfl
  | cons stop stops ih => exact ih _

theorem le_foldl_extendTo_stop_iff (s : Span) (stops : List Nat) (n : Nat) :
    n ≤ (stops.foldl extendTo s).stop ↔ n ≤ s.stop ∨ ∃ stop ∈ stops, n ≤ stop := by
  induction stops generalizing s with
  | nil => simp
  | cons stop stops ih =>
      rw [foldl_cons, ih, List.exists_mem_cons_iff, ← or_assoc]
      simp only [extendTo, le_max_iff]

/-- The end of an extended span as the greatest one, if there are any. -/
theorem foldl_max_eq (stops : List Nat) (n : Nat) :
    stops.foldl max n = max (stops.max?.getD n) n := by
  cases stops with
  | nil => simp
  | cons stop stops =>
      rw [foldl_cons, foldl_assoc, max?_cons', Option.getD_some, Nat.max_comm]

end Span

/-! ## What is built ends before the cursor -/

/-- An expression or entry ends before the cursor, and an initial value before the name of its
entity. -/
def Piece.Fits (cursor : Nat) : Piece → Prop
  | .expr e => e.span.stop < cursor
  | .entry item => item.span.stop < cursor
  | .entity item => ∀ init ∈ item.init, init.span.stop < item.name.span.start
  | _ => True

theorem Piece.Fits.mono {piece : Piece} {cursor cursor' : Nat} (h : piece.Fits cursor)
    (hle : cursor ≤ cursor') : piece.Fits cursor' := by
  cases piece with
  | expr e => exact Nat.lt_of_lt_of_le h hle
  | entry item => exact Nat.lt_of_lt_of_le h hle
  | entity item => exact h
  | _ => trivial

theorem Entry.fits_piece (item : Entry) (cursor : Nat) :
    item.piece.Fits cursor ↔ item.span.stop < cursor := by
  cases item <;> rfl

namespace Call

theorem cursor_le_run (c : Call) (b : Builder) : b.cursor ≤ (c.run.run b).2.cursor := by
  rcases c.ownLeaf_run b with ⟨-, h⟩ | ⟨width, -, h⟩ <;> omega

/-- What is built from parts that end before the cursor ends before the new cursor. -/
theorem fits_run (c : Call) (b : Builder) (h : ∀ piece ∈ c.arguments, piece.Fits b.cursor) :
    ∀ piece ∈ (c.run.run b).1, piece.Fits (c.run.run b).2.cursor := by
  have hleaf (width : Nat) : (Span.ofWidth b.cursor width).stop < b.cursor + width + 1 :=
    Nat.lt_succ_self _
  have hlater {n : Nat} (width : Nat) (hn : n < b.cursor) : n < b.cursor + width + 1 := by omega
  cases c with
  | literal value => exact forall_mem_singleton.mpr (hleaf _)
  | reference text => exact forall_mem_singleton.mpr (hleaf _)
  | unary op operand => exact forall_mem_singleton.mpr (h (.expr operand) mem_cons_self)
  | paren inner => exact forall_mem_singleton.mpr (h (.expr inner) mem_cons_self)
  | binary op left right =>
      have hleft : left.span.stop < b.cursor := h (.expr left) (by simp [arguments])
      have hright : right.span.stop < b.cursor := h (.expr right) (by simp [arguments])
      exact forall_mem_singleton.mpr (Nat.max_lt.mpr ⟨hleft, hright⟩)
  | element text subscripts =>
      refine forall_mem_singleton.mpr (Span.joinAll_stop_lt ?_)
      refine forall_mem_cons.mpr ⟨hleaf _, forall_mem_map.mpr fun e he => ?_⟩
      exact hlater _ (h (.expr e) (mem_map_of_mem he))
  | array entries =>
      cases entries with
      | nil => exact forall_mem_singleton.mpr (hleaf _)
      | cons entry rest =>
          refine forall_mem_singleton.mpr (Span.joinAll_stop_lt ?_)
          refine (forall_mem_map (l := entry :: rest)).mpr fun item hitem => ?_
          exact (item.fits_piece _).mp (h item.piece (mem_map_of_mem hitem))
  | impliedDo body text start stop stride =>
      have hcontrols : ∀ e ∈ start :: stop :: stride.toList, e.span.stop < b.cursor :=
        fun e he => h (.expr e) (mem_append_right _ (mem_map_of_mem he))
      have hstop : stop.span.stop < b.cursor := hcontrols stop (by simp)
      refine forall_mem_singleton.mpr (Span.joinAll_stop_lt ?_)
      refine forall_mem_cons.mpr ⟨Nat.max_lt.mpr ⟨hleaf _, hlater _ hstop⟩, ?_⟩
      refine forall_mem_append.mpr ⟨forall_mem_map.mpr fun item hitem => ?_,
        forall_mem_map.mpr fun e he => ?_⟩
      · have hpiece := h item.piece (mem_append_left _ (mem_map_of_mem hitem))
        exact hlater _ ((item.fits_piece _).mp hpiece)
      · exact hlater _ (hcontrols e (mem_cons_of_mem _ (mem_cons_of_mem _ he)))
  | entity text shape init =>
      refine forall_mem_singleton.mpr fun value hvalue => ?_
      exact h (.expr value) (mem_map_of_mem (mem_append_right _ (Option.mem_toList.mpr hvalue)))
  | freshId => exact fun piece hpiece => absurd hpiece not_mem_nil
  | name _ | typeSpec _ _ _ | declaration _ _ _ | assignment _ _ | otherStatement | unit _ _ _ _ =>
      exact forall_mem_singleton.mpr trivial

end Call

namespace Session

variable {s : Session} {calls : List Call}

/-- In a session all that is held ends before the cursor. -/
theorem Runs.fits (h : Runs {} calls s) : ∀ piece ∈ s.held, piece.Fits s.builder.cursor := by
  refine h.keeps (P := fun s => ∀ piece ∈ s.held, piece.Fits s.builder.cursor) ?_ ?_
  · intro s c rest hs hperm piece hpiece
    rcases mem_append.mp hpiece with hmade | hrest
    · refine c.fits_run s.builder (fun argument hargument => ?_) piece hmade
      exact hs argument (hperm.mem_iff.mpr (mem_append_left _ hargument))
    · exact (hs piece (hperm.mem_iff.mpr (mem_append_right _ hrest))).mono (c.cursor_le_run _)
  · exact fun piece hpiece => absurd hpiece not_mem_nil

/-- A leaf that was placed after another begins behind it. -/
theorem Runs.stop_lt_start (h : Runs {} calls s) {a b : Span} (hab : [a, b] <+ s.placed) :
    a.stop < b.start := by
  have hpair := Pairwise.sublist hab h.spaced.apart
  simpa using hpair

end Session

/-! ## Declarations -/

/-- How a declaration statement lies over its keyword and its entities. -/
structure DeclarationSpec (typeSpec : TypeSpec) (entities : List Entity) (span : Span) : Prop where
  /-- The statement is a range: from the keyword to the last end of an entity, or to the end of the
  keyword if that lies behind all entities. -/
  bounds : Span.ofBounds typeSpec.keyword.span.start
    (max ((entities.map Entity.stop).max?.getD typeSpec.keyword.span.stop)
      typeSpec.keyword.span.stop) = .ok span
  keyword : span.Contains typeSpec.keyword.span
  names : ∀ entity ∈ entities, entity.init = none → span.Contains entity.name.span
  /-- An initial value is covered just if it does not begin before the keyword. -/
  inits : ∀ entity ∈ entities, ∀ init ∈ entity.init,
    (span.Contains init.span ↔ typeSpec.keyword.span.start ≤ init.span.start)
  /-- The name of an entity lies behind its initial value, and so behind the end of the entity. -/
  behind : ∀ entity ∈ entities, ∀ init ∈ entity.init,
    entity.stop = init.span.stop ∧ init.span.stop < entity.name.span.start
  /-- Such a name is covered just if another entity ends behind it. -/
  initialized : ∀ entity ∈ entities, entity.init ≠ none →
    (span.Contains entity.name.span ↔ ∃ other ∈ entities, entity.name.span.stop ≤ other.stop)

theorem Build.le_declaration_stop_iff (typeSpec : TypeSpec) (attributes : List Attribute)
    (entities : List Entity) (n : Nat) :
    n ≤ (declaration typeSpec attributes entities).span.stop ↔
      n ≤ typeSpec.keyword.span.stop ∨ ∃ entity ∈ entities, n ≤ entity.stop := by
  simp [declaration, Span.le_foldl_extendTo_stop_iff]

theorem Session.Runs.declarationSpec {s : Session} {calls : List Call} (h : Runs {} calls s)
    {typeSpec : TypeSpec} {entities : List Entity} (hentities : ∀ entity ∈ entities,
      .entity entity ∈ s.held ∧ [typeSpec.keyword.span, entity.name.span] <+ s.placed)
    (attributes : List Attribute) :
    DeclarationSpec typeSpec entities (Build.declaration typeSpec attributes entities).span := by
  have hstart : (Build.declaration typeSpec attributes entities).span.start =
    typeSpec.keyword.span.start := Span.foldl_extendTo_start _ _
  have hstop := Build.le_declaration_stop_iff typeSpec attributes entities
  have hkeyword := typeSpec.keyword.span.start_le_stop
  have hbehind : ∀ entity ∈ entities, typeSpec.keyword.span.stop < entity.name.span.start :=
    fun entity hentity => h.stop_lt_start (hentities entity hentity).2
  have hname : ∀ entity ∈ entities,
      ((Build.declaration typeSpec attributes entities).span.Contains entity.name.span ↔
        ∃ other ∈ entities, entity.name.span.stop ≤ other.stop) := by
    intro entity hentity
    have hlater := hbehind entity hentity
    have hwidth := entity.name.span.start_le_stop
    rw [Span.Contains, hstart, hstop, or_iff_right (by omega), and_iff_right (by omega)]
  refine ⟨?_, ⟨?_, ?_⟩, ?_, ?_, ?_, ?_⟩
  · rw [← Span.foldl_max_eq, ← Span.foldl_extendTo_stop, ← hstart]
    exact dif_pos (Span.start_le_stop _)
  · exact Nat.le_of_eq hstart
  · exact (hstop _).mpr (.inl (Nat.le_refl _))
  · intro entity hentity hnone
    refine (hname entity hentity).mpr ⟨entity, hentity, ?_⟩
    rw [Entity.stop, hnone]
  · intro entity hentity init hinit
    have hends : init.span.stop ≤ entity.stop := by
      rw [Entity.stop, hinit]
    rw [Span.Contains, hstart, hstop]
    exact and_iff_left (.inr ⟨entity, hentity, hends⟩)
  · intro entity hentity init hinit
    exact ⟨by rw [Entity.stop, hinit], h.fits _ (hentities entity hentity).1 init hinit⟩
  · exact fun entity hentity _ => hname entity hentity

/-! ## A name that is not covered -/

namespace Initialized

def typeSpec : TypeSpec × Builder :=
  (Build.typeSpec .integer none none).run {}

def value : Expr × Builder :=
  (Build.literal (.integer "1")).run typeSpec.2

def entity : Entity × Builder :=
  (Build.entity "x" none (some value.1)).run value.2

/-- The calls for the parts of `integer :: x = 1`. -/
def calls : List Call :=
  [.typeSpec .integer none none, .literal (.integer "1"), .entity "x" none (some value.1)]

/-- Where these calls lead to. -/
def session : Session :=
  ⟨entity.2, [.entity entity.1, .typeSpec typeSpec.1],
    [typeSpec.1.keyword.span, value.1.span, entity.1.name.span]⟩

theorem runs : Session.Runs {} calls session := by
  have htypeSpec : [Piece.typeSpec typeSpec.1] ~ [] ++ [.typeSpec typeSpec.1] := .refl _
  exact .cons [] .nil (.cons _ htypeSpec (.cons [.typeSpec typeSpec.1] (.refl _) (.nil _)))

theorem placed : [typeSpec.1.keyword.span, entity.1.name.span] <+ session.placed := by
  decide

theorem declarationSpec_entity :
    Session.Runs {} calls session ∧
      (∀ e ∈ [entity.1],
        .entity e ∈ session.held ∧ [typeSpec.1.keyword.span, e.name.span] <+ session.placed) ∧
      DeclarationSpec typeSpec.1 [entity.1]
        (Build.declaration typeSpec.1 [] [entity.1]).span := by
  have hentities : ∀ e ∈ [entity.1],
      .entity e ∈ session.held ∧ [typeSpec.1.keyword.span, e.name.span] <+ session.placed :=
    forall_mem_singleton.mpr ⟨mem_cons_self, placed⟩
  exact ⟨runs, hentities, runs.declarationSpec hentities []⟩

/-- The statement `integer :: x = 1` ends with the value, and `x` lies behind that. -/
theorem not_declaration_covers_names :
    ¬∀ (calls : List Call) (s : Session) (typeSpec : TypeSpec) (attributes : List Attribute)
      (entities : List Entity), Session.Runs {} calls s →
      (∀ e ∈ entities,
        .entity e ∈ s.held ∧ [typeSpec.keyword.span, e.name.span] <+ s.placed) →
      ∀ e ∈ entities,
        (Build.declaration typeSpec attributes entities).span.Contains e.name.span := by
  intro h
  have hcovers := h calls session typeSpec.1 [] [entity.1] runs
    (forall_mem_singleton.mpr ⟨mem_cons_self, placed⟩) entity.1 mem_cons_self
  revert hcovers
  decide

end Initialized

end FortranTyping
