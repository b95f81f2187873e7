import FortranTyping.Proofs.Building.Sessions

/-!
# Identities and places in what is built

Whatever the calls, and in whatever order, no two nodes of the trees that come out have the same
identity, and every node has a greater one than all nodes within it. The leaves of the trees lie one
behind the other in the order of the calls.
-/

namespace FortranTyping

open List

/-- The expressions within an expression, without itself. -/
def Expr.descendants (e : Expr) : List Expr :=
  e.postorder.dropLast

theorem Expr.descendants_append_self (e : Expr) : e.descendants ++ [e] = e.postorder := by
  obtain ⟨parts, hparts⟩ := e.exists_parts
  rw [descendants, hparts, dropLast_concat]

namespace Session

variable {s : Session} {c : Call} {rest : List Piece}

/-! ## Identities -/

def nodes (s : Session) : List Expr :=
  s.held.flatMap Piece.nodes

/-- The nodes of a session have identities of their own, in ascending order from the parts of a node
to the node, and the builder has not come to the next one yet. -/
structure Numbered (s : Session) : Prop where
  distinct : (s.nodes.map Expr.id).Nodup
  used : ∀ e ∈ s.nodes, e.id.index < s.builder.nextId
  rising : ∀ e ∈ s.nodes, ∀ part ∈ e.descendants, part.id.index < e.id.index

/-- A call keeps the nodes and adds at most one, in front of which are nodes that there were. -/
theorem nodes_call (h : s.held ~ c.arguments ++ rest) :
    (s.call c rest).nodes ~ s.nodes ∨
      ∃ e, (c.run.run s.builder).1 = [.expr e] ∧ e.descendants ⊆ s.nodes ∧
        (s.call c rest).nodes ~ e :: s.nodes := by
  have hnodes : s.nodes ~ c.arguments.flatMap Piece.nodes ++ rest.flatMap Piece.nodes := by
    rw [nodes, ← flatMap_append]
    exact h.flatMap_right _
  have hcall : (s.call c rest).nodes =
      (c.run.run s.builder).1.flatMap Piece.nodes ++ rest.flatMap Piece.nodes := flatMap_append
  rw [hcall]
  rcases (c.makes_run s.builder).nodes with hmade | ⟨e, hmade, he⟩
  · left
    rw [hmade]
    exact hnodes.symm
  · have hparts : e.descendants = c.arguments.flatMap Piece.nodes :=
      append_cancel_right (e.descendants_append_self.trans he)
    right
    refine ⟨e, hmade, ?_, ?_⟩
    · rw [hparts]
      exact List.Subset.trans (subset_append_left _ _) hnodes.symm.subset
    · rw [hmade, flatMap_singleton, Piece.nodes, he, append_assoc]
      exact perm_middle.trans (hnodes.symm.cons e)

theorem Numbered.call (hs : s.Numbered) (h : s.held ~ c.arguments ++ rest) :
    (s.call c rest).Numbered := by
  have hnext : s.builder.nextId ≤ (s.call c rest).builder.nextId := c.nextId_le_run s.builder
  rcases nodes_call h with hnodes | ⟨e, hmade, hparts, hnodes⟩
  · refine ⟨?_, ?_, ?_⟩
    · exact (hnodes.map Expr.id).nodup_iff.mpr hs.distinct
    · intro e he
      exact Nat.lt_of_lt_of_le (hs.used e (hnodes.mem_iff.mp he)) hnext
    · intro e he
      exact hs.rising e (hnodes.mem_iff.mp he)
  · obtain ⟨hid, hlater⟩ := Call.id_of_run hmade
    have hbelow : ∀ part ∈ s.nodes, part.id.index < e.id.index := by
      intro part hpart
      rw [hid]
      exact hs.used part hpart
    refine ⟨?_, ?_, ?_⟩
    · rw [(hnodes.map Expr.id).nodup_iff, map_cons, nodup_cons]
      refine ⟨?_, hs.distinct⟩
      intro hmem
      obtain ⟨part, hpart, heq⟩ := mem_map.mp hmem
      exact absurd (hbelow part hpart) (by rw [heq]; exact Nat.lt_irrefl _)
    · intro part hpart
      rcases mem_cons.mp (hnodes.mem_iff.mp hpart) with rfl | hpart
      · rw [hid]
        exact hlater
      · exact Nat.lt_of_lt_of_le (hs.used part hpart) hnext
    · intro whole hwhole
      rcases mem_cons.mp (hnodes.mem_iff.mp hwhole) with rfl | hwhole
      · exact fun part hpart => hbelow part (hparts hpart)
      · exact hs.rising whole hwhole

theorem Runs.numbered {calls : List Call} (h : Runs {} calls s) : s.Numbered := by
  refine h.keeps Numbered.call ⟨nodup_nil, ?_, ?_⟩
  · exact fun e he => absurd he not_mem_nil
  · exact fun e he => absurd he not_mem_nil

/-! ## Places -/

def leaves (s : Session) : List Span :=
  s.held.flatMap Piece.leaves

/-- The leaves of a session are those that have been placed, one behind the other and all of them
before the cursor. -/
structure Spaced (s : Session) : Prop where
  leaves : s.leaves ~ s.placed
  apart : s.placed.Pairwise fun a b => a.stop < b.start
  behind : ∀ span ∈ s.placed, span.stop < s.builder.cursor

theorem leaves_call (h : s.held ~ c.arguments ++ rest) :
    (s.call c rest).leaves ~ s.leaves ++ (c.run.run s.builder).1.flatMap Piece.ownLeaf := by
  have hleaves : s.leaves ~ c.arguments.flatMap Piece.leaves ++ rest.flatMap Piece.leaves := by
    rw [leaves, ← flatMap_append]
    exact h.flatMap_right _
  have hcall : (s.call c rest).leaves =
      (c.run.run s.builder).1.flatMap Piece.leaves ++ rest.flatMap Piece.leaves := flatMap_append
  rw [hcall, (c.makes_run s.builder).leaves, append_assoc]
  refine (perm_append_comm.append_left _).trans ?_
  rw [← append_assoc]
  exact hleaves.symm.append_right _

theorem Spaced.call (hs : s.Spaced) (h : s.held ~ c.arguments ++ rest) :
    (s.call c rest).Spaced := by
  have hleaves : (s.call c rest).leaves ~ (s.call c rest).placed :=
    (leaves_call h).trans (hs.leaves.append_right _)
  have hplaced : (s.call c rest).placed =
      s.placed ++ (c.run.run s.builder).1.flatMap Piece.ownLeaf := rfl
  have hbuilder : (s.call c rest).builder = (c.run.run s.builder).2 := rfl
  rcases c.ownLeaf_run s.builder with ⟨hnone, hcursor⟩ | ⟨width, hleaf, hcursor⟩
  · rw [hnone, append_nil] at hplaced
    refine ⟨hleaves, ?_, ?_⟩
    · rw [hplaced]
      exact hs.apart
    · rw [hplaced, hbuilder, hcursor]
      exact hs.behind
  · rw [hleaf] at hplaced
    refine ⟨hleaves, ?_, ?_⟩
    · rw [hplaced, pairwise_append]
      refine ⟨hs.apart, pairwise_singleton _ _, ?_⟩
      intro a ha b hb
      cases mem_singleton.mp hb
      exact hs.behind a ha
    · rw [hplaced, hbuilder, hcursor]
      intro span hspan
      rcases mem_append.mp hspan with hspan | hspan
      · have := hs.behind span hspan
        omega
      · cases mem_singleton.mp hspan
        exact Nat.lt_succ_self _

theorem Runs.spaced {calls : List Call} (h : Runs {} calls s) : s.Spaced := by
  refine h.keeps Spaced.call ⟨.nil, .nil, ?_⟩
  exact fun span hspan => absurd hspan not_mem_nil

/-! ## Trees -/

/-- What holds of all that a session has built. -/
structure TreeSpec (s : Session) : Prop where
  /-- No two nodes have the same identity, in one tree or in two. -/
  distinct : (s.nodes.map Expr.id).Nodup
  /-- Every node of a tree comes after all nodes within it. -/
  rising : ∀ piece ∈ s.held, ∀ e ∈ piece.nodes, ∀ part ∈ e.descendants,
    part.id.index < e.id.index
  /-- The trees have the leaves that were placed, and no others. -/
  leaves : s.leaves ~ s.placed
  /-- Every leaf begins behind the end of all that were placed before it. -/
  apart : s.placed.Pairwise fun a b => a.stop < b.start

theorem Runs.treeSpec {calls : List Call} (h : Runs {} calls s) : TreeSpec s := by
  refine ⟨h.numbered.distinct, ?_, h.spaced.leaves, h.spaced.apart⟩
  intro piece hpiece e he
  exact h.numbered.rising e (mem_flatMap.mpr ⟨piece, hpiece, he⟩)

/-- `[(i = 1, 2)]`, one call after the other. -/
def loopCalls : List Call :=
  let first := (Build.literal (.integer "1")).run {}
  let last := (Build.literal (.integer "2")).run first.2
  let loop := (Build.impliedDo [] "i" first.1 last.1 none).run last.2
  [.literal (.integer "1"), .literal (.integer "2"), .impliedDo [] "i" first.1 last.1 none,
    .array [loop.1]]

theorem loop_treeSpec : ∃ s, Runs {} loopCalls s ∧ s.held.length = 1 ∧ TreeSpec s := by
  -- the second value comes to lie in front of the first one, and the loop takes both
  have hruns : ∃ s, Runs {} loopCalls s ∧ s.held.length = 1 :=
    ⟨_, .cons [] .nil <| .cons _ (.refl _) <| .cons [] (.swap _ _ []) <|
      .cons [] (.refl _) <| .nil _, rfl⟩
  obtain ⟨s, hs, hlength⟩ := hruns
  exact ⟨s, hs, hlength, hs.treeSpec⟩

end Session

end FortranTyping
