import Mathlib.Logic.Relation
import Assay.Tree

/-!
# Nodes and the tokens they cover

A tree that was read from tokens is spread over them: each node has the span of a segment of
the tokens, from its first to its last one, and its children follow one another inside that
segment.  A node may cover less than was read for it, since parentheses around an expression
leave no trace.  What the spans of such a tree have to do with each other follows from the
order of the tokens alone.
-/

namespace Assay

/-! ## Nodes -/

inductive Node where
  | expr (expr : Expr)
  | name (name : Identifier)
  | condition (condition : Condition)
  | stmt (stmt : Stmt)
  | block (block : Block)

def Expr.operands : Expr → List Expr
  | integer _ _ | float _ _ | bool _ _ | identifier _ | hole _ => []
  | value inner _ => [inner]
  | list elements _ => elements
  | unary _ operand _ => [operand]
  | chain _ operands _ _ => operands
  | comparison _ operands _ => operands
  | ternary operands _ => operands

namespace Node

def span : Node → Span
  | expr tree => tree.span
  | name identifier => identifier.span
  | condition guard => guard.span
  | stmt tree => tree.span
  | block body => body.span

def children : Node → List Node
  | expr tree => tree.operands.map expr
  | name _ => []
  | condition guard => guard.expr?.toList.map expr
  | stmt (.declare identifier _ value? _) => name identifier :: value?.toList.map expr
  | stmt (.assign identifier value _) => [name identifier, expr value]
  | stmt (.branch guard thenBody elseBody? _) =>
      condition guard :: block thenBody :: elseBody?.toList.map block
  | stmt (.loop guard body _) => [condition guard, block body]
  | stmt (.doLoop body guard _) => [block body, condition guard]
  | block body => body.body.map stmt

def HasChild (parent child : Node) : Prop := child ∈ parent.children

end Node

/-! ## Segments of tokens -/

/-- The span runs from the start of the first token of a segment to the end of its last. -/
structure Span.Covers (span : Span) (segment : List Token) : Prop where
  start : segment.head?.map (·.span.start) = some span.start
  stop : segment.getLast?.map (·.span.stop) = some span.stop

theorem Span.covers_singleton (token : Token) : token.span.Covers [token] := ⟨rfl, rfl⟩

theorem Span.covers_between (first last : Token) (inner : List Token) :
    Span.Covers ⟨first.span.start, last.span.stop⟩ (first :: (inner ++ [last])) where
  start := rfl
  stop := by simp [List.getLast?_cons]

theorem Span.Covers.append {span later : Span} {segment after : List Token}
    (h : span.Covers segment) (between : List Token) (hlater : later.Covers after) :
    Span.Covers ⟨span.start, later.stop⟩ (segment ++ (between ++ after)) where
  start := by
    cases segment with
    | nil => cases h.start
    | cons first others => exact h.start
  stop := by
    have hstop := hlater.stop
    cases hlast : after.getLast? with
    | none => simp [hlast] at hstop
    | some last => simpa [List.getLast?_append, hlast] using hstop

namespace Node

/-- The nodes cover segments of the tokens, one after the other. -/
inductive InOrder : List Token → List Node → Prop where
  | nil {tokens : List Token} : InOrder tokens []
  | cons {before segment after : List Token} {node : Node} {nodes : List Node}
      (hnode : node.span.Covers segment) (hnodes : InOrder after nodes) :
      InOrder (before ++ (segment ++ after)) (node :: nodes)

namespace InOrder

variable {tokens more : List Token} {node : Node} {nodes others : List Node}

theorem append_left (h : InOrder tokens nodes) (before : List Token) :
    InOrder (before ++ tokens) nodes := by
  cases h with
  | nil => exact .nil
  | cons hnode hnodes =>
      rw [← List.append_assoc]
      exact .cons hnode hnodes

theorem append (h : InOrder tokens nodes) (hothers : InOrder more others) :
    InOrder (tokens ++ more) (nodes ++ others) := by
  induction h with
  | nil => exact hothers.append_left _
  | cons hnode _ ih =>
      rw [List.append_assoc, List.append_assoc]
      exact .cons hnode ih

theorem singleton (h : node.span.Covers tokens) : InOrder tokens [node] := by
  have horder : InOrder ([] ++ (tokens ++ [])) [node] := .cons h .nil
  simpa using horder

theorem trim (h : InOrder tokens (node :: nodes)) {last : Node}
    (hlast : last ∈ (node :: nodes).getLast?) :
    ∃ before segment after, tokens = before ++ (segment ++ after) ∧
      InOrder segment (node :: nodes) ∧
      Span.Covers ⟨node.span.start, last.span.stop⟩ segment := by
  induction nodes generalizing tokens node with
  | nil =>
      cases hlast
      cases h with
      | cons hnode hnodes => exact ⟨_, _, _, rfl, .singleton hnode, hnode⟩
  | cons next nodes ih =>
      cases h with
      | @cons before segment after _ _ hnode hnodes =>
          -- The tokens between the first node and the next one belong to the new segment.
          rcases ih hnodes hlast with ⟨between, segment', after', rfl, horder, hcovers⟩
          have hall : InOrder ([] ++ (segment ++ (between ++ segment'))) (node :: next :: nodes) :=
            .cons hnode (horder.append_left between)
          have hspan := hnode.append between hcovers
          exact ⟨before, segment ++ (between ++ segment'), after', by simp, hall, hspan⟩

end InOrder

/-- The node has the span of a segment of the tokens, and its children follow one another in
that segment. -/
def Framed (tokens : List Token) (node : Node) : Prop :=
  ∃ segment, segment <:+: tokens ∧ node.span.Covers segment ∧ InOrder segment node.children

theorem Framed.mono {tokens more : List Token} {node : Node} (h : Framed tokens node)
    (hmore : tokens <:+: more) : Framed more node := by
  rcases h with ⟨segment, hsegment, hspan, hchildren⟩
  exact ⟨segment, hsegment.trans hmore, hspan, hchildren⟩

structure Spread (tokens : List Token) (nodes : List Node) : Prop where
  order : InOrder tokens nodes
  framed : ∀ root ∈ nodes, ∀ node, Relation.ReflTransGen HasChild root node → Framed tokens node

namespace Spread

variable {tokens more : List Token} {node : Node} {nodes others : List Node}

theorem nil : Spread tokens [] := ⟨.nil, nofun⟩

theorem append (h : Spread tokens nodes) (hothers : Spread more others) :
    Spread (tokens ++ more) (nodes ++ others) where
  order := h.order.append hothers.order
  framed := by
    intro root hroot node hnode
    rcases List.mem_append.mp hroot with hmem | hmem
    · exact (h.framed root hmem node hnode).mono (List.prefix_append ..).isInfix
    · exact (hothers.framed root hmem node hnode).mono (List.suffix_append ..).isInfix

theorem behind (h : Spread tokens nodes) (before : List Token) :
    Spread (before ++ tokens) nodes := by
  have hnil : Spread before [] := .nil
  exact hnil.append h

theorem ahead (h : Spread tokens nodes) (after : List Token) : Spread (tokens ++ after) nodes := by
  have hnil : Spread after [] := .nil
  have hall := h.append hnil
  rwa [List.append_nil] at hall

theorem parent {segment : List Token} (h : Spread tokens node.children)
    (hsegment : ∃ before after, tokens = before ++ (segment ++ after))
    (hspan : node.span.Covers segment) (horder : InOrder segment node.children) :
    Spread tokens [node] := by
  rcases hsegment with ⟨before, after, rfl⟩
  refine ⟨.cons hspan .nil, ?_⟩
  intro root hroot part hpart
  cases List.mem_singleton.mp hroot
  rcases hpart.cases_head with rfl | ⟨child, hchild, hpart⟩
  · exact ⟨segment, ⟨before, after, by simp⟩, hspan, horder⟩
  · exact h.framed child hchild part hpart

theorem whole (h : Spread tokens node.children) (hspan : node.span.Covers tokens) :
    Spread tokens [node] :=
  h.parent ⟨[], [], by simp⟩ hspan h.order

theorem leaf {token : Token} (hchildren : node.children = []) (hspan : node.span = token.span) :
    Spread [token] [node] := by
  refine .whole ?_ ?_
  · rw [hchildren]
    exact .nil
  · rw [hspan]
    exact Span.covers_singleton token

theorem enclosed (h : Spread tokens node.children) {first last : Token}
    (hspan : node.span = ⟨first.span.start, last.span.stop⟩) :
    Spread (first :: (tokens ++ [last])) [node] := by
  refine .whole ((h.ahead [last]).behind [first]) ?_
  rw [hspan]
  exact Span.covers_between first last tokens

theorem hull {first last : Node} (h : Spread tokens node.children)
    (hchildren : node.children = first :: others) (hlast : last ∈ node.children.getLast?)
    (hspan : node.span = ⟨first.span.start, last.span.stop⟩) : Spread tokens [node] := by
  have horder := h.order
  rw [hchildren] at horder hlast
  rcases horder.trim hlast with ⟨before, segment, after, htokens, hsegment, hcovers⟩
  rw [← hspan] at hcovers
  rw [← hchildren] at hsegment
  exact h.parent ⟨before, after, htokens⟩ hcovers hsegment

theorem opened {first last : Node} (h : Spread tokens node.children) (token : Token)
    (hchildren : node.children = first :: others) (hlast : last ∈ node.children.getLast?)
    (hspan : node.span = ⟨token.span.start, last.span.stop⟩) : Spread (token :: tokens) [node] := by
  have horder := h.order
  rw [hchildren] at horder hlast
  rcases horder.trim hlast with ⟨before, segment, after, htokens, hsegment, hcovers⟩
  have hopened := (Span.covers_singleton token).append before hcovers
  rw [← hchildren] at hsegment
  refine (h.behind [token]).parent ⟨[], after, by simp [htokens]⟩ (hspan ▸ hopened) ?_
  exact (hsegment.append_left before).append_left [token]

end Spread

end Node

/-! ## Spans and the order of the tokens -/

/-- No token is empty, and none starts before the end of an earlier one. -/
structure Token.Apart (tokens : List Token) : Prop where
  proper : ∀ token ∈ tokens, token.span.start.offset.toNat < token.span.stop.offset.toNat
  apart : tokens.Pairwise fun token other =>
    token.span.stop.offset.toNat ≤ other.span.start.offset.toNat

theorem Token.Apart.of_infix {tokens segment : List Token} (h : Apart tokens)
    (hsegment : segment <:+: tokens) : Apart segment where
  proper token htoken := h.proper token (hsegment.subset htoken)
  apart := h.apart.sublist hsegment.sublist

namespace Span

def Inside (inner outer : Span) : Prop :=
  outer.start.offset.toNat ≤ inner.start.offset.toNat ∧
    inner.stop.offset.toNat ≤ outer.stop.offset.toNat

def Before (span other : Span) : Prop := span.stop.offset.toNat ≤ other.start.offset.toNat

namespace Covers

variable {span inner : Span} {segment part : List Token}

theorem ends (h : span.Covers segment) :
    ∃ first ∈ segment, ∃ last ∈ segment,
      span.start = first.span.start ∧ span.stop = last.span.stop := by
  rcases Option.map_eq_some_iff.mp h.start with ⟨first, hfirst, hstart⟩
  rcases Option.map_eq_some_iff.mp h.stop with ⟨last, hlast, hstop⟩
  exact ⟨first, List.mem_of_mem_head? hfirst, last, List.mem_of_mem_getLast? hlast,
    hstart.symm, hstop.symm⟩

theorem encloses (h : span.Covers segment) (hapart : Token.Apart segment) {token : Token}
    (htoken : token ∈ segment) : token.span.Inside span := by
  constructor
  · rcases Option.map_eq_some_iff.mp h.start with ⟨first, hfirst, hstart⟩
    rcases List.head?_eq_some_iff.mp hfirst with ⟨others, rfl⟩
    rw [← hstart]
    rcases List.mem_cons.mp htoken with rfl | hothers
    · exact Nat.le_refl _
    · have hproper := hapart.proper first List.mem_cons_self
      have hbefore := (List.pairwise_cons.mp hapart.apart).1 token hothers
      omega
  · rcases Option.map_eq_some_iff.mp h.stop with ⟨last, hlast, hstop⟩
    rcases List.getLast?_eq_some_iff.mp hlast with ⟨others, rfl⟩
    rw [← hstop]
    rcases List.mem_append.mp htoken with hothers | hsingle
    · have hproper := hapart.proper last (by simp)
      have hbefore := (List.pairwise_append.mp hapart.apart).2.2 token hothers last (by simp)
      omega
    · cases List.mem_singleton.mp hsingle
      exact Nat.le_refl _

theorem proper (h : span.Covers segment) (hapart : Token.Apart segment) :
    span.start.offset.toNat < span.stop.offset.toNat := by
  rcases h.ends with ⟨first, hfirst, -⟩
  have hinside := h.encloses hapart hfirst
  have hproper := hapart.proper first hfirst
  unfold Inside at hinside
  omega

theorem inside (h : span.Covers segment) (hapart : Token.Apart segment)
    (hinner : inner.Covers part) (hpart : part <:+: segment) : inner.Inside span := by
  rcases hinner.ends with ⟨first, hfirst, last, hlast, hstart, hstop⟩
  have hfirst := h.encloses hapart (hpart.subset hfirst)
  have hlast := h.encloses hapart (hpart.subset hlast)
  exact ⟨by rw [hstart]; exact hfirst.1, by rw [hstop]; exact hlast.2⟩

end Covers

end Span

namespace Node

theorem InOrder.covers {tokens : List Token} {nodes : List Node} (h : InOrder tokens nodes)
    {node : Node} (hnode : node ∈ nodes) :
    ∃ segment, segment <:+: tokens ∧ node.span.Covers segment := by
  induction h with
  | nil => cases hnode
  | @cons before segment after first nodes hfirst _ ih =>
      rcases List.mem_cons.mp hnode with rfl | hmem
      · exact ⟨segment, ⟨before, after, by simp⟩, hfirst⟩
      · rcases ih hmem with ⟨part, hpart, hcovers⟩
        have hafter : after <:+: before ++ (segment ++ after) := ⟨before ++ segment, [], by simp⟩
        exact ⟨part, hpart.trans hafter, hcovers⟩

theorem InOrder.pairwise {tokens : List Token} {nodes : List Node} (h : InOrder tokens nodes)
    (hapart : Token.Apart tokens) :
    nodes.Pairwise fun node other => node.span.Before other.span := by
  induction h with
  | nil => exact .nil
  | @cons before segment after node nodes hnode hnodes ih =>
      have hafter : after <:+: before ++ (segment ++ after) := ⟨before ++ segment, [], by simp⟩
      refine List.pairwise_cons.mpr ⟨?_, ih (hapart.of_infix hafter)⟩
      intro other hother
      rcases hnodes.covers hother with ⟨part, hpart, hcovers⟩
      rcases hcovers.ends with ⟨first, hfirst, -, -, hstart, -⟩
      rcases hnode.ends with ⟨-, -, last, hlast, -, hstop⟩
      have hbehind := (List.pairwise_append.mp hapart.apart).2.1
      rw [Span.Before, hstart, hstop]
      exact (List.pairwise_append.mp hbehind).2.2 last hlast first (hpart.subset hfirst)

theorem Framed.inside {tokens : List Token} {node child : Node} (h : Framed tokens node)
    (hapart : Token.Apart tokens) (hchild : child ∈ node.children) :
    child.span.Inside node.span := by
  rcases h with ⟨segment, hsegment, hspan, horder⟩
  rcases horder.covers hchild with ⟨part, hpart, hcovers⟩
  exact hspan.inside (hapart.of_infix hsegment) hcovers hpart

theorem Framed.pairwise {tokens : List Token} {node : Node} (h : Framed tokens node)
    (hapart : Token.Apart tokens) :
    node.children.Pairwise fun child other => child.span.Before other.span := by
  rcases h with ⟨segment, hsegment, -, horder⟩
  exact horder.pairwise (hapart.of_infix hsegment)

end Node

end Assay
