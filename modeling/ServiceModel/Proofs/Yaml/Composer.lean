/-
The composer reports no fault of its own but that of malformed texts: every other one is that of a
token it was given. All parts of the composer are run through together, by induction on the fuel.
-/
import ServiceModel.Yaml.Node
import Mathlib.Data.List.Basic

namespace ServiceModel.Yaml

namespace Composer

variable {tokens : List Token} {α β : Type}

/-- What is drawn from tokens satisfies `Q`, or has the fault of malformed texts or of a token. -/
inductive Draws (tokens : List Token) (Q : α → Prop) : Except Fault α → Prop
  | ok {a : α} : Q a → Draws tokens Q (.ok a)
  | malformed : Draws tokens Q (.error .malformed)
  | fault {token : Token} {fault : Fault} : token ∈ tokens → token.kind = .fault fault →
      Draws tokens Q (.error fault)

/-- The tokens to come are among those given. -/
def Over (tokens : List Token) (c : Composer) : Prop := c.tokens ⊆ tokens

theorem Draws.bind {Q : α → Prop} {R : β → Prop} {x : Except Fault α} {f : α → Except Fault β}
    (hx : Draws tokens Q x) (hf : ∀ a, Q a → Draws tokens R (f a)) :
    Draws tokens R (x >>= f) := by
  cases hx with
  | ok h => exact hf _ h
  | malformed => exact .malformed
  | fault hm hk => exact .fault hm hk

theorem Draws.ite {p : Prop} [Decidable p] {Q : α → Prop} {x y : Except Fault α}
    (hx : Draws tokens Q x) (hy : Draws tokens Q y) : Draws tokens Q (if p then x else y) := by
  split
  · exact hx
  · exact hy

/-! ## Single tokens -/

section

variable {c : Composer} (h : c.Over tokens)

include h

theorem peek_draws : Draws tokens (fun _ => True) c.peek := by
  unfold peek
  split
  · rename_i fault start stop rest ht
    have found : (⟨.fault fault, start, stop⟩ : Token) ∈ tokens := h (ht ▸ List.mem_cons_self)
    exact .fault found rfl
  · exact .ok trivial
  · exact .malformed

theorem over_next : c.next.Over tokens := fun _ hm => h (List.mem_of_mem_drop hm)

theorem over_name (anchor : Option String) (anchored : Anchored) :
    (c.name anchor anchored).Over tokens := by
  unfold name
  split <;> exact h

theorem isAt_draws (kinds : List TokenKind) : Draws tokens (fun _ => True) (c.isAt kinds) :=
  (peek_draws h).bind fun _ _ => .ok trivial

omit h in
theorem expandTag_draws (handle : Option String) (suffix : String) :
    Draws tokens (fun _ => True) (c.expandTag handle suffix) := by
  unfold expandTag
  split
  · exact .ok trivial
  · split
    · exact .ok trivial
    · exact .malformed

theorem properties_draws : Draws tokens (fun r => r.2.Over tokens) c.properties := by
  refine (peek_draws h).bind fun first _ => ?_
  split
  · refine (peek_draws (over_next h)).bind fun second _ => ?_
    split
    · exact (expandTag_draws _ _).bind fun _ _ => .ok (over_next (over_next h))
    · exact .ok (over_next h)
  · refine (peek_draws (over_next h)).bind fun second _ => ?_
    refine (expandTag_draws _ _).bind fun _ _ => ?_
    split
    · exact .ok (over_next (over_next h))
    · exact .ok (over_next h)
  · exact .ok h

theorem finish_draws (props : Properties) (n : Node) :
    Draws tokens (fun r => r.2.Over tokens) (finish props c n) := .ok (over_name h _ _)

theorem emptyContent_draws (props : Properties) :
    Draws tokens (fun r => r.2.Over tokens) (emptyContent props c) := by
  unfold emptyContent
  split
  · exact finish_draws h _ _
  · exact .malformed

end

/-! ## Nodes -/

/-- Whatever is composed with the given fuel is drawn from the tokens. -/
structure Drawn (tokens : List Token) (fuel : Nat) : Prop where
  node : ∀ block indentless {c : Composer}, c.Over tokens →
    Draws tokens (fun r => r.2.Over tokens) (node fuel block indentless c)
  blockItems : ∀ done {c : Composer}, c.Over tokens →
    Draws tokens (fun r => r.2.2.Over tokens) (blockItems fuel done c)
  indentlessItems : ∀ done {c : Composer}, c.Over tokens →
    Draws tokens (fun r => r.2.2.Over tokens) (indentlessItems fuel done c)
  blockEntries : ∀ done {c : Composer}, c.Over tokens →
    Draws tokens (fun r => r.2.2.Over tokens) (blockEntries fuel done c)
  flowValue : ∀ closing {c : Composer}, c.Over tokens →
    Draws tokens (fun r => r.2.Over tokens) (flowValue fuel closing c)
  flowPair : ∀ closing {c : Composer}, c.Over tokens →
    Draws tokens (fun r => r.2.2.Over tokens) (flowPair fuel closing c)
  flowItems : ∀ first done {c : Composer}, c.Over tokens →
    Draws tokens (fun r => r.2.2.Over tokens) (flowItems fuel first done c)
  flowEntries : ∀ first done {c : Composer}, c.Over tokens →
    Draws tokens (fun r => r.2.2.Over tokens) (flowEntries fuel first done c)

theorem drawn_zero : Drawn tokens 0 where
  node _ _ _ _ := .malformed
  blockItems _ _ _ := .malformed
  indentlessItems _ _ _ := .malformed
  blockEntries _ _ _ := .malformed
  flowValue _ _ _ := .malformed
  flowPair _ _ _ := .malformed
  flowItems _ _ _ _ := .malformed
  flowEntries _ _ _ _ := .malformed

section

variable {fuel : Nat} (ih : Drawn tokens fuel) {c : Composer} (h : c.Over tokens)

include ih h

theorem node_draws (block indentless : Bool) :
    Draws tokens (fun r => r.2.Over tokens) (node (fuel + 1) block indentless c) := by
  rw [node]
  refine (peek_draws h).bind fun first _ => ?_
  split
  · split
    · exact .ok (over_next h)
    · exact .ok (over_next h)
    · exact .malformed
  · refine (properties_draws h).bind ?_
    rintro ⟨props, c⟩ (hc : c.Over tokens)
    refine (peek_draws hc).bind fun token _ => .ite .malformed ?_
    have opened (start : Text.Position) := over_name hc props.anchor (.incomplete start)
    dsimp only
    split
    · refine .ite ((ih.indentlessItems _ (opened _)).bind fun _ hr => ?_) (emptyContent_draws hc _)
      exact finish_draws hr _ _
    · exact finish_draws (over_next hc) _ _
    · exact (ih.flowItems _ _ (over_next (opened _))).bind fun _ hr => finish_draws hr _ _
    · exact (ih.flowEntries _ _ (over_next (opened _))).bind fun _ hr => finish_draws hr _ _
    · refine .ite ((ih.blockItems _ (over_next (opened _))).bind fun _ hr => ?_)
        (emptyContent_draws hc _)
      exact finish_draws hr _ _
    · refine .ite ((ih.blockEntries _ (over_next (opened _))).bind fun _ hr => ?_)
        (emptyContent_draws hc _)
      exact finish_draws hr _ _
    · exact emptyContent_draws hc _

theorem blockItems_draws (done : List Node) :
    Draws tokens (fun r => r.2.2.Over tokens) (blockItems (fuel + 1) done c) := by
  rw [blockItems]
  refine (peek_draws h).bind fun token _ => ?_
  split
  · refine (isAt_draws (over_next h) _).bind fun _ _ => .ite (ih.blockItems _ (over_next h)) ?_
    exact (ih.node _ _ (over_next h)).bind fun _ hr => ih.blockItems _ hr
  · exact .ok (over_next h)
  · exact .malformed

theorem indentlessItems_draws (done : List Node) :
    Draws tokens (fun r => r.2.2.Over tokens) (indentlessItems (fuel + 1) done c) := by
  rw [indentlessItems]
  refine (peek_draws h).bind fun token _ => ?_
  split
  · refine (isAt_draws (over_next h) _).bind fun _ _ => .ite (ih.indentlessItems _ (over_next h)) ?_
    exact (ih.node _ _ (over_next h)).bind fun _ hr => ih.indentlessItems _ hr
  · exact .ok h

/-- What goes on with the node behind an indicator, or with the empty node where one of the kinds
follows. -/
theorem behind_draws {Q : β → Prop} (kinds : List TokenKind) (block indentless : Bool)
    (empty : Node) {next : Node × Composer → Except Fault β}
    (hn : ∀ r, r.2.Over tokens → Draws tokens Q (next r)) :
    Draws tokens Q (do
      if ← c.next.isAt kinds then
        let r ← pure (empty, c.next)
        next r
      else
        let r ← node fuel block indentless c.next
        next r) :=
  (isAt_draws (over_next h) _).bind fun _ _ =>
    .ite (hn (empty, c.next) (over_next h)) ((ih.node _ _ (over_next h)).bind hn)

theorem blockEntries_draws (done : List (Node × Node)) :
    Draws tokens (fun r => r.2.2.Over tokens) (blockEntries (fuel + 1) done c) := by
  rw [blockEntries]
  refine (peek_draws h).bind fun token _ => ?_
  split
  · dsimp only
    refine behind_draws ih h _ _ _ _ ?_
    rintro ⟨key, c⟩ (hc : c.Over tokens)
    refine (peek_draws hc).bind fun second _ => .ite ?_ (ih.blockEntries _ hc)
    exact behind_draws ih hc _ _ _ _ fun r hr => ih.blockEntries _ hr
  · exact .ok (over_next h)
  · exact .malformed

theorem flowValue_draws (closing : TokenKind) :
    Draws tokens (fun r => r.2.Over tokens) (flowValue (fuel + 1) closing c) := by
  rw [flowValue]
  refine (peek_draws h).bind fun token _ => .ite ?_ (.ok h)
  exact (isAt_draws (over_next h) _).bind fun _ _ =>
    .ite (.ok (over_next h)) (ih.node _ _ (over_next h))

theorem flowPair_draws (closing : TokenKind) :
    Draws tokens (fun r => r.2.2.Over tokens) (flowPair (fuel + 1) closing c) := by
  rw [flowPair]
  refine (peek_draws h).bind fun token _ => ?_
  dsimp only
  refine behind_draws ih h _ _ _ _ ?_
  rintro ⟨key, c⟩ (hc : c.Over tokens)
  exact (ih.flowValue _ hc).bind fun r hr => .ok hr

theorem flowItems_draws (first : Bool) (done : List Node) :
    Draws tokens (fun r => r.2.2.Over tokens) (flowItems (fuel + 1) first done c) := by
  rw [flowItems]
  refine (peek_draws h).bind fun token _ => .ite (.ok (over_next h)) (.ite .malformed ?_)
  have hc : (if first = true then c else c.next).Over tokens := by
    split
    · exact h
    · exact over_next h
  dsimp only
  refine (peek_draws hc).bind fun token _ => .ite ?_ (.ite (.ok (over_next hc)) ?_)
  · refine (ih.flowPair _ hc).bind fun r hr => ?_
    exact (peek_draws hr).bind fun stop _ => ih.flowItems _ _ hr
  · exact (ih.node _ _ hc).bind fun r hr => ih.flowItems _ _ hr

theorem flowEntries_draws (first : Bool) (done : List (Node × Node)) :
    Draws tokens (fun r => r.2.2.Over tokens) (flowEntries (fuel + 1) first done c) := by
  rw [flowEntries]
  refine (peek_draws h).bind fun token _ => .ite (.ok (over_next h)) (.ite .malformed ?_)
  have hc : (if first = true then c else c.next).Over tokens := by
    split
    · exact h
    · exact over_next h
  dsimp only
  refine (peek_draws hc).bind fun token _ => .ite ?_ (.ite (.ok (over_next hc)) ?_)
  · exact (ih.flowPair _ hc).bind fun r hr => ih.flowEntries _ _ hr
  · refine (ih.node _ _ hc).bind fun r hr => ?_
    exact (peek_draws hr).bind fun after _ => ih.flowEntries _ _ hr

end

theorem drawn (fuel : Nat) : Drawn tokens fuel := by
  induction fuel with
  | zero => exact drawn_zero
  | succ fuel ih =>
    exact {
      node := fun block indentless _ h => node_draws ih h block indentless
      blockItems := fun done _ h => blockItems_draws ih h done
      indentlessItems := fun done _ h => indentlessItems_draws ih h done
      blockEntries := fun done _ h => blockEntries_draws ih h done
      flowValue := fun closing _ h => flowValue_draws ih h closing
      flowPair := fun closing _ h => flowPair_draws ih h closing
      flowItems := fun first done _ h => flowItems_draws ih h first done
      flowEntries := fun first done _ h => flowEntries_draws ih h first done }

/-! ## Documents -/

theorem directives_draws {rest : List Token} (hr : rest ⊆ tokens) :
    ∀ {c : Composer} {versioned : Bool} {shorthands : List (String × String)},
      Draws tokens (Over tokens) (directives c versioned shorthands rest) := by
  intro c versioned shorthands
  fun_induction directives c versioned shorthands rest with
  | case1 => exact .malformed
  | case2 _ _ _ _ _ _ _ ih => exact ih fun _ hm => hr (List.mem_cons_of_mem _ hm)
  | case3 => exact .malformed
  | case4 _ _ _ _ _ _ _ _ ih => exact ih fun _ hm => hr (List.mem_cons_of_mem _ hm)
  | case5 _ _ _ _ _ ih => exact ih fun _ hm => hr (List.mem_cons_of_mem _ hm)
  | case6 => exact .ok hr

section

variable {c : Composer} (h : c.Over tokens)

include h

theorem document_draws : Draws tokens (fun r => r.2.Over tokens) c.document := by
  refine (peek_draws h).bind fun first _ => .ite ?_ ((drawn _).node _ _ h)
  refine (directives_draws h).bind fun c hc => ?_
  refine (peek_draws hc).bind fun mark _ => .ite .malformed ?_
  refine (peek_draws (over_next hc)).bind fun content _ => ?_
  exact .ite (.ok (over_next hc)) ((drawn _).node _ _ (over_next hc))

theorem atEnd_draws : Draws tokens (fun _ => True) c.atEnd := by
  have hc : ({ c with tokens := c.tokens.dropWhile (·.kind == .documentEnd) } : Composer).Over
      tokens := fun _ hm => h ((List.dropWhile_suffix _).subset hm)
  refine (peek_draws hc).bind fun first _ => .ite (.ok trivial) ?_
  refine (directives_draws hc).bind fun c hd => ?_
  exact (peek_draws hd).bind fun _ _ => .malformed

end

end Composer

/-- The node of a text, or the fault of malformed texts, or that of one of its tokens. -/
theorem Node.ofTokens_draws (tokens : List Token) :
    Composer.Draws tokens (fun _ => True) (Node.ofTokens tokens) := by
  have start : (⟨tokens, [], Composer.standardShorthands⟩ : Composer).Over tokens :=
    fun _ hm => hm
  refine (Composer.peek_draws start).bind fun first _ => .ite (.ok trivial) ?_
  refine (Composer.document_draws start).bind fun r hr => ?_
  exact (Composer.atEnd_draws hr).bind fun _ _ => .ok trivial

end ServiceModel.Yaml
