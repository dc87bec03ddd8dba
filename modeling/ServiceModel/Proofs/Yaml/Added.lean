/-
What a step of the lexer adds to the tokens: the tokens so far stay, and every part of the lexer
adds one of its own kind. So the tokens of a text tell which steps were taken.
-/
import ServiceModel.Proofs.Yaml.Blocks
import Mathlib.Data.List.Perm.Subperm

namespace ServiceModel.Yaml.Lexer

/-- The kinds of the tokens so far, the last one first. -/
def kinds (l : Lexer) : List TokenKind := l.reversed.map (·.kind)

/-- Wherever the step leads, the tokens of the lexer are still there. -/
def Keeps (l : Lexer) (step : Except Fault Lexer) : Prop :=
  ∀ next, step = .ok next → l.kinds.Subperm next.kinds

/-- Wherever the step leads, there is one more token, whose kind satisfies `P`. -/
def Adds (P : TokenKind → Prop) (l : Lexer) (step : Except Fault Lexer) : Prop :=
  ∀ next, step = .ok next → ∃ kind, P kind ∧ (kind :: l.kinds).Subperm next.kinds

/-- The kind is neither that of a plain scalar nor that of an end. -/
def Telling : TokenKind → Prop
  | .scalar _ .plain | .blockEnd | .textEnd => False
  | _ => True

variable {P : TokenKind → Prop} {l m : Lexer}

theorem Keeps.ok (h : l.kinds.Subperm m.kinds) : Keeps l (.ok m) := by
  rintro next ⟨⟩
  exact h

theorem Keeps.error {fault : Fault} : Keeps l (.error fault) := nofun

theorem Adds.error {fault : Fault} : Adds P l (.error fault) := nofun

theorem Adds.take {kind : TokenKind} (hk : P kind) (h : l.kinds.Subperm m.kinds) (width : Nat) :
    Adds P l (.ok (m.take kind width)) := by
  rintro next ⟨⟩
  exact ⟨kind, hk, (List.subperm_cons kind).2 h⟩

theorem Adds.bind {x : Except Fault Lexer} {f : Lexer → Except Fault Lexer} (hx : Keeps l x)
    (hf : ∀ m, l.kinds.Subperm m.kinds → Adds P l (f m)) : Adds P l (x >>= f) := by
  cases x with
  | error fault => exact .error
  | ok m => exact hf m (hx m rfl)

/-! ## Keys and blocks -/

theorem dropKey_keeps (l : Lexer) : Keeps l l.dropKey := by
  unfold dropKey
  split
  · split
    · exact .error
    · exact .ok (List.Subperm.refl _)
  · exact .ok (List.Subperm.refl _)

theorem markKey_keeps (l : Lexer) : Keeps l l.markKey := by
  have kept := dropKey_keeps l
  unfold markKey
  split
  · cases hd : l.dropKey with
    | error fault => exact .error
    | ok m => exact .ok (kept m hd)
  · exact .ok (List.Subperm.refl _)

/-- Closing blocks adds ends of blocks only. -/
theorem closeBlocks_kinds (column : Nat) (outer : List Nat) : ∀ l : Lexer,
    ∃ count, (closeBlocks column l outer).kinds = List.replicate count .blockEnd ++ l.kinds := by
  induction outer with
  | nil => exact fun l => ⟨0, rfl⟩
  | cons next outer ih =>
    intro l
    rw [closeBlocks]
    split
    · obtain ⟨count, kinds⟩ := ih { l.pushHere .blockEnd with indent := next, outer := outer }
      refine ⟨count + 1, kinds.trans ?_⟩
      rw [List.replicate_succ', List.append_assoc]
      rfl
    · exact ⟨0, rfl⟩

theorem unwind_kinds (l : Lexer) (column : Nat) :
    ∃ count, (l.unwind column).kinds = List.replicate count .blockEnd ++ l.kinds := by
  unfold unwind
  split
  · exact ⟨0, rfl⟩
  · exact closeBlocks_kinds _ _ _

theorem unwind_subperm (l : Lexer) (column : Nat) : l.kinds.Subperm (l.unwind column).kinds := by
  obtain ⟨count, kinds⟩ := unwind_kinds l column
  rw [kinds]
  exact (List.sublist_append_right _ _).subperm

theorem blockItem_keeps (l : Lexer) (collection : TokenKind) :
    Keeps l (l.blockItem collection) := by
  unfold blockItem
  split
  · exact .ok (List.Subperm.refl _)
  · split
    · exact .error
    · split
      · exact .ok (List.sublist_cons_self _ _).subperm
      · exact .ok (List.Subperm.refl _)

theorem insertAt_subperm (l : Lexer) (index : Nat) (added : List Token) :
    l.kinds.Subperm (l.insertAt index added).kinds := by
  have split : l.reversed.take (l.count - index) ++ l.reversed.drop (l.count - index) =
      l.reversed := List.take_append_drop _ _
  have longer : (l.reversed.take (l.count - index) ++ l.reversed.drop (l.count - index)).Sublist
      (l.insertAt index added).reversed :=
    (List.Sublist.refl _).append (List.sublist_append_right _ _)
  rw [split] at longer
  exact (longer.map _).subperm

/-! ## Tokens -/

theorem documentMark_adds {kind : TokenKind} (hk : P kind) (l : Lexer) :
    Adds P l (l.documentMark kind) :=
  .bind (fun m hm => (unwind_subperm l 0).trans (dropKey_keeps _ m hm))
    fun m hm => @Adds.take P l { m with keyAllowed := false } _ hk hm 3

theorem openFlow_adds {kind : TokenKind} (hk : P kind) (l : Lexer) : Adds P l (l.openFlow kind) :=
  .bind (markKey_keeps l) fun m hm =>
    @Adds.take P l { m with keyAllowed := true, key := none, outerKeys := m.key :: m.outerKeys } _
      hk hm 1

theorem closeFlow_adds {kind : TokenKind} (hk : P kind) (l : Lexer) :
    Adds P l (l.closeFlow kind) := by
  refine .bind (dropKey_keeps l) fun m hm => ?_
  split
  · exact .error
  · rename_i key outerKeys _
    exact @Adds.take P l { m with keyAllowed := false, key := key, outerKeys := outerKeys } _
      hk hm 1

theorem flowEntry_adds (hk : P .flowEntry) (l : Lexer) : Adds P l l.flowEntry :=
  .bind (dropKey_keeps { l with keyAllowed := true }) fun _ hm => .take hk hm 1

theorem blockEntry_adds (hk : P .blockEntry) (l : Lexer) : Adds P l l.blockEntry :=
  .bind (blockItem_keeps l _) fun m hm =>
    .bind (fun n hn => hm.trans (dropKey_keeps { m with keyAllowed := true } n hn))
      fun _ hn => .take hk hn 1

theorem explicitKey_adds (hk : P .key) (l : Lexer) : Adds P l l.explicitKey :=
  .bind (blockItem_keeps l _) fun m hm =>
    .bind (fun n hn => hm.trans (dropKey_keeps { m with keyAllowed := !m.inFlow } n hn))
      fun _ hn => .take hk hn 1

theorem value_adds (hk : P .value) (l : Lexer) : Adds P l l.value := by
  unfold value
  split
  · dsimp only
    split
    · exact .take hk (insertAt_subperm (Lexer.openBlock _ _) _ _) 1
    · exact .take hk (insertAt_subperm { l with key := none, keyAllowed := false } _ _) 1
  · exact .bind (blockItem_keeps l _) fun m hm =>
      .bind (fun n hn => hm.trans (dropKey_keeps { m with keyAllowed := !m.inFlow } n hn))
        fun _ hn => .take hk hn 1

theorem named_adds {kind : String → TokenKind} (hk : ∀ name, P (kind name)) (l : Lexer) :
    Adds P l (l.named kind) := by
  refine .bind (markKey_keeps l) fun m hm => ?_
  split
  · exact .error
  · exact @Adds.take P l { m with keyAllowed := false } _ (hk _) hm _

theorem tag_adds (hk : ∀ handle suffix, P (.tag handle suffix)) (l : Lexer) : Adds P l l.tag := by
  refine .bind (markKey_keeps l) fun m hm => ?_
  dsimp only
  split
  · exact .error
  · split
    · exact @Adds.take P l { m with keyAllowed := false } _ (hk _ _) hm _
    · exact .error

theorem blockScalar_adds (hk : ∀ text, P (.scalar text .marked)) (l : Lexer) (folding : Bool) :
    Adds P l (l.blockScalar folding) := by
  refine .bind (dropKey_keeps { l with keyAllowed := true }) fun m hm => ?_
  split
  · exact .error
  · exact .take (hk _) hm _

/-- A text between quotes is not written plainly. -/
theorem betweenQuotes_form {double : Bool} {rest text : List Char} {form : ScalarForm} {width : Nat}
    (h : betweenQuotes double rest = .ok ((text, form), width)) : form ≠ .plain := by
  cases double with
  | true =>
    cases hq : doubleQuoted [] .none 0 rest with
    | error fault =>
      rw [betweenQuotes, if_pos rfl, hq] at h
      cases h
    | ok r =>
      rw [betweenQuotes, if_pos rfl, hq] at h
      cases h
      split <;> decide
  | false =>
    cases hq : singleQuoted [] .none 0 rest with
    | error fault =>
      rw [betweenQuotes, if_neg Bool.false_ne_true, hq] at h
      cases h
    | ok r =>
      rw [betweenQuotes, if_neg Bool.false_ne_true, hq] at h
      cases h
      decide

theorem quotedScalar_adds (hk : ∀ text form, form ≠ .plain → P (.scalar text form)) (l : Lexer)
    (double : Bool) : Adds P l (l.quotedScalar double) := by
  refine .bind (markKey_keeps l) fun m hm => ?_
  cases hq : betweenQuotes double (m.cursor.rest.drop 1) with
  | error fault => exact .error
  | ok r =>
    obtain ⟨⟨text, form⟩, width⟩ := r
    exact @Adds.take P l { m with keyAllowed := false } _ (hk _ _ (betweenQuotes_form hq)) hm _

theorem directive_adds (hv : ∀ major, P (.version major))
    (hs : ∀ handle lead, P (.shorthand handle lead)) (ho : P .otherDirective) (l : Lexer) :
    Adds P l l.directive := by
  refine .bind (fun m hm => (unwind_subperm l 0).trans (dropKey_keeps _ m hm)) fun m hm => ?_
  dsimp only [bind, Except.bind]
  split
  · exact .error
  · rename_i r hd
    obtain ⟨kind, after⟩ := r
    have known : P kind := by
      rcases directiveText_cases hd with ⟨major, rfl⟩ | ⟨handle, lead, rfl⟩ | rfl
      · exact hv major
      · exact hs handle lead
      · exact ho
    split
    · exact .error
    · rintro next ⟨⟩
      exact ⟨kind, known, (List.subperm_cons kind).2 hm⟩

/-- What a character starts is the plain scalar, where one may start, or adds a telling token. -/
theorem tokenAt_adds (l : Lexer) (c : Char) (rest : List Char) :
    (startsPlain l.inFlow c rest = true ∧ l.tokenAt c rest = l.plainScalar) ∨
      Adds Telling l (l.tokenAt c rest) := by
  have ite {p : Prop} [Decidable p] {x y : Except Fault Lexer} (hx : Adds Telling l x)
      (hy : (startsPlain l.inFlow c rest = true ∧ y = l.plainScalar) ∨ Adds Telling l y) :
      (startsPlain l.inFlow c rest = true ∧ (if p then x else y) = l.plainScalar) ∨
        Adds Telling l (if p then x else y) := by
    split
    · exact .inr hx
    · exact hy
  have mark : Telling (if c = '-' then TokenKind.documentStart else .documentEnd) := by
    split <;> trivial
  have quoted (text : String) (form : ScalarForm) (hf : form ≠ .plain) :
      Telling (.scalar text form) := by
    cases form with
    | plain => exact hf rfl
    | marked => trivial
    | halved => trivial
  unfold tokenAt
  dsimp only
  refine ite (directive_adds (fun _ => trivial) (fun _ _ => trivial) trivial l)
    (ite (documentMark_adds mark l) ?_)
  refine ite (openFlow_adds trivial l) (ite (openFlow_adds trivial l) ?_)
  refine ite (closeFlow_adds trivial l) (ite (closeFlow_adds trivial l) ?_)
  refine ite (flowEntry_adds trivial l) (ite (blockEntry_adds trivial l) ?_)
  refine ite (explicitKey_adds trivial l) (ite (value_adds trivial l) ?_)
  refine ite (named_adds (fun _ => trivial) l) (ite (named_adds (fun _ => trivial) l) ?_)
  refine ite (tag_adds (fun _ _ => trivial) l) ?_
  refine ite (blockScalar_adds (fun _ => trivial) l false) ?_
  refine ite (blockScalar_adds (fun _ => trivial) l true) ?_
  refine ite (quotedScalar_adds quoted l false) ?_
  refine ite (quotedScalar_adds quoted l true) ?_
  split
  · rename_i starts
    exact .inl ⟨starts, rfl⟩
  · exact .inr .error

/-! ## Steps -/

theorem plainScalar_kinds {next : Lexer} (h : l.plainScalar = .ok next) :
    next.kinds = .scalar (String.ofList (plain l.inFlow l.indent l.cursor.rest).1) .plain ::
      l.kinds := by
  have marked {m : Lexer} (hm : l.markKey = .ok m) : ∃ key, m = { l with key := key } := by
    unfold markKey at hm
    split at hm
    · unfold dropKey at hm
      split at hm
      · split at hm
        · cases hm
        · cases hm
          exact ⟨_, rfl⟩
      · cases hm
        exact ⟨_, rfl⟩
    · cases hm
      exact ⟨_, rfl⟩
  cases hm : l.markKey with
  | error fault =>
    unfold plainScalar at h
    rw [hm] at h
    cases h
  | ok m =>
    unfold plainScalar at h
    rw [hm] at h
    obtain ⟨key, rfl⟩ := marked hm
    cases h
    rfl

theorem gathered_of_dropStale (h : l.skipGap.dropStale = .ok m) : m = l.gathered := by
  unfold dropStale at h
  dsimp only at h
  split at h
  · cases h
  · exact (Except.ok.inj h).symm

/-- A step takes the token behind the gap, after the blocks that end there. -/
theorem step_ok {next : Lexer} (h : l.step = .ok next) {front : Lexer}
    (hf : front = l.gathered.unwind l.gathered.cursor.column) :
    (front.cursor.rest = [] ∧ front.textEnd = .ok next) ∨
      ∃ c rest, front.cursor.rest = c :: rest ∧ front.tokenAt c rest = .ok next := by
  subst hf
  unfold Lexer.step at h
  cases hd : l.skipGap.dropStale with
  | error fault =>
    rw [hd] at h
    cases h
  | ok m =>
    rw [hd] at h
    dsimp only [bind, Except.bind] at h
    rw [gathered_of_dropStale hd] at h
    split at h
    · exact .inl ⟨‹_›, h⟩
    · exact .inr ⟨_, _, ‹_›, h⟩

theorem textEnd_kinds {next : Lexer} (h : l.textEnd = .ok next) :
    ∃ count, next.kinds = .textEnd :: (List.replicate count .blockEnd ++ l.kinds) := by
  obtain ⟨count, kinds⟩ := unwind_kinds l 0
  unfold textEnd dropKey at h
  split at h
  · split at h
    · cases h
    · cases h
      exact ⟨count, congrArg (TokenKind.textEnd :: ·) kinds⟩
  · cases h
    exact ⟨count, congrArg (TokenKind.textEnd :: ·) kinds⟩

/-- A step takes no token back. -/
theorem step_keeps (l : Lexer) : Keeps l l.step := by
  intro next h
  have unwound : l.kinds.Subperm (l.gathered.unwind l.gathered.cursor.column).kinds :=
    unwind_subperm l.gathered _
  refine unwound.trans ?_
  rcases step_ok h rfl with ⟨-, ends⟩ | ⟨c, rest, -, token⟩
  · obtain ⟨count, kinds⟩ := textEnd_kinds ends
    rw [kinds]
    exact ((List.sublist_append_right _ _).cons _).subperm
  · rcases tokenAt_adds (l.gathered.unwind l.gathered.cursor.column) c rest with
      ⟨-, plain⟩ | adds
    · rw [plainScalar_kinds (plain.symm.trans token)]
      exact (List.sublist_cons_self _ _).subperm
    · obtain ⟨kind, -, more⟩ := adds next token
      exact (List.sublist_cons_self _ _).subperm.trans more

/-! ## Runs -/

/-- The tokens tell of no fault. -/
def Faultless (kinds : List TokenKind) : Prop := ∀ fault, .fault fault ∉ kinds

theorem broken_fault (l : Lexer) (fault : Fault) :
    .fault fault ∈ (l.broken fault).map (·.kind) :=
  List.mem_map.2 ⟨_, List.mem_reverse.2 List.mem_cons_self, rfl⟩

/-- Where the tokens tell of no fault, there is a next step. -/
theorem run_step {fuel : Nat} (h : Faultless ((l.run fuel).map (·.kind))) :
    ∃ less next, fuel = less + 1 ∧ l.step = .ok next ∧
      l.run fuel = if next.reversed.head?.any (·.kind == .textEnd) then next.reversed.reverse
        else next.run less := by
  cases fuel with
  | zero => exact absurd (broken_fault l .malformed) (h .malformed)
  | succ fuel =>
    cases hs : l.step with
    | error fault =>
      unfold run at h
      rw [hs] at h
      exact absurd (broken_fault l fault) (h fault)
    | ok next =>
      refine ⟨fuel, next, rfl, rfl, ?_⟩
      rw [run, hs]

/-- A run without a fault takes no token back. -/
theorem run_keeps {fuel : Nat} (h : Faultless ((l.run fuel).map (·.kind))) :
    l.kinds.Subperm ((l.run fuel).map (·.kind)) := by
  induction fuel generalizing l with
  | zero =>
    obtain ⟨less, -, impossible, -⟩ := run_step h
    cases impossible
  | succ fuel ih =>
    obtain ⟨less, next, same, step, run⟩ := run_step h
    cases same
    refine (step_keeps l next step).trans ?_
    rw [run] at h ⊢
    split
    · rw [List.map_reverse]
      exact (List.reverse_perm _).symm.subperm
    · rename_i goes
      rw [if_neg goes] at h
      exact ih h

/-- The tokens of the next step are among those of a run without a fault. -/
theorem run_next {fuel : Nat} (h : Faultless ((l.run fuel).map (·.kind))) :
    ∃ next, l.step = .ok next ∧ next.kinds.Subperm ((l.run fuel).map (·.kind)) ∧
      (next.kinds.head? = some .textEnd → (l.run fuel).map (·.kind) = next.kinds.reverse) := by
  obtain ⟨less, next, rfl, step, run⟩ := run_step h
  refine ⟨next, step, ?_, fun ends => ?_⟩
  · rw [run] at h ⊢
    split
    · rw [List.map_reverse]
      exact (List.reverse_perm _).symm.subperm
    · rename_i goes
      rw [if_neg goes] at h
      exact run_keeps h
  · have finished : next.reversed.head?.any (·.kind == .textEnd) = true := by
      obtain ⟨last, hl, kind⟩ := Option.map_eq_some_iff.1 (List.head?_map.symm.trans ends)
      rw [hl]
      exact beq_iff_eq.2 kind
    rw [run, if_pos finished, List.map_reverse]
    rfl

end ServiceModel.Yaml.Lexer
