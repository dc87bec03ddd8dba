/-
The discipline of guards. Whatever is entered and given up, in any order, the keys that are held
are distinct and never more than the limit allows; whether a key can be entered is decided by them
alone, and an entry that is refused changes nothing. Blocks that are guarded one inside the other
hold in the end what they held at the start, be their outcome a value or a failure at any depth.
The synthesis is such a block.
-/
import ServiceModel.Proofs.Synthesis.Keys
import ServiceModel.Proofs.Synthesis.Session
import Mathlib.Data.List.Nodup

namespace ServiceModel

open Service

variable {α β : Type}

namespace Guards

/-! ## Guards that are held -/

/-- No key is held twice, and no more keys than the limit allows. -/
structure Proper (g : Guards) : Prop where
  distinct : g.held.Nodup
  within : (g.held.length : Int) ≤ max 0 g.limit

theorem proper_none (limit : Int) : (none limit).Proper :=
  ⟨List.nodup_nil, Int.le_max_left 0 limit⟩

theorem Proper.enter {g inner : Guards} {key : String} (h : g.Proper)
    (he : g.enter key = .ok inner) : inner.Proper := by
  obtain ⟨rfl, fresh, room⟩ := enter_ok he
  constructor
  · have apart : ∀ k ∈ g.held, ∀ k' ∈ [key], k ≠ k' := by
      rintro k hk k' hk' rfl
      exact fresh (List.mem_singleton.1 hk' ▸ hk)
    exact List.nodup_append.2 ⟨h.distinct, List.nodup_singleton key, apart⟩
  · simp only [List.length_append, List.length_singleton]
    omega

theorem Proper.exit {g : Guards} (h : g.Proper) : g.exit.Proper := by
  constructor
  · exact h.distinct.sublist (List.dropLast_sublist g.held)
  · have fewer := h.within
    simp only [Guards.exit, List.length_dropLast]
    omega

/-- That a key is held is found even where there is no room. -/
theorem enter_of_held {g : Guards} {key : String} (h : key ∈ g.held) :
    g.enter key = .error (.cycle (.chain (g.held ++ [key]))) := by
  rw [enter, if_pos (List.contains_iff_mem.2 h)]

theorem enter_of_full {g : Guards} {key : String} (h : key ∉ g.held)
    (full : g.limit ≤ g.held.length) : g.enter key = .error (.cycle (.tooDeep g.limit key)) := by
  have free : ¬ g.held.contains key = true := fun hc => h (List.contains_iff_mem.1 hc)
  rw [enter, if_neg free, if_pos full]

end Guards

namespace Session

/-! ## Entering and giving up -/

/-- Holds one more key from now on. -/
def hold (key : String) : Session Unit := do
  let inner ← (← get).guards.enter key
  modify fun l => { l with guards := inner }

/-- Gives up the key that was entered last. -/
def release : Session Unit := modify fun l => { l with guards := l.guards.exit }

/-- A guarded block enters its key, and gives it up in the end. -/
theorem guarded_eq (key : String) (body : Session α) :
    guarded key body = (do hold key; tryFinally body release) := by
  simp only [guarded, hold, release, bind_assoc]

theorem runOn_hold (key : String) (l : Ledger) :
    (hold key).runOn l =
      match l.guards.enter key with
      | .error e => (.error e, l)
      | .ok inner => (.ok (), { l with guards := inner }) := by
  have got : (get : Session Ledger).runOn l = (.ok l, l) := rfl
  have lifted : (liftM (l.guards.enter key) : Session Guards).runOn l =
      (l.guards.enter key, l) := rfl
  unfold hold
  simp only [runOn_bind, got, lifted]
  cases l.guards.enter key with
  | error e => rfl
  | ok inner => rfl

/-- What can be done with guards. -/
inductive Move where
  | hold (key : String)
  | release

/-- A move as a computation on a ledger. -/
def Move.session : Move → Session Unit
  | hold key => Session.hold key
  | release => Session.release

/-- The ledger after moves, one after another, whether they succeed or are refused. -/
def after (moves : List Move) (l : Ledger) : Ledger :=
  moves.foldl (fun l move => (move.session.runOn l).2) l

/-- No move leads from guards that are held properly to others, or to another limit. -/
theorem Move.proper (move : Move) {l : Ledger} (h : l.guards.Proper) :
    (move.session.runOn l).2.guards.Proper ∧
      (move.session.runOn l).2.guards.limit = l.guards.limit := by
  cases move with
  | release => exact ⟨h.exit, rfl⟩
  | hold key =>
    rw [session, runOn_hold]
    cases he : l.guards.enter key with
    | error e => exact ⟨h, rfl⟩
    | ok inner =>
      obtain ⟨rfl, -, -⟩ := Guards.enter_ok he
      exact ⟨h.enter he, rfl⟩

theorem proper_after (moves : List Move) {l : Ledger} (h : l.guards.Proper) :
    (after moves l).guards.Proper ∧ (after moves l).guards.limit = l.guards.limit := by
  induction moves generalizing l with
  | nil => exact ⟨h, rfl⟩
  | cons move moves ih =>
    obtain ⟨proper, limit⟩ := move.proper h
    obtain ⟨proper', limit'⟩ := ih proper
    exact ⟨proper', limit'.trans limit⟩

/-! ## Nested blocks -/

/-- Computations that enter and give up guards in blocks only, one inside the other. They may look
at the ledger, define entries, fail and recover from failures anywhere. -/
inductive Nested : {α : Type} → Session α → Prop
  | done {α : Type} (value : α) : Nested (pure value)
  | fail {α : Type} (failure : Failure) : Nested (throw failure : Session α)
  | look : Nested (get : Session Ledger)
  | define (entry : Entry) : Nested (define entry)
  | andThen {α β : Type} {x : Session α} {f : α → Session β} :
      Nested x → (∀ a, Nested (f a)) → Nested (x >>= f)
  | rescue {α : Type} {x : Session α} {handler : Failure → Session α} :
      Nested x → (∀ e, Nested (handler e)) → Nested (tryCatch x handler)
  | block {α : Type} {key : String} {body : Session α} :
      Nested body → Nested (do hold key; tryFinally body release)

theorem runOn_rescue (x : Session α) (handler : Failure → Session α) (l : Ledger) :
    (tryCatch x handler).runOn l =
      match x.runOn l with
      | (.error e, l) => (handler e).runOn l
      | (.ok a, l) => (.ok a, l) := by
  obtain ⟨outcome, l', h⟩ : ∃ outcome l', x l = (outcome, l') := ⟨_, _, rfl⟩
  unfold runOn
  simp only [tryCatch, tryCatchThe, MonadExceptOf.tryCatch, ExceptT.tryCatch, ExceptT.run,
    ExceptT.mk, StateT.run, bind, StateT.bind, h]
  cases outcome <;> rfl

theorem add_guards (l : Ledger) (entry : Entry) : (l.add entry).guards = l.guards := by
  rw [Ledger.add_eq_addAll, Ledger.addAll_guards]

namespace Nested

/-- Every guard that is entered in a nested block is given up, however the block ends. -/
theorem restores {x : Session α} (h : Nested x) (l : Ledger) :
    (x.runOn l).2.guards = l.guards := by
  induction h generalizing l with
  | done value => rfl
  | fail failure => rfl
  | look => rfl
  | define entry => exact add_guards l entry
  | @andThen _ _ x f _ _ first rest =>
    have kept := first l
    rw [runOn_bind]
    generalize x.runOn l = reached at kept ⊢
    obtain ⟨outcome, l'⟩ := reached
    cases outcome with
    | error e => exact kept
    | ok a => exact (rest a l').trans kept
  | @rescue _ x handler _ _ first rest =>
    have kept := first l
    rw [runOn_rescue]
    generalize x.runOn l = reached at kept ⊢
    obtain ⟨outcome, l'⟩ := reached
    cases outcome with
    | ok a => exact kept
    | error e => exact (rest e l').trans kept
  | @block _ key body _ inside =>
    rw [← guarded_eq, runOn_guarded]
    cases he : l.guards.enter key with
    | error e => rfl
    | ok inner =>
      -- the body gives back what was entered, and that is given up
      simp only [inside { l with guards := inner }]
      exact Guards.exit_enter he

theorem guarded {key : String} {body : Session α} (h : Nested body) :
    Nested (guarded key body) := by
  rw [guarded_eq]
  exact block h

theorem lift (source : Except Failure α) : Nested (liftM source : Session α) := by
  cases source with
  | error e => exact fail e
  | ok value => exact done value

theorem mapM {f : α → Session β} {xs : List α} (h : ∀ x ∈ xs, Nested (f x)) :
    Nested (xs.mapM f) := by
  induction xs with
  | nil =>
    rw [List.mapM_nil]
    exact done []
  | cons x xs ih =>
    rw [List.mapM_cons]
    refine andThen (h x List.mem_cons_self) fun y => ?_
    refine andThen (ih fun x' hx' => h x' (List.mem_cons_of_mem _ hx')) fun ys => ?_
    exact done (y :: ys)

end Nested

end Session

/-! ## The synthesis as a nested block -/

namespace Request

open Session (Nested)

/-- A round is nested if the answers are. -/
theorem nested_step {root : Node} {answer : (request : Request) → Session request.Answer}
    (nested : ∀ request, Nested (answer request)) (request : Request) :
    Nested (request.step root answer) := by
  cases request with
  | describe schema name parent =>
    cases schema with
    | inline s => exact nested (.inPlace s name parent)
    | reference r =>
      refine .andThen (.lift _) fun pointer => ?_
      refine .andThen (.lift _) fun target => ?_
      refine .andThen (.lift _) fun rules => ?_
      cases Pointer.schemaName? pointer with
      | none => exact .andThen (.lift _) fun loc => .done _
      | some component =>
        refine .andThen (.lift _) fun loc => ?_
        cases target with
        | object s => exact .done _
        | _ =>
          refine .andThen (.lift _) fun found => ?_
          cases found with
          | some found => exact .andThen (.define _) fun _ => .done _
          -- only a component in place and a branch are gone through under a guard
          | none => exact .guarded (nested (.inPlace _ name parent))
  | inPlace schema name parent =>
    cases schema with
    | string s =>
      refine .andThen (.lift _) fun rules => .andThen (.lift _) fun found => ?_
      cases found with
      | some values => exact .andThen (.define _) fun _ => .done _
      | none => exact .andThen (.lift _) fun type => .done _
    | number s => exact .andThen (.lift _) fun rules => .andThen (.lift _) fun type => .done _
    | boolean s => exact .andThen (.lift _) fun rules => .andThen (.lift _) fun type => .done _
    | array s =>
      refine .andThen (.lift _) fun rules => .andThen (.lift _) fun found => ?_
      cases found with
      | none => exact .fail _
      | some items => exact .andThen (nested (.describe items name parent)) fun item => .done _
    | object s =>
      refine .andThen (.lift _) fun rules => .andThen (.lift _) fun found => ?_
      cases found with
      | none =>
        refine .andThen (nested (.properties s _ [])) fun properties => ?_
        exact .andThen (.define _) fun _ => .done _
      | some members =>
        refine .andThen (.mapM fun m _ => ?_) fun uses => .andThen (.define _) fun _ => .done _
        exact .andThen (nested (.describe m.asSchema name parent)) fun type => .done _
  | properties s parent inherited =>
    refine .andThen (.lift _) fun own => .andThen (.lift _) fun found => ?_
    cases found with
    | some branches =>
      refine .andThen (.mapM fun branch _ => ?_) fun merged => .done _
      refine .andThen (.lift _) fun key => .guarded (.andThen (.lift _) fun target => ?_)
      cases target with
      | object b => exact nested (.properties b parent _)
      | _ => exact .done _
    | none =>
      refine .andThen (.lift _) fun found => ?_
      cases found with
      | none => exact .done _
      | some index =>
        refine .mapM fun entry _ => ?_
        refine .andThen (.lift _) fun schema => .andThen (.lift _) fun resolved => ?_
        refine .andThen (nested (.describe schema _ parent)) fun type => ?_
        exact .andThen (.lift _) fun rules => .done _

theorem nested_within (root : Node) (rounds : Nat) :
    ∀ request : Request, Nested (request.within root rounds) := by
  induction rounds with
  | zero => exact fun request => .andThen .look fun l => .fail _
  | succ rounds ih => exact nested_step ih

theorem nested_perform (root : Node) (request : Request) : Nested (request.perform root) :=
  .andThen .look fun _ => nested_within root _ request

end Request

/-! ## Discipline -/

/-- The guards of a ledger are in order, and so is what can be done with them. -/
structure Disciplined (limit : Int) (l : Ledger) : Prop where
  kept : l.guards.limit = limit
  distinct : l.guards.held.Nodup
  within : (l.guards.held.length : Int) ≤ max 0 limit
  /-- A key is entered exactly if it is not held and there is room. -/
  entered : ∀ key, ((Session.hold key).runOn l).1 = .ok () ↔
    key ∉ l.guards.held ∧ (l.guards.held.length : Int) < limit
  /-- It is held behind the others then, and nothing else changes. -/
  held : ∀ key l', (Session.hold key).runOn l = (.ok (), l') →
    l' = { l with guards := ⟨limit, l.guards.held ++ [key]⟩ }
  /-- That it is held is found before that there is no room. -/
  again : ∀ key ∈ l.guards.held,
    (Session.hold key).runOn l = (.error (.cycle (.chain (l.guards.held ++ [key]))), l)
  full : ∀ key ∉ l.guards.held, limit ≤ l.guards.held.length →
    (Session.hold key).runOn l = (.error (.cycle (.tooDeep limit key)), l)
  /-- A nested block leaves the guards as they are, whether it comes to a value or fails. -/
  nested : ∀ {α : Type} {x : Session α}, x.Nested → (x.runOn l).2.guards = l.guards
  /-- So does the synthesis. -/
  performed : ∀ (root : Node) (request : Request),
    ((request.perform root).runOn l).2.guards = l.guards

theorem disciplined_of_proper {l : Ledger} (h : l.guards.Proper) : Disciplined l.guards.limit l := by
  have refused : ∀ {key : String} {e : Failure}, l.guards.enter key = .error e →
      (Session.hold key).runOn l = (.error e, l) := by
    intro key e he
    rw [Session.runOn_hold, he]
  constructor
  case kept => rfl
  case distinct => exact h.distinct
  case within => exact h.within
  case entered =>
    intro key
    constructor
    · intro hold
      cases he : l.guards.enter key with
      | ok inner => exact (Guards.enter_ok he).2
      | error e =>
        rw [refused he] at hold
        cases hold
    · rintro ⟨free, room⟩
      rw [Session.runOn_hold, Guards.enter_of_free free room]
  case held =>
    intro key l' hold
    cases he : l.guards.enter key with
    | ok inner =>
      rw [Session.runOn_hold, he] at hold
      obtain ⟨rfl, -, -⟩ := Guards.enter_ok he
      cases hold
      rfl
    | error e =>
      rw [refused he] at hold
      cases hold
  case again => exact fun key hk => refused (Guards.enter_of_held hk)
  case full => exact fun key hk full => refused (Guards.enter_of_full hk full)
  case nested => exact fun nested => nested.restores l
  case performed => exact fun root request => (request.nested_perform root).restores l

/-- After any entries and exits, whatever the limit, the guards are in order. -/
theorem guards_disciplined (limit : Int) (moves : List Session.Move) :
    Disciplined limit (Session.after moves (.empty (.none limit))) := by
  have start : (Ledger.empty (.none limit)).guards.Proper := Guards.proper_none limit
  obtain ⟨proper, same⟩ := Session.proper_after moves start
  have disciplined := disciplined_of_proper proper
  rw [same] at disciplined
  exact disciplined

end ServiceModel
