/-
A synthesis that is asked again and again answers each request as if it were the first one. On
every ledger a request comes to the outcome that the synthesis without a ledger has, adds to the
tables what that records, and leaves the guards as they were: the tables are only added to and
never read, and every guard that is entered is given up, however the request ends. `Follows` says
this of one computation; it is kept by each step, and hence by every request.
-/
import ServiceModel.Proofs.Synthesis.Calls
import ServiceModel.Synthesis.Session

namespace ServiceModel

open Service

variable {α β : Type}

/-! ## Ledgers -/

namespace Ledger

/-- Puts what a journal defines at the end of the tables. -/
def addAll (l : Ledger) (journal : List Entry) : Ledger :=
  ⟨l.guards, l.types ++ journal.filterMap Entry.type?, l.enums ++ journal.filterMap Entry.enum?,
    l.unions ++ journal.filterMap Entry.union?⟩

@[simp] theorem addAll_nil (l : Ledger) : l.addAll [] = l := by
  simp [addAll]

theorem addAll_append (l : Ledger) (first rest : List Entry) :
    l.addAll (first ++ rest) = (l.addAll first).addAll rest := by
  simp [addAll]

theorem add_eq_addAll (l : Ledger) (entry : Entry) : l.add entry = l.addAll [entry] := by
  cases entry with
  | type t => simp [add, addAll, Entry.type?, Entry.enum?, Entry.union?]
  | enum e => simp [add, addAll, Entry.type?, Entry.enum?, Entry.union?]
  | union u => simp [add, addAll, Entry.type?, Entry.enum?, Entry.union?]
  | _ => exact l.addAll_nil.symm

@[simp] theorem addAll_guards (l : Ledger) (journal : List Entry) :
    (l.addAll journal).guards = l.guards := rfl

end Ledger

namespace Guards

/-- What was entered can be given up. -/
theorem exit_enter {g inner : Guards} {key : String} (h : g.enter key = .ok inner) :
    inner.exit = g := by
  obtain ⟨rfl, -, -⟩ := enter_ok h
  simp [exit]

end Guards

/-! ## Sessions -/

namespace Session

theorem runOn_bind (x : Session α) (f : α → Session β) (l : Ledger) :
    (x >>= f).runOn l =
      match x.runOn l with
      | (.error e, l) => (.error e, l)
      | (.ok a, l) => (f a).runOn l := by
  unfold runOn
  rw [ExceptT.run_bind, StateT.run_bind]
  obtain ⟨outcome, l'⟩ := x.run.run l
  cases outcome <;> rfl

/-- What is done in the end is done after a value and after a failure. -/
theorem runOn_finally (x : Session α) (f : Ledger → Ledger) (l : Ledger) :
    (tryFinally x (modify f)).runOn l = ((x.runOn l).1, f (x.runOn l).2) := by
  obtain ⟨outcome, l', h⟩ : ∃ outcome l', x l = (outcome, l') := ⟨_, _, rfl⟩
  unfold runOn tryFinally
  simp only [ExceptT.run, StateT.run, h, tryFinally', ExceptT.mk, Functor.map, ExceptT.map, bind,
    StateT.bind]
  cases outcome <;> rfl

theorem runOn_guarded (key : String) (body : Session α) (l : Ledger) :
    (guarded key body).runOn l =
      match l.guards.enter key with
      | .error e => (.error e, l)
      | .ok inner =>
        ((body.runOn { l with guards := inner }).1,
          { (body.runOn { l with guards := inner }).2 with
            guards := (body.runOn { l with guards := inner }).2.guards.exit }) := by
  have got : (get : Session Ledger).runOn l = (.ok l, l) := rfl
  have lifted : (liftM (l.guards.enter key) : Session Guards).runOn l =
      (l.guards.enter key, l) := rfl
  unfold guarded
  simp only [runOn_bind, got, lifted]
  cases l.guards.enter key with
  | error e => rfl
  | ok inner =>
    have held : (modify fun l => { l with guards := inner } : Session PUnit).runOn l =
        (.ok ⟨⟩, { l with guards := inner }) := rfl
    simp only [held, runOn_finally]

/-! ## Following -/

/-- On every ledger with the guards, the session comes to the outcome of the computation, adds
what that records and keeps the guards. -/
def Follows (guards : Guards) (x : Session α) (y : Build α) : Prop :=
  ∀ l : Ledger, l.guards = guards → x.runOn l = (y.outcome, l.addAll y.journal)

namespace Follows

variable {guards : Guards}

theorem lift (source : Except Failure α) :
    Follows guards (liftM source : Session α) (liftM source : Build α) := by
  intro l _
  rw [Build.liftM_eq]
  simp only [Build.lift, Ledger.addAll_nil]
  rfl

theorem pure (a : α) : Follows guards (pure a) (pure a) := by
  intro l _
  simp only [Build.pure_eq, Ledger.addAll_nil]
  rfl

theorem fail (e : Failure) : Follows guards (throw e : Session α) (Build.fail e) := by
  intro l _
  simp only [Build.fail, Ledger.addAll_nil]
  rfl

theorem define (entry : Entry) : Follows guards (define entry) (Build.record entry) := by
  intro l _
  simp only [Build.record, ← Ledger.add_eq_addAll]
  rfl

theorem bind {x : Session α} {y : Build α} {f : α → Session β} {g : α → Build β}
    (hx : Follows guards x y) (hf : ∀ a, y.outcome = .ok a → Follows guards (f a) (g a)) :
    Follows guards (x >>= f) (y >>= g) := by
  intro l hl
  rw [runOn_bind, hx l hl, Build.bind_eq]
  cases ho : y.outcome with
  | error e => rfl
  | ok a =>
    -- the rest goes on with the same guards
    simp only
    rw [hf a ho _ ((l.addAll_guards _).trans hl), Ledger.addAll_append]

theorem lift_bind {source : Except Failure α} {f : α → Session β} {g : α → Build β}
    (hf : ∀ a, source = .ok a → Follows guards (f a) (g a)) :
    Follows guards ((liftM source : Session α) >>= f) ((liftM source : Build α) >>= g) :=
  bind (lift source) hf

theorem mapM {f : α → Session β} {g : α → Build β} {xs : List α}
    (h : ∀ x ∈ xs, Follows guards (f x) (g x)) : Follows guards (xs.mapM f) (xs.mapM g) := by
  induction xs with
  | nil =>
    simp only [List.mapM_nil]
    exact pure []
  | cons x xs ih =>
    simp only [List.mapM_cons]
    refine bind (h x List.mem_cons_self) fun y _ => ?_
    refine bind (ih fun x' hx' => h x' (List.mem_cons_of_mem _ hx')) fun ys _ => ?_
    exact pure (y :: ys)

/-- Under one more guard, which is given up in the end. -/
theorem guarded {key : String} {x : Session α} {y : Guards → Build α}
    (h : ∀ inner, guards.enter key = .ok inner → Follows inner x (y inner)) :
    Follows guards (guarded key x) ((liftM (guards.enter key) : Build Guards) >>= y) := by
  rintro l rfl
  rw [runOn_guarded, Build.bind_eq, Build.liftM_eq]
  simp only [Build.lift]
  cases he : l.guards.enter key with
  | error e => simp
  | ok inner =>
    simp only [h inner he { l with guards := inner } rfl, Ledger.addAll, Guards.exit_enter he,
      List.nil_append]

end Follows

end Session

/-! ## Requests -/

namespace Request

open Session (Follows)

/-- The call that a request is under the guards that are held. -/
def call (guards : Guards) : Request → Call
  | describe schema name parent => .describe guards schema name parent
  | inPlace schema name parent => .inPlace guards schema name parent
  | properties schema parent inherited => .properties guards schema parent inherited

/-- The answer of the synthesis without a ledger. -/
def run (root : Node) (guards : Guards) : (request : Request) → Build request.Answer
  | describe schema name parent => ServiceModel.describe root guards schema name parent
  | inPlace schema name parent => describeInPlace root guards schema name parent
  | properties schema parent inherited => propertiesOf root guards schema parent inherited

theorem depth_eq_height (root : Node) (guards : Guards) (request : Request) :
    request.depth root guards = (request.call guards).height root := by
  cases request with
  | describe schema name parent => cases schema <;> rfl
  | inPlace schema name parent => rfl
  | properties schema parent inherited => rfl

/-- One round follows the synthesis if the requests that are made on the way are answered so. -/
theorem follows_step {root : Node} {guards : Guards}
    {answer : (request : Request) → Session request.Answer} {request : Request}
    (made : ∀ inner request', Call.Makes root (request.call guards) (request'.call inner) →
      Follows inner (answer request') (request'.run root inner)) :
    Follows guards (request.step root answer) (request.run root guards) := by
  cases request with
  | describe schema name parent =>
    cases schema with
    | inline s =>
      simp only [step, run, describe_inline]
      exact made guards (.inPlace s name parent) .inPlace
    | reference r =>
      simp only [step, run, describe_reference]
      refine .lift_bind fun pointer hp => ?_
      refine .lift_bind fun target ht => ?_
      refine .lift_bind fun rules _ => ?_
      cases hn : Pointer.schemaName? pointer with
      | none => exact .lift_bind fun loc _ => .pure _
      | some component =>
        refine .lift_bind fun loc _ => ?_
        cases target with
        | object s => exact .pure _
        | _ =>
          refine .lift_bind fun found hf => ?_
          cases found with
          | some found => exact .bind (.define _) fun _ _ => .pure _
          | none =>
            refine .guarded fun inner hi => ?_
            exact made inner (.inPlace _ name parent)
              (.component hp ht hn hf (by rintro _ ⟨⟩) hi)
  | inPlace schema name parent =>
    cases schema with
    | string s =>
      simp only [step, run, describeInPlace_string]
      refine .lift_bind fun rules _ => .lift_bind fun found _ => ?_
      cases found with
      | none => exact .lift_bind fun type _ => .pure _
      | some values => exact .bind (.define _) fun _ _ => .pure _
    | number s =>
      simp only [step, run, describeInPlace_number]
      exact .lift_bind fun rules _ => .lift_bind fun type _ => .pure _
    | boolean s =>
      simp only [step, run, describeInPlace_boolean]
      exact .lift_bind fun rules _ => .lift_bind fun type _ => .pure _
    | array s =>
      simp only [step, run, describeInPlace_array]
      refine .lift_bind fun rules _ => .lift_bind fun found hf => ?_
      cases found with
      | none => exact .fail _
      | some items =>
        exact .bind (made guards (.describe items name parent) (.items hf)) fun item _ => .pure _
    | object s =>
      simp only [step, run, describeInPlace_object]
      refine .lift_bind fun rules _ => .lift_bind fun found hf => ?_
      cases found with
      | none =>
        refine .bind ?_ fun properties _ => .bind (.define _) fun _ _ => .pure _
        exact made guards (.properties s _ []) (.properties hf)
      | some members =>
        refine .bind (.mapM fun m hm => ?_) fun uses _ => .bind (.define _) fun _ _ => .pure _
        exact .bind (made guards (.describe m.asSchema name parent) (.member hf hm))
          fun type _ => .pure _
  | properties s parent inherited =>
    rw [step, run, propertiesOf_eq]
    refine .lift_bind fun own ho => .lift_bind fun found hf => ?_
    cases found with
    | some branches =>
      refine .bind (.mapM fun branch hb => ?_) fun merged _ => .pure _
      refine .lift_bind fun key hk => .guarded fun inner hi => .lift_bind fun target ht => ?_
      cases target with
      | object b => exact made inner (.properties b parent _) (.branch ho hf hb hk hi ht)
      | _ => exact .pure _
    | none =>
      refine .lift_bind fun found hf' => ?_
      cases found with
      | none => exact .pure _
      | some index =>
        refine .mapM fun entry he => ?_
        refine .lift_bind fun schema hs => .lift_bind fun resolved _ => ?_
        refine .bind (made guards (.describe schema _ parent) (.property hf hf' he hs)) ?_
        exact fun type _ => .lift_bind fun rules _ => .pure _

/-- As many rounds as a request is deep are enough. -/
theorem follows_within (root : Node) {rounds : Nat} {guards : Guards} {request : Request}
    (h : request.depth root guards < rounds) :
    Follows guards (request.within root rounds) (request.run root guards) := by
  induction rounds generalizing guards request with
  | zero => omega
  | succ rounds ih =>
    refine follows_step fun inner request' hm => ih ?_
    have lower := hm.height_lt
    simp only [← depth_eq_height] at lower
    omega

theorem follows_perform (root : Node) (guards : Guards) (request : Request) :
    Follows guards (request.perform root) (request.run root guards) := by
  rintro l rfl
  have got : (request.perform root).runOn l =
      (request.within root (request.depth root l.guards + 1)).runOn l := rfl
  rw [got]
  exact follows_within root (Nat.lt_succ_self _) l rfl

/-- Performing goes on round by round without an end: no request is ever refused. -/
theorem perform_eq_step (root : Node) (request : Request) :
    request.perform root = request.step root (perform root) := by
  have same : ∀ l, (request.perform root).runOn l = (request.step root (perform root)).runOn l := by
    intro l
    rw [follows_perform root l.guards request l rfl]
    exact (follows_step (fun inner request' _ => follows_perform root inner request') l rfl).symm
  exact funext same

/-! ## Histories -/

/-- Requests add to the tables what each of them records, in order, and keep the guards. -/
theorem performAll_eq (root : Node) (requests : List Request) (l : Ledger) :
    performAll root requests l =
      l.addAll (requests.flatMap fun request => (request.run root l.guards).journal) := by
  induction requests generalizing l with
  | nil => simp [performAll]
  | cons request requests ih =>
    have first : ((request.perform root).runOn l).2 =
        l.addAll (request.run root l.guards).journal := by
      rw [follows_perform root l.guards request l rfl]
    rw [performAll, List.foldl_cons, first]
    change performAll root requests _ = _
    rw [ih, Ledger.addAll_guards, List.flatMap_cons, Ledger.addAll_append]

end Request

/-- On a ledger that was in use, a request does what it does on an empty one. -/
structure AsIfFirst (root : Node) (guards : Guards) (used : Ledger) (request : Request) :
    Prop where
  /-- What was used before holds no other guards than at the start. -/
  held : used.guards = guards
  outcome : ((request.perform root).runOn used).1 =
    ((request.perform root).runOn (.empty guards)).1
  /-- What was defined before stays, and after it comes what the request defines on an empty
  ledger, be its outcome a value or a failure. -/
  types : ((request.perform root).runOn used).2.types =
    used.types ++ ((request.perform root).runOn (.empty guards)).2.types
  enums : ((request.perform root).runOn used).2.enums =
    used.enums ++ ((request.perform root).runOn (.empty guards)).2.enums
  unions : ((request.perform root).runOn used).2.unions =
    used.unions ++ ((request.perform root).runOn (.empty guards)).2.unions
  /-- In the end the guards are those from before. -/
  restored : ((request.perform root).runOn used).2.guards = used.guards
  /-- The request is performed round by round, without a last round. -/
  rounds : request.perform root = request.step root (Request.perform root)
  /-- On an empty ledger it is the synthesis without a ledger. -/
  first : (request.perform root).runOn (.empty guards) =
    ((request.run root guards).outcome,
      (Ledger.empty guards).addAll (request.run root guards).journal)

/-- Whatever a synthesis was asked before, with or without success, each request is answered as if
it were the first one. -/
theorem perform_independent_of_history (root : Node) (guards : Guards) (history : List Request)
    (next : Request) :
    AsIfFirst root guards (Request.performAll root history (.empty guards)) next := by
  have held : (Request.performAll root history (.empty guards)).guards = guards := by
    rw [Request.performAll_eq]
    rfl
  have now := Request.follows_perform root guards next _ held
  have first := Request.follows_perform root guards next (.empty guards) rfl
  constructor
  · exact held
  · rw [now, first]
  · rw [now, first]
    simp [Ledger.addAll, Ledger.empty]
  · rw [now, first]
    simp [Ledger.addAll, Ledger.empty]
  · rw [now, first]
    simp [Ledger.addAll, Ledger.empty]
  · rw [now]
    rfl
  · exact Request.perform_eq_step root next
  · exact first

end ServiceModel
