/-
The security of two descriptions side by side. The options of operations that are related are
alike: the same schemes are declared under the same keys, each carries the span of its
declaration, and so does every flow of it and every scope.
-/
import ServiceModel.Interfaces.Security
import ServiceModel.Proofs.OpenApi.Pairing

namespace ServiceModel

open Service OpenApi

instance : View OAuthFlow := ⟨OAuthFlow.object⟩
instance : View OAuthFlows := ⟨OAuthFlows.object⟩
instance : View HttpScheme := ⟨HttpScheme.object⟩
instance : View ApiKeyScheme := ⟨ApiKeyScheme.object⟩
instance : View OAuth2Scheme := ⟨OAuth2Scheme.object⟩
instance : View OpenIdScheme := ⟨OpenIdScheme.object⟩

namespace Likeness

section

variable {root root' : Node} (p : Likeness root root')

/-- Security schemes of one type. -/
inductive SecuritySchemes : SecurityScheme → SecurityScheme → Prop
  | http {s s' : HttpScheme} : p.Views s s' → SecuritySchemes (.http s) (.http s')
  | apiKey {s s' : ApiKeyScheme} : p.Views s s' → SecuritySchemes (.apiKey s) (.apiKey s')
  | oauth2 {s s' : OAuth2Scheme} : p.Views s s' → SecuritySchemes (.oauth2 s) (.oauth2 s')
  | openId {s s' : OpenIdScheme} : p.Views s s' → SecuritySchemes (.openId s) (.openId s')

variable {p}

/-! ## Schemes -/

theorem classifyScheme {n n' : Node} (h : p.nodes n n') :
    Option.Rel p.SecuritySchemes (SecurityScheme.classify n) (SecurityScheme.classify n') := by
  have ho := object? h
  unfold SecurityScheme.classify
  generalize n.object? = o, n'.object? = o' at ho ⊢
  cases ho with
  | none => exact .none
  | @some o o' ho =>
    have ht := literal? ho "type"
    dsimp only
    generalize o.literal? "type" = t, o'.literal? "type" = t' at ht ⊢
    cases ht with
    | none => exact .none
    | some ht =>
      dsimp only
      rw [text_eq ht]
      split
      · exact .some (.http ho)
      · exact .some (.apiKey ho)
      · exact .some (.oauth2 ho)
      · exact .some (.openId ho)
      · exact .none

theorem securityScheme {n n' : Node} (h : p.nodes n n') :
    p.Agree p.SecuritySchemes (SecurityScheme.ofNode n) (SecurityScheme.ofNode n') := by
  have hs := classifyScheme h
  unfold SecurityScheme.ofNode
  generalize SecurityScheme.classify n = s, SecurityScheme.classify n' = s' at hs ⊢
  cases hs with
  | none => exact p.fails_both trivial trivial
  | some hs => exact .ok hs

theorem resolveScheme {source source' : OrReference SecurityScheme}
    (h : p.Sources p.SecuritySchemes source source') :
    p.Agree p.SecuritySchemes (SecurityScheme.resolve root source)
      (SecurityScheme.resolve root' source') := by
  cases h with
  | inline h => exact .ok h
  | reference h =>
    refine (target h).bind fun n n' _ _ hn => ?_
    have hs := classifyScheme hn
    generalize SecurityScheme.classify n = s, SecurityScheme.classify n' = s' at hs ⊢
    cases hs with
    | some hs => exact .ok hs
    | none => exact (pointer h).bind fun _ _ _ _ _ => p.fails_both trivial trivial

/-! ## Flows -/

theorem scopesOf {f f' : OAuthFlow} (h : p.Views f f') :
    p.Agree (List.Forall₂ (Scope.Alike p.spans)) f.scopesOf f'.scopesOf := by
  have scopes : p.Agree (Option.Rel p.Walked) (f.object.index "scopes") (f'.object.index "scopes") :=
    walkedIndex h (by decide)
  refine scopes.bind fun found found' _ _ hf => ?_
  cases hf with
  | none => exact .ok .nil
  | @some scopes scopes' hs =>
    have here := (List.forall₂_and_left _ _).2 ⟨fun _ hm => hm, hs.entries⟩
    refine .mapM (here.imp fun e e' he => ?_)
    refine (asLiteral he.2.value).bind fun l l' _ _ hl => ?_
    have known := known_entry hs.objects (Object.has_of_entry he.1)
    have key := keyLoc? hs.objects e.1.name
    rw [← he.2.name, value_eq hl]
    refine .ok ⟨⟨rfl, key⟩, ?_, known⟩
    split
    · exact .some (locatedText hl)
    · exact .none

theorem flow {fs fs' : OAuthFlows} (h : p.Views fs fs') {loc loc' : Option String}
    (hl : Known p.spans loc loc') (name : String)
    {field : OAuthFlows → Except Failure (Option OAuthFlow)} {grant : OAuthFlow → Grant}
    (hf : p.Agree (Option.Rel p.Views) (field fs) (field fs'))
    (hg : ∀ f f', p.Views f f' → Grant.Alike p.spans (grant f) (grant f')) :
    p.Agree (List.Forall₂ (Flow.Alike p.spans)) (fs.flow loc name field grant)
      (fs'.flow loc' name field grant) := by
  refine hf.bind fun found found' _ _ hfound => ?_
  cases hfound with
  | none => exact .ok .nil
  | @some f f' hv =>
    refine (scopesOf hv).map fun scopes scopes' hs => .cons ?_ .nil
    exact ⟨hg f f' hv, ⟨rfl, keyLoc? h name⟩, locatedText? (text? hv _), hs, hl⟩

theorem flowsOf {fs fs' : OAuthFlows} (h : p.Views fs fs') {loc loc' : Option String}
    (hl : Known p.spans loc loc') :
    p.Agree (List.Forall₂ (Flow.Alike p.spans)) (fs.flowsOf loc) (fs'.flowsOf loc') := by
  have url {f f' : OAuthFlow} (hv : p.Views f f') (name : String) :
      Option.Rel (Located.Alike p.spans) ((f.object.text? name).map Literal.locatedText)
        ((f'.object.text? name).map Literal.locatedText) := locatedText? (text? hv name)
  have field (name : String) : p.Agree (Option.Rel p.Views)
      (fs.object.child name OAuthFlow.ofNode) (fs'.object.child name OAuthFlow.ofNode) :=
    child h fun n n' hn => view hn _ fun _ _ ho => ho
  refine (flow h hl _ (field _) fun f f' hv => ?_).bind fun code code' _ _ hcode => ?_
  · exact ⟨url hv _, url hv _⟩
  refine (flow h hl _ (field _) fun f f' hv => ?_).bind fun creds creds' _ _ hcreds => ?_
  · exact url hv _
  refine (flow h hl _ (field _) fun f f' hv => ?_).bind fun impl impl' _ _ himpl => ?_
  · exact url hv _
  refine (flow h hl _ (field _) fun f f' hv => ?_).map fun pass pass' hpass => ?_
  · exact url hv _
  exact List.rel_append (List.rel_append (List.rel_append hcode hcreds) himpl) hpass

theorem schemeOf {name name' : Located String} (hn : Located.Alike p.spans name name')
    {loc loc' : Option String} (hl : Known p.spans loc loc') {s s' : SecurityScheme}
    (h : p.SecuritySchemes s s') :
    p.Agree (Option.Rel (Scheme.Alike p.spans)) (s.schemeOf name loc) (s'.schemeOf name' loc') := by
  cases h with
  | openId _ => exact .ok .none
  | http h =>
    refine (requireText h "type" _).map fun type type' ht => .some ?_
    exact ⟨trivial, ⟨rfl, .some (literal_span ht)⟩, hn, locatedText? (text? h _), hl, metadata h⟩
  | apiKey h =>
    refine (requireText h "type" _).bind fun type type' _ _ ht => ?_
    refine (requireText h "name" _).bind fun parameter parameter' _ _ hp => ?_
    refine (requireText h "in" _).map fun place place' hplace => .some ?_
    exact ⟨⟨locatedText hp, locatedText hplace⟩, ⟨rfl, .some (literal_span ht)⟩, hn,
      locatedText? (text? h _), hl, metadata h⟩
  | @oauth2 s s' h =>
    have flows : p.Agree (Option.Rel p.Views) s.flows s'.flows :=
      child h fun _ _ hn => view hn _ fun _ _ ho => ho
    refine flows.bind fun found found' _ _ hf => ?_
    refine (requireText h "type" _).bind fun type type' _ _ ht => ?_
    have scheme {fs fs' : List Flow} (hfs : List.Forall₂ (Flow.Alike p.spans) fs fs') :
        Scheme.Alike p.spans
          ⟨.oauth2 fs, ⟨"oauth2", some type.loc⟩, name,
            s.description?.map Literal.locatedText, loc, s.object.metadata⟩
          ⟨.oauth2 fs', ⟨"oauth2", some type'.loc⟩, name',
            s'.description?.map Literal.locatedText, loc', s'.object.metadata⟩ :=
      ⟨hfs, ⟨rfl, .some (literal_span ht)⟩, hn, locatedText? (text? h _), hl, metadata h⟩
    cases hf with
    | none => exact .ok (.some (scheme .nil))
    | some hf => exact (flowsOf hf hl).map fun _ _ hfs => .some (scheme hfs)

end

/-! ## Options -/

section

variable {d d' : Description} {p : Likeness d.root d'.root}

theorem components (p : Likeness d.root d'.root) :
    p.Agree (Option.Rel p.Views) d.components d'.components :=
  child p.roots fun _ _ hn => view hn _ fun _ _ ho => ho

theorem schemeUnder (p : Likeness d.root d'.root) (key : String) :
    p.Agree (Option.Rel (Scheme.Alike p.spans)) (d.schemeUnder key) (d'.schemeUnder key) := by
  refine p.components.bind fun found found' _ _ hc => ?_
  cases hc with
  | none => exact .ok .none
  | some hc =>
    refine (index hc "securitySchemes").bind fun found found' _ _ hi => ?_
    cases hi with
    | none => exact .ok .none
    | @some schemes schemes' hi =>
      have declared : p.Agree (Option.Rel (p.Sources p.SecuritySchemes))
          (schemes.readEntry key (OrReference.ofNode SecurityScheme.ofNode))
          (schemes'.readEntry key (OrReference.ofNode SecurityScheme.ofNode)) :=
        child hi fun _ _ => orReference fun _ _ => securityScheme
      refine declared.bind fun found found' hf _ hd => ?_
      cases hd with
      | none => exact .ok .none
      | some hd =>
        refine (resolveScheme hd).bind fun s s' _ _ hs => ?_
        have name : Located.Alike p.spans ⟨key, schemes.keyLoc? key⟩ ⟨key, schemes'.keyLoc? key⟩ :=
          ⟨rfl, keyLoc? hi key⟩
        exact schemeOf name (known_entry hi (Object.has_of_child hf)) hs

/-- Requirements are gone through name by name. -/
theorem requirements {o o' : Object} (ho : p.Objects o o') :
    p.Agree (Option.Rel (List.Forall₂ fun r r' => p.Walked r.object r'.object))
      (o.array "security" SecurityRequirement.ofNode)
      (o'.array "security" SecurityRequirement.ofNode) := by
  have views : p.Agree (Option.Rel (List.Forall₂ p.Views))
      (o.array "security" SecurityRequirement.ofNode)
      (o'.array "security" SecurityRequirement.ofNode) :=
    array ho fun _ _ hn => view hn _ fun _ _ ho => ho
  refine views.imp fun found found' hf _ hr => ?_
  cases hr with
  | none => exact .none
  | some hr =>
    have here := (List.forall₂_and_left _ _).2 ⟨fun _ hm => hm, hr⟩
    refine .some (here.imp fun r r' hm => ⟨hm.2, ?_⟩)
    obtain ⟨items, range, listed, n, hn, hread⟩ := Object.array_eq_ok hf hm.1
    obtain ⟨q, hq, hread⟩ := read_bind_ok hread
    cases hread
    rw [← Node.asObject_ok hq] at hn
    exact p.walked (p.within ho).1 (.item listed hn) hm.2

theorem optionOf {r r' : SecurityRequirement} (h : p.Walked r.object r'.object) :
    p.Agree (SecurityOption.Alike p.spans) (d.optionOf r) (d'.optionOf r') := by
  have keys : r.object.keys = r'.object.keys := h.keys_eq
  unfold Description.optionOf
  rw [keys]
  refine (Agree.mapM ?_).map fun schemes schemes' hs => forall₂_filterMap_id hs
  exact List.forall₂_same.2 fun key _ => p.schemeUnder key

theorem securityOptions {o o' : Operation} (h : p.Views o o') :
    p.Agree (List.Forall₂ (SecurityOption.Alike p.spans)) (d.securityOptions o)
      (d'.securityOptions o') := by
  refine (requirements h).bind fun own own' _ _ hr => ?_
  cases hr with
  | some hr => exact .mapM (hr.imp fun _ _ => optionOf)
  | none =>
    refine (requirements p.roots).bind fun shared shared' _ _ hs => ?_
    exact .mapM ((rel_getD hs .nil).imp fun _ _ => optionOf)

end

end Likeness

end ServiceModel
