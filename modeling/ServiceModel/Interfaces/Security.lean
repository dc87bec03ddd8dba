/-
The security options of an operation: what its own requirements ask for, or else those of the
description. Every requirement is one option, and it asks for the schemes that the components
declare under its keys.
-/
import ServiceModel.OpenApi.Description
import ServiceModel.OpenApi.Metadata

namespace ServiceModel

open Service

namespace OAuthFlow

/-- The scopes that a flow can grant. A scope whose description is no text has none. -/
def scopesOf (flow : OAuthFlow) : Except Failure (List Scope) := do
  match ← flow.scopes with
  | none => return []
  | some index =>
    index.entries.mapM fun entry => do
      let description ← entry.2.asLiteral
      let text? :=
        match description.value with
        | .text _ => some description.locatedText
        | _ => none
      return ⟨⟨entry.1.name, index.keyLoc? entry.1.name⟩, text?, index.entryLoc? entry.1.name⟩

end OAuthFlow

namespace OAuthFlows

/-- A flow under its name, if it is there. -/
def flow (flows : OAuthFlows) (loc : Option String) (name : String)
    (field : OAuthFlows → Except Failure (Option OAuthFlow)) (grant : OAuthFlow → Grant) :
    Except Failure (List Flow) := do
  match ← field flows with
  | none => return []
  | some f =>
    return [⟨grant f, ⟨name, flows.object.keyLoc? name⟩, f.refreshUrl?.map Literal.locatedText,
      ← f.scopesOf, loc⟩]

/-- The flows of a scheme, in the order of their names. -/
def flowsOf (flows : OAuthFlows) (loc : Option String) : Except Failure (List Flow) := do
  let url (l : Option Literal) := l.map Literal.locatedText
  let code ← flows.flow loc "authorizationCode" OAuthFlows.authorizationCode fun f =>
    .authorizationCode (url f.authorizationUrl?) (url f.tokenUrl?)
  let credentials ← flows.flow loc "clientCredentials" OAuthFlows.clientCredentials fun f =>
    .clientCredentials (url f.tokenUrl?)
  let implicit ← flows.flow loc "implicit" OAuthFlows.implicit fun f =>
    .implicit (url f.authorizationUrl?)
  let password ← flows.flow loc "password" OAuthFlows.password fun f =>
    .password (url f.tokenUrl?)
  return code ++ credentials ++ implicit ++ password

end OAuthFlows

namespace SecurityScheme

/-- The scheme in a service, under the name and at the place where it is declared. There is none
for OpenID Connect. -/
def schemeOf (name : Located String) (loc : Option String) :
    SecurityScheme → Except Failure (Option Scheme)
  | .http s => do
    let type ← s.type
    return some ⟨.basic, ⟨"basic", some type.loc⟩, name, s.description?.map Literal.locatedText,
      loc, s.object.metadata⟩
  | .apiKey s => do
    let type ← s.type
    let parameter ← s.name
    let place ← s.location
    return some ⟨.apiKey parameter.locatedText place.locatedText, ⟨"apiKey", some type.loc⟩, name,
      s.description?.map Literal.locatedText, loc, s.object.metadata⟩
  | .oauth2 s => do
    let flows ← s.flows
    let type ← s.type
    let flows ←
      match flows with
      | some flows => flows.flowsOf loc
      | none => pure []
    return some ⟨.oauth2 flows, ⟨"oauth2", some type.loc⟩, name,
      s.description?.map Literal.locatedText, loc, s.object.metadata⟩
  | .openId _ => return none

end SecurityScheme

namespace OpenApi

namespace Description

/-- The document that the description stands in. -/
def root (d : Description) : Node := d.object.node

/-- The scheme that the components declare under a key, if it can be shown. -/
def schemeUnder (d : Description) (key : String) : Except Failure (Option Scheme) := do
  match ← d.components with
  | none => return none
  | some components =>
    match ← components.securitySchemes with
    | none => return none
    | some index =>
      match ← index.readEntry key (OrReference.ofNode SecurityScheme.ofNode) with
      | none => return none
      | some definition =>
        let scheme ← SecurityScheme.resolve d.root definition
        scheme.schemeOf ⟨key, index.keyLoc? key⟩ (index.entryLoc? key)

/-- The option that a requirement is. -/
def optionOf (d : Description) (requirement : SecurityRequirement) :
    Except Failure SecurityOption := do
  return ⟨(← requirement.object.keys.mapM d.schemeUnder).filterMap id⟩

/-- The options of an operation: its own, if it has requirements, be they an empty list. -/
def securityOptions (d : Description) (operation : Operation) :
    Except Failure (List SecurityOption) := do
  match ← operation.security with
  | some requirements => requirements.mapM d.optionOf
  | none => ((← d.security).getD []).mapM d.optionOf

end Description

end OpenApi

end ServiceModel
