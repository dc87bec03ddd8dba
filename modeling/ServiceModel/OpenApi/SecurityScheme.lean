/-
Security schemes, sorted by their `type`, and the flows of OAuth 2.
-/
import ServiceModel.Document.Reference

namespace ServiceModel

/-- One flow of OAuth 2. -/
structure OAuthFlow where
  object : Object
  deriving Repr

/-- The flows of a scheme. -/
structure OAuthFlows where
  object : Object
  deriving Repr

/-- A scheme of the type `http`. -/
structure HttpScheme where
  object : Object
  deriving Repr

/-- A scheme of the type `apiKey`. -/
structure ApiKeyScheme where
  object : Object
  deriving Repr

/-- A scheme of the type `oauth2`. -/
structure OAuth2Scheme where
  object : Object
  deriving Repr

/-- A scheme of the type `openIdConnect`. -/
structure OpenIdScheme where
  object : Object
  deriving Repr

/-- A security scheme. -/
inductive SecurityScheme where
  | http (scheme : HttpScheme)
  | apiKey (scheme : ApiKeyScheme)
  | oauth2 (scheme : OAuth2Scheme)
  | openId (scheme : OpenIdScheme)
  deriving Repr

namespace OAuthFlow

def ofNode (node : Node) : Except Failure OAuthFlow := do
  return ⟨← node.asObject "OAuth flow"⟩
def authorizationUrl? (f : OAuthFlow) : Option Literal := f.object.text? "authorizationUrl"
def tokenUrl? (f : OAuthFlow) : Option Literal := f.object.text? "tokenUrl"
def refreshUrl? (f : OAuthFlow) : Option Literal := f.object.text? "refreshUrl"

/-- The scopes, each of which has a value that describes it. -/
def scopes (f : OAuthFlow) : Except Failure (Option Object) := f.object.index "scopes"

end OAuthFlow

namespace OAuthFlows

def ofNode (node : Node) : Except Failure OAuthFlows := do
  return ⟨← node.asObject "OAuth flows"⟩
def implicit (f : OAuthFlows) : Except Failure (Option OAuthFlow) :=
  f.object.child "implicit" OAuthFlow.ofNode
def password (f : OAuthFlows) : Except Failure (Option OAuthFlow) :=
  f.object.child "password" OAuthFlow.ofNode
def clientCredentials (f : OAuthFlows) : Except Failure (Option OAuthFlow) :=
  f.object.child "clientCredentials" OAuthFlow.ofNode
def authorizationCode (f : OAuthFlows) : Except Failure (Option OAuthFlow) :=
  f.object.child "authorizationCode" OAuthFlow.ofNode

end OAuthFlows

namespace HttpScheme

def type (s : HttpScheme) : Except Failure Literal := s.object.requireText "type" "security scheme"
def scheme? (s : HttpScheme) : Option Literal := s.object.text? "scheme"
def description? (s : HttpScheme) : Option Literal := s.object.text? "description"

end HttpScheme

namespace ApiKeyScheme

def type (s : ApiKeyScheme) : Except Failure Literal :=
  s.object.requireText "type" "security scheme"
def description? (s : ApiKeyScheme) : Option Literal := s.object.text? "description"
def name (s : ApiKeyScheme) : Except Failure Literal :=
  s.object.requireText "name" "apiKey security scheme"
def location (s : ApiKeyScheme) : Except Failure Literal :=
  s.object.requireText "in" "apiKey security scheme"

end ApiKeyScheme

namespace OAuth2Scheme

def type (s : OAuth2Scheme) : Except Failure Literal :=
  s.object.requireText "type" "security scheme"
def description? (s : OAuth2Scheme) : Option Literal := s.object.text? "description"
def flows (s : OAuth2Scheme) : Except Failure (Option OAuthFlows) :=
  s.object.child "flows" OAuthFlows.ofNode

end OAuth2Scheme

namespace OpenIdScheme

def type (s : OpenIdScheme) : Except Failure Literal :=
  s.object.requireText "type" "security scheme"
def url? (s : OpenIdScheme) : Option Literal := s.object.text? "openIdConnectUrl"

end OpenIdScheme

namespace SecurityScheme

/-- The scheme that a node is, if it has a recognized type. -/
def classify (node : Node) : Option SecurityScheme :=
  match node.object? with
  | none => none
  | some o =>
    match o.literal? "type" with
    | none => none
    | some l =>
      match l.text with
      | "http" => some (.http ⟨o⟩)
      | "apiKey" => some (.apiKey ⟨o⟩)
      | "oauth2" => some (.oauth2 ⟨o⟩)
      | "openIdConnect" => some (.openId ⟨o⟩)
      | _ => none

/-- The scheme that a node has to be. -/
def ofNode (node : Node) : Except Failure SecurityScheme :=
  match classify node with
  | some scheme => .ok scheme
  | none => .error (.shape (.unknownScheme node.start))

/-- The scheme that is written in place or referred to. -/
def resolve (root : Node) : OrReference SecurityScheme → Except Failure SecurityScheme
  | .inline scheme => .ok scheme
  | .reference r => do
    let node ← r.target root
    match classify node with
    | some scheme => return scheme
    | none => .error (.shape (.targetNotScheme (← r.pointer)))

end SecurityScheme

end ServiceModel
