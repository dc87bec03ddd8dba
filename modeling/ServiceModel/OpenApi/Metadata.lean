/-
Extensions as metadata, and the extension that names the parameter of a request body.
-/
import ServiceModel.Document.Fields
import ServiceModel.Naming.Words
import ServiceModel.Service.Basic

namespace ServiceModel

open Service

namespace Literal

/-- The value with its place. -/
def located (l : Literal) : Located Primitive := ⟨l.value, some l.loc⟩

/-- The value as a text, with its place. -/
def locatedText (l : Literal) : Located String := ⟨l.text, some l.loc⟩

/-- The truth value that a value is, with its place. -/
def flag? (l : Literal) : Option (Located Bool) :=
  match l.value with
  | .bool b => some ⟨b, some l.loc⟩
  | _ => none

/-- The number that a value is, with its place. -/
def amount? (l : Literal) : Option (Located Number) :=
  match l.value with
  | .int i => some ⟨.int i, some l.loc⟩
  | .double x => some ⟨.double x, some l.loc⟩
  | _ => none

/-- Does a value stand there that counts as true? -/
def isSet (l : Option Literal) : Bool :=
  match l with
  | some l => l.value.isTruthy
  | none => false

end Literal

/-- The metadata that an extension is. -/
def Service.MetaValue.ofExtension (entry : Key × Node) : MetaValue :=
  ⟨⟨String.ofList (entry.1.name.toList.drop Object.extensionMark.length), some entry.1.loc⟩,
    ⟨entry.2.toJson, some entry.2.loc⟩⟩

/-- The extensions of an object, without the mark in front of their names; nothing when there are
none. -/
def Object.metadata (o : Object) : Option (List MetaValue) :=
  match o.extensions with
  | [] => none
  | entries => some (entries.map MetaValue.ofExtension)

/-- The extension that names the parameter of a request body, in kebab case. -/
def bodyNameExtension : String := "codegen-request-body-name"

/-- The name that metadata give to the parameter of a request body. The first extension counts
whose name is, in kebab case, the one for this; it has to be a text. -/
def bodyName? (metadata : Option (List MetaValue)) : Option (Located String) :=
  match (metadata.getD []).find? (Naming.kebab ·.key.value == bodyNameExtension) with
  | some item =>
    match item.value.value with
    | .string name => some ⟨name, item.value.loc⟩
    | _ => none
  | none => none

end ServiceModel
