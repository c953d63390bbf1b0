import Scim.Schema.Basic
import Scim.Schema.CommonAttributes

/-! What a path denotes within a resource type: the definitions along it and the schema that owns
them. Common attributes go first and core attributes second; an attribute of an extension is
found without its URN only where no other extension defines it. -/
namespace Scim

inductive Owner where
  | common
  | core
  | extension (schema : Schema)
  deriving DecidableEq

structure Resolution where
  /-- One definition for each segment. -/
  chain : List Attribute
  owner : Owner
  deriving DecidableEq

structure ResolvedAttribute where
  definition : Attribute
  fullPath : String
  urn : Option String
  deriving DecidableEq

namespace ResourceType

def urn? (type : ResourceType) : Owner → Option String
  | .common => none
  | .core => some type.core.id
  | .extension schema => some schema.id

/-- Within the schema of a URN; the core schema's URN covers the common attributes too. -/
def lookupQualified (type : ResourceType) (urn : String) (names : List String) :
    Option Resolution :=
  if Caseless type.core.id urn then
    match walk type.core.attributes names with
    | some chain => some ⟨chain, .core⟩
    | none => (walk commonAttributes names).map (⟨·, .common⟩)
  else
    (type.extension? urn).bind fun schema =>
      (walk schema.attributes names).map (⟨·, .extension schema⟩)

def extensionMatches (type : ResourceType) (names : List String) : List Resolution :=
  type.extensions.filterMap fun schema =>
    (walk schema.attributes names).map (⟨·, .extension schema⟩)

def lookupUnqualified (type : ResourceType) (names : List String) : Option Resolution :=
  match walk commonAttributes names with
  | some chain => some ⟨chain, .common⟩
  | none =>
    match walk type.core.attributes names with
    | some chain => some ⟨chain, .core⟩
    | none =>
      match type.extensionMatches names with
      | [found] => some found
      | _ => none

/-- The root resolves to nothing. -/
def lookup (type : ResourceType) (path : Path) : Option Resolution :=
  if path.isRoot then none
  else
    match path.schema with
    | some urn => type.lookupQualified urn path.names
    | none => type.lookupUnqualified path.names

def find? (type : ResourceType) (path : Path) : Option Attribute :=
  (type.lookup path).bind (·.chain.getLast?)

def fullPath (type : ResourceType) (found : Resolution) : String :=
  let names := dotted (found.chain.map (·.name))
  match type.urn? found.owner with
  | some urn => urn ++ ":" ++ names
  | none => names

def describe (type : ResourceType) (found : Resolution) : Option ResolvedAttribute :=
  found.chain.getLast?.map fun definition =>
    ⟨definition, type.fullPath found, type.urn? found.owner⟩

def attribute? (type : ResourceType) (path : Path) : Option ResolvedAttribute :=
  (type.lookup path).bind type.describe

end ResourceType

def respellSegments (segments : List Segment) (chain : List Attribute) : List Segment :=
  List.zipWith (fun segment definition => { segment with name := definition.name }) segments chain

/-- An unqualified path within an attribute; one that does not resolve stays as it is. -/
def Attribute.respellPath (scope : Attribute) (path : Path) : Path :=
  match path.schema, walk scope.subAttributes path.names with
  | none, some chain => { path with segments := respellSegments path.segments chain }
  | _, _ => path

def Attribute.respellSegment (definition : Attribute) (segment : Segment) : Segment :=
  ⟨definition.name, segment.filter.map (·.mapPaths definition.respellPath)⟩

namespace ResourceType

/-- The URN of a path in canonical form: always there for an extension, kept for the core schema
and dropped for common attributes. -/
def canonicalUrn (type : ResourceType) (owner : Owner) (given : Option String) : Option String :=
  match owner with
  | .common => none
  | .core => given.map fun _ => type.core.id
  | .extension schema => some schema.id

def respell (type : ResourceType) (found : Resolution) (path : Path) : Path :=
  ⟨type.canonicalUrn found.owner path.schema,
    List.zipWith (fun segment definition => definition.respellSegment segment)
      path.segments found.chain⟩

def correctCase (type : ResourceType) (path : Path) : Option Path :=
  (type.lookup path).map fun found => type.respell found path

def resolve (type : ResourceType) (path : Path) : Option (Path × ResolvedAttribute) :=
  (type.lookup path).bind fun found =>
    (type.describe found).map fun definition => (type.respell found path, definition)

end ResourceType

/-- Where the attribute names of a filter are looked up. -/
inductive Scope where
  | resource (type : ResourceType)
  | element (definition : Attribute)

def Scope.find? : Scope → Path → Option Attribute
  | .resource type, path => type.find? path
  | .element definition, path => definition.find? path

end Scim
