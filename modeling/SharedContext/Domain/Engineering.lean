import SharedContext.Domain.Ids
import SharedContext.Domain.Validation

/-!
# Engineering references and Context relations

Persistent observations that connect a Context to coordinates in a source
repository, and the typed edges between Contexts.
-/

namespace SharedContext

inductive ArtifactKind
  | module
  | file
  | symbol
  | api
  | schema
  | test
  deriving DecidableEq, Repr

structure RepoRelativePath where
  text : String
  deriving DecidableEq, Repr

def validateRepoRelativePath (value : String) : Result Unit := do
  requireText value "artifact_locator.path"
  if value.toList.head? = some '/' || value.toList.contains '\\' then
    throw (invalid "artifact_locator.path must be a canonical repository-relative path")
  if (value.toList.splitOn '/').any fun component =>
      component == [] || component == ['.'] || component == ['.', '.'] then
    throw (invalid "artifact_locator.path must not contain empty or dot segments")

/-- Kind-specific coordinates of an Artifact inside one repository. -/
inductive ArtifactLocator
  | file (path : RepoRelativePath)
  | module (path : RepoRelativePath)
  | api (path : RepoRelativePath) (protocol operation normalizedRoute : String)
  | schema (path : RepoRelativePath) (namespaceName version qualifiedName : String)
  | symbol (path : RepoRelativePath) (language moduleName : String)
      (enclosingType : Option String) (symbolName signature : String)
  | test (path : RepoRelativePath) (qualifiedTestName : String)
  deriving DecidableEq, Repr

namespace ArtifactLocator

def kind : ArtifactLocator → ArtifactKind
  | .file .. => .file
  | .module .. => .module
  | .api .. => .api
  | .schema .. => .schema
  | .symbol .. => .symbol
  | .test .. => .test

def path : ArtifactLocator → RepoRelativePath
  | .file path | .module path | .api path .. | .schema path .. | .symbol path ..
  | .test path .. => path

def validate (locator : ArtifactLocator) : Result Unit := do
  validateRepoRelativePath locator.path.text
  match locator with
  | .file .. | .module .. => pure ()
  | .api _ protocol operation normalizedRoute =>
      requireText protocol "artifact_locator.protocol"
      requireText operation "artifact_locator.operation"
      requireText normalizedRoute "artifact_locator.normalized_route"
      if splitWhitespaceCount normalizedRoute ≠ 1 then
        throw (invalid "artifact_locator.normalized_route must not contain whitespace")
  | .schema _ namespaceName version qualifiedName =>
      requireText namespaceName "artifact_locator.namespace"
      requireText version "artifact_locator.version"
      requireText qualifiedName "artifact_locator.qualified_name"
  | .symbol _ language moduleName enclosingType symbolName signature =>
      requireText language "artifact_locator.language"
      requireText moduleName "artifact_locator.module"
      validateOptionalText enclosingType "artifact_locator.enclosing_type"
      requireText symbolName "artifact_locator.symbol_name"
      requireText signature "artifact_locator.signature"
  | .test _ qualifiedTestName =>
      requireText qualifiedTestName "artifact_locator.qualified_test_name"

end ArtifactLocator

/-- How durable Context knowledge relates to an engineering object. -/
inductive ReferenceRelation
  | implements
  | defines
  | consumes
  | validates
  | constrains
  | dependsOn
  deriving DecidableEq, Repr

def ReferenceRelation.supports : ReferenceRelation → ArtifactKind → Bool
  | .implements, kind => kind = .module || kind = .file || kind = .symbol
  | .defines, kind => kind = .symbol || kind = .api || kind = .schema
  | .consumes, kind => kind = .api || kind = .schema
  | .validates, kind => kind = .test
  | .constrains, kind => kind = .module || kind = .api || kind = .schema
  | .dependsOn, _ => true

/-- Persistent, non-authoritative observation connecting Context to
engineering coordinates. -/
structure EngineeringReference where
  referenceId : ReferenceId
  repositoryId : RepositoryId
  artifactKind : ArtifactKind
  relation : ReferenceRelation
  locator : ArtifactLocator
  supports : String
  limitations : List String
  deriving DecidableEq, Repr

def EngineeringReference.validate (reference : EngineeringReference) : Result Unit := do
  if !reference.relation.supports reference.artifactKind then
    throw (invalid "engineering_reference relation is incompatible with artifact_kind")
  reference.locator.validate.context fun error =>
    s!"engineering_reference locator is invalid: {error}"
  if reference.locator.kind ≠ reference.artifactKind then
    throw (invalid "engineering_reference artifact_kind must match locator kind")
  requireText reference.supports "engineering_reference.supports"
  requireTextItems reference.limitations "engineering_reference.limitations"

/-- Kinds of knowledge edges between two Contexts. -/
inductive ContextRelationKind
  | dependsOn
  | constrains
  | implements
  | validatedBy
  | contradicts
  | supersedes
  | relatedTo
  deriving DecidableEq, Repr

/-- A typed edge from one Context revision to another Context. -/
structure ContextRelation where
  targetContextId : ContextId
  kind : ContextRelationKind
  rationale : String
  supports : List String
  deriving DecidableEq, Repr

def ContextRelation.validate (relation : ContextRelation) : Result Unit := do
  requireText relation.rationale "context_relation.rationale"
  if relation.supports.isEmpty then
    throw (invalid "context_relation.supports must contain at least one statement")
  requireTextItems relation.supports "context_relation.supports"
  if ¬ relation.supports.Nodup then
    throw (invalid "context_relation.supports must not contain duplicates")

end SharedContext
