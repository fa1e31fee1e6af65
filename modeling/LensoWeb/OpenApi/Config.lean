import LensoWeb.Foundation.Json

/-!
# Configuration of the OpenAPI document

The immutable document policy that App Composition selects, and the checks made
before it is used. The components object is author-supplied JSON; only the
sections that a strict contract refers to are looked at.
-/

namespace OpenApi

open Foundation

/-- One explicitly configured server entry. -/
structure OpenApiServer where
  url : Str
  description : Option Str
deriving DecidableEq

/-- `OpenApiConfig`. -/
structure OpenApiConfig where
  title : Str
  version : Str
  description : Option Str
  documentPath : Str
  servers : List OpenApiServer
  components : Option (List (Str × Json))
deriving DecidableEq

namespace OpenApiConfig

/-- `OpenApiConfig::validate`. -/
def validate (config : OpenApiConfig) : Except Str Unit :=
  if (Str.trim config.title).isEmpty then .error (lit "title must not be empty")
  else if (Str.trim config.version).isEmpty then .error (lit "version must not be empty")
  else if !(lit "/").isPrefixOf config.documentPath ||
      config.documentPath.any (lit "?#\x7b\x7d").contains then
    .error (lit "document_path must be one static absolute path")
  else if config.servers.any fun server => (Str.trim server.url).isEmpty then
    .error (lit "server URLs must not be empty")
  else .ok ()

/-- `OpenApiConfig::default`. -/
def default : OpenApiConfig where
  title := lit "Lenso App"
  version := lit "0.0.0"
  description := none
  documentPath := lit "/openapi.json"
  servers := []
  components := none

theorem validate_default : default.validate = .ok () := rfl

/-- A named entry of one section of the components. -/
def component (config : OpenApiConfig) (part name : Str) : Option Json :=
  ((config.components.bind (Assoc.find part)).bind Json.asObject).bind (Assoc.find name)

end OpenApiConfig

end OpenApi
