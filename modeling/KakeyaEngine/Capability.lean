import KakeyaEngine.Lib.Json

/-!
# Basic data: tokens, bytes and the compatibility tuple

The values that several subsystems exchange, and `CacheCompatibility`, the tuple of every setting that affects how a
prefill snapshot is interpreted.
-/

namespace KakeyaEngine

/-- A token id.  The source passes Python integers; range checks are made where the source makes them. -/
abbrev Token := Int

/-- A byte string. -/
abbrev Bytes := List UInt8

/-- A session id, issued by the server. -/
abbrev SessionId := String

/-- Exact compatibility tuple for reusable prefill K/V blocks. -/
structure CacheCompatibility where
  modelId : String
  modelRevision : String := ""
  tokenizerRevision : String := ""
  cacheFormatVersion : String := "kakeya-prefill-v2-zlib"
  quantization : String := ""
  ropeHash : String := ""
  layerGeometryHash : String := ""
  kvDtype : String := ""
  blockSizeTokens : Int := 64
  tenantNamespace : String := ""
  sinkSize : Int := 4
  windowSize : Int := 64
deriving DecidableEq

/-- The members of the tuple written as a JSON object, under the source's field names. -/
def CacheCompatibility.members (c : CacheCompatibility) : List (String × List Char) :=
  [("block_size_tokens", Json.int c.blockSizeTokens),
    ("cache_format_version", Json.str c.cacheFormatVersion),
    ("kv_dtype", Json.str c.kvDtype),
    ("layer_geometry_hash", Json.str c.layerGeometryHash),
    ("model_id", Json.str c.modelId),
    ("model_revision", Json.str c.modelRevision),
    ("quantization", Json.str c.quantization),
    ("rope_hash", Json.str c.ropeHash),
    ("sink_size", Json.int c.sinkSize),
    ("tenant_namespace", Json.str c.tenantNamespace),
    ("tokenizer_revision", Json.str c.tokenizerRevision),
    ("window_size", Json.int c.windowSize)]

end KakeyaEngine
