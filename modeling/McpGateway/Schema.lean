import McpGateway.Basic

/-! # `document_chunks`

The table both programs work on: the ingestion daemon writes it, the gateway reads it. -/

namespace McpGateway

/-- The values the `CHECK` on `document_chunks.classification` admits. -/
inductive Classification where
  | publicLevel | internal | confidential
  deriving DecidableEq, Repr

/-- The text stored in the column. -/
def Classification.text : Classification → String
  | .publicLevel  => "PUBLIC"
  | .internal     => "INTERNAL"
  | .confidential => "CONFIDENTIAL"

/-- An embedding, as the bit patterns of its 32-bit floats. -/
abbrev Vector32 := List UInt32

/-- A row of `document_chunks`, without `minio_key`, which nothing reads any more. -/
structure DocumentChunk where
  id : Uuid
  docName : String
  classification : Classification
  chunkIndex : Int
  textPreview : Option String
  createdAt : Nat
  workspaceId : Uuid
  encryptedContent : Option Bytes
  embedding : Option Vector32
  sourceItemId : Option String
  deriving DecidableEq, Repr

end McpGateway
