import McpGateway.Text

/-! # Text extraction

`extract_text` of `ingestion/src/main.rs`. -/

namespace McpGateway.Ingestion

/-! ## `extract_text` -/

/-- `str::ends_with`. -/
def endsWith (s ending : String) : Bool := ending.toList.isSuffixOf s.toList

/-- `extract_text`: decode by extension; binary formats and undecodable bytes give no text. -/
def extractText (u : UnicodeTables) (content : Bytes) (filename : String) : String :=
  let lower := u.toLowercase filename
  if endsWith lower ".txt" || endsWith lower ".md" || endsWith lower ".rst" then
    fromUtf8Lossy content
  else if endsWith lower ".pdf" || endsWith lower ".docx" || endsWith lower ".doc"
      || endsWith lower ".pptx" then
    ""
  else
    match fromUtf8 content with
    | some s => s
    | none => ""

end McpGateway.Ingestion
