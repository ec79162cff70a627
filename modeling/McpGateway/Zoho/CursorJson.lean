import McpGateway.Foundation.Json
import McpGateway.Zoho.ListChanges

/-! # The cursor as JSON

The text `serde_json` writes for a cursor, and a reader for it: compact, fields in the order of the
structure. -/

namespace McpGateway.Zoho

open Foundation.Json

def folderKey : List Char := "\x7b\"folder_id\":".toList

def offsetKey : List Char := ",\"next_offset\":".toList

def watermarkKey : List Char := "\x7b\"watermark_ms\":".toList

def queueKey : List Char := ",\"queue\":".toList

def visitedKey : List Char := ",\"visited\":".toList

def rootKey : List Char := ",\"root_id\":".toList

def startedKey : List Char := ",\"run_started_ms\":".toList

def closing : List Char := "\x7d".toList

def FolderCursor.print (f : FolderCursor) : List Char :=
  folderKey ++ (quoted f.folderId ++ (offsetKey ++ (nat f.nextOffset.toNat ++ closing)))

/-- An offset that is too large for a `u32` is not read. -/
def FolderCursor.read (cs : List Char) : Option (FolderCursor × List Char) := do
  let cs ← eat folderKey cs
  let (folderId, cs) ← readQuoted cs
  let cs ← eat offsetKey cs
  let (offset, cs) ← readNat cs
  let cs ← eat closing cs
  if offset < 4294967296 then some (⟨folderId, UInt32.ofNat offset⟩, cs) else none

def ZohoCursor.print (c : ZohoCursor) : List Char :=
  watermarkKey ++ (int c.watermarkMs ++ (queueKey ++ (array FolderCursor.print c.queue ++
    (visitedKey ++ (array quoted c.visited ++ (rootKey ++ (quoted c.rootId ++
      (startedKey ++ (int c.runStartedMs ++ closing)))))))))

/-- Nothing may follow the cursor. -/
def ZohoCursor.read (cs : List Char) : Option ZohoCursor := do
  let cs ← eat watermarkKey cs
  let (watermark, cs) ← readInt cs
  let cs ← eat queueKey cs
  let (queue, cs) ← readArray FolderCursor.read cs
  let cs ← eat visitedKey cs
  let (visited, cs) ← readArray readQuoted cs
  let cs ← eat rootKey cs
  let (root, cs) ← readQuoted cs
  let cs ← eat startedKey cs
  let (started, cs) ← readInt cs
  let cs ← eat closing cs
  if cs.isEmpty then some ⟨watermark, queue, visited, root, started⟩ else none

theorem FolderCursor.read_print (f : FolderCursor) (rest : List Char) :
    FolderCursor.read (f.print ++ rest) = some (f, rest) := by
  have hends : EndsNumber (closing ++ rest) := .cons (by decide) rest
  have hoffset := readNat_nat f.nextOffset.toNat hends
  have hlt : f.nextOffset.toNat < 4294967296 := f.nextOffset.toNat_lt
  simp [FolderCursor.print, FolderCursor.read, eat_append, readQuoted_quoted, hoffset, hlt]

/-- **A cursor is read back as written.** -/
theorem ZohoCursor.read_print (c : ZohoCursor) : ZohoCursor.read c.print = some c := by
  have hqueue := @readArray_array _ FolderCursor.print FolderCursor.read
    (fun f rest _ => FolderCursor.read_print f rest) (fun f => ⟨_, _, rfl, by decide⟩) c.queue
  have hvisited := @readArray_array _ quoted readQuoted
    (fun s rest _ => readQuoted_quoted s rest) (fun s => ⟨_, _, rfl, by decide⟩) c.visited
  have hqueueKey : ∀ rest, EndsNumber (queueKey ++ rest) := fun rest => .cons (by decide) _
  have hwatermark := fun rest => readInt_int c.watermarkMs (hqueueKey rest)
  have hclosing : EndsNumber closing := .cons (by decide) []
  have hstarted := readInt_int c.runStartedMs hclosing
  have hend : eat closing closing = some [] := rfl
  simp [ZohoCursor.print, ZohoCursor.read, eat_append, hqueue, hvisited, readQuoted_quoted,
    hwatermark, hstarted, hend]

def compactJson : CursorJson where
  toJson c := String.ofList c.print
  fromJson s := ZohoCursor.read s.toList
  fromJson_toJson c := by
    rw [String.toList_ofList]
    exact ZohoCursor.read_print c

end McpGateway.Zoho
