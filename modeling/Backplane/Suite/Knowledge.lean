import Backplane.Concur.Fallible
import Backplane.Data.Deferred

/-!
# The knowledge base

A user's documents are rows of one table, the chunks they were cut into rows of another, which repeat
the collection, the title and the tags.  Neither table knows transactions, and there is no lock.

* `Doc`, `Chunk`, `KbStore` : the two tables.
* `KbAct`, `KbAct.exec` : calls to the tables and errands outside, any of which may fail.
* `runKbStore`, `runKbModify`, `runKbRemove` : the modes that change the store.
* `knowledgeBase` : any number of them at once.
-/

namespace Backplane.Knowledge

open Concur Prog Deferred

/-! ### The tables -/

/-- What a chunk repeats of its document. -/
structure Meta where
  collection : String
  title : String
  tags : List String
  deriving DecidableEq, Repr

/-- The name of a document. -/
abbrev DocId := ℕ

/-- A row of `documents`. -/
structure Doc extends Meta where
  docId : DocId
  description : String
  sha256 : String
  sourceName : String
  createdAt : ℕ
  updatedAt : ℕ
  /-- What it was cut into; no column. -/
  parts : List String
  deriving DecidableEq, Repr

/-- A row of `chunks`. -/
structure Chunk extends Meta where
  docId : DocId
  chunkIndex : ℕ
  content : String
  deriving DecidableEq, Repr

/-- What a call to `modify` changes. -/
structure Changes where
  collection : Option String := none
  title : Option String := none
  tags : Option (List String) := none
  description : Option String := none
  deriving DecidableEq, Repr

/-- `chunk_vals` is not empty. -/
def Changes.stamps (v : Changes) : Bool := v.collection.isSome || v.title.isSome || v.tags.isSome

/-- What the changes make of what a chunk repeats. -/
def Changes.apply (v : Changes) (m : Meta) : Meta :=
  ⟨v.collection.getD m.collection, v.title.getD m.title, v.tags.getD m.tags⟩

/-- The rows of a document that was cut into these parts. -/
def rowsOf (d : DocId) (parts : List String) (m : Meta) : List Chunk :=
  parts.mapIdx fun i content => ⟨m, d, i, content⟩

/-- What a call still has to do to the chunks, or to the documents, after its first statement. -/
inductive Pending
  | insert (d : DocId) (parts : List String) (m : Meta)
  | stamp (d : DocId) (v : Changes)
  /-- Delete documents whose chunks are gone. -/
  | erase (ds : List DocId)
  deriving DecidableEq, Repr

/-- The tables of a user, and what has become of the calls. -/
structure KbStore where
  docs : List Doc := []
  chunks : List Chunk := []
  /-- How many calls have begun. -/
  calls : ℕ := 0
  used : List DocId := []
  /-- The calls that have found no document of a hash, since when none was stored. -/
  looked : List (ℕ × String) := []
  /-- What the calls still have to do, in the order of their first statements. -/
  pending : List (ℕ × Pending) := []
  deriving DecidableEq, Repr

/-- The number of rows after which a scan stops. -/
def scanLimit : ℕ := 100000

namespace KbStore

/-- The chunks of a document. -/
def chunksOf (s : KbStore) (d : DocId) : List Chunk := s.chunks.filter (·.docId = d)

/-- What a scan reads. -/
def scan (s : KbStore) : List Doc := s.docs.take scanLimit

/-- A call has looked for a hash. -/
def look (n : ℕ) (sha : Option String) (s : KbStore) : KbStore :=
  match sha with
  | some h => if h ∈ s.scan.map Doc.sha256 then s else { s with looked := (n, h) :: s.looked }
  | none => s

/-- `_docs().add`, for call `n` -/
def addDoc (n : ℕ) (row : Doc) (s : KbStore) : KbStore :=
  { s with
    docs := s.docs ++ [row]
    used := row.docId :: s.used
    looked := s.looked.filter (·.2 ≠ row.sha256)
    pending := s.pending ++ [(n, .insert row.docId row.parts row.toMeta)] }

/-- `_chunks().add` -/
def addChunks (n : ℕ) (d : DocId) (parts : List String) (m : Meta) (s : KbStore) : KbStore :=
  { s with
    chunks := s.chunks ++ rowsOf d parts m
    pending := without n s.pending }

/-- `_docs().update` -/
def updateDoc (n now : ℕ) (d : DocId) (v : Changes) (s : KbStore) : KbStore :=
  { s with
    docs := s.docs.map fun row =>
      if row.docId = d then
        { row with
          toMeta := v.apply row.toMeta
          description := v.description.getD row.description
          updatedAt := now }
      else row
    used := d :: s.used
    pending := if v.stamps then s.pending ++ [(n, .stamp d v)] else s.pending }

/-- `_chunks().update` -/
def updateChunks (n : ℕ) (d : DocId) (v : Changes) (s : KbStore) : KbStore :=
  { s with
    chunks := s.chunks.map fun c => if c.docId = d then { c with toMeta := v.apply c.toMeta } else c
    pending := without n s.pending }

/-- `_chunks().delete` -/
def deleteChunks (n : ℕ) (ds : List DocId) (s : KbStore) : KbStore :=
  { s with
    chunks := s.chunks.filter fun c => c.docId ∉ ds
    used := ds ++ s.used
    pending := s.pending ++ [(n, .erase ds)] }

/-- `_docs().delete` -/
def deleteDocs (n : ℕ) (ds : List DocId) (s : KbStore) : KbStore :=
  { s with
    docs := s.docs.filter fun row => row.docId ∉ ds
    pending := without n s.pending }

end KbStore

/-! ### Statements -/

/-- A file of the stash. -/
structure KbFile where
  sha256 : String := ""
  text : String := ""
  deriving DecidableEq, Repr

/-- What the model generates. -/
structure KbGenerated where
  title : Option String := none
  tags : Option (List String) := none
  description : Option String := none
  deriving DecidableEq, Repr

/-- What the world decides at a statement. -/
structure KbEnv where
  /-- The statement fails, or an interruption strikes. -/
  fails : Bool := false
  file : KbFile := {}
  text : String := ""
  generated : KbGenerated := {}
  id : DocId := 0
  now : ℕ := 0

/-- Statements of the knowledge base, each by the call with this number. -/
inductive KbAct : Type → Type 1
  | begin : KbAct ℕ
  /-- `ctx.files.read_bytes` -/
  | readBytes (name : String) : KbAct (Option KbFile)
  /-- `_to_markdown`, for a file that is not text -/
  | toMarkdown (name : String) : KbAct (Option String)
  | generateMetadata (text : String) : KbAct (Option KbGenerated)
  | embedChunks (parts : List String) : KbAct Bool
  /-- `_scan_docs`, to look for a hash if one is given -/
  | scanDocs (n : ℕ) (sha : Option String) : KbAct (Option (List Doc))
  /-- `_docs().add`, with a new name -/
  | addDoc (n : ℕ) (m : Meta) (description sha256 sourceName : String) (parts : List String) :
    KbAct (Option DocId)
  /-- `_chunks().add` -/
  | addChunks (n : ℕ) (d : DocId) (parts : List String) (m : Meta) : KbAct Bool
  /-- `_docs().update` -/
  | updateDoc (n : ℕ) (d : DocId) (v : Changes) : KbAct Bool
  /-- `_chunks().update` -/
  | updateChunks (n : ℕ) (d : DocId) (v : Changes) : KbAct Bool
  /-- `_chunks().delete` -/
  | deleteChunks (n : ℕ) (ds : List DocId) : KbAct Bool
  /-- `_docs().delete` -/
  | deleteDocs (n : ℕ) (ds : List DocId) : KbAct Bool
  | strike (n : ℕ) : KbAct Bool

namespace KbAct

/-- A statement that answers, unless it fails. -/
def answer {α : Type} (e : KbEnv) (s s' : KbStore) (v : α) : Option (KbStore × Option α) :=
  some (if e.fails then (s, none) else (s', some v))

/-- A statement that writes, unless it fails. -/
def write (e : KbEnv) (s s' : KbStore) : Option (KbStore × Bool) :=
  some (if e.fails then (s, false) else (s', true))

/-- What a statement does. -/
def exec : {β : Type} → KbAct β → KbEnv → KbStore → Option (KbStore × β)
  | _, begin, _, s => some ({ s with calls := s.calls + 1 }, s.calls)
  | _, readBytes _, e, s => answer e s s e.file
  | _, toMarkdown _, e, s => answer e s s e.text
  | _, generateMetadata _, e, s => answer e s s e.generated
  | _, embedChunks _, e, s => write e s s
  | _, scanDocs n sha, e, s => answer e s (s.look n sha) s.scan
  | _, addDoc n m description sha256 sourceName parts, e, s =>
    -- A name is never given twice.
    if e.id ∈ s.used then none
    else answer e s (s.addDoc n ⟨m, e.id, description, sha256, sourceName, e.now, e.now, parts⟩) e.id
  | _, addChunks n d parts m, e, s => write e s (s.addChunks n d parts m)
  | _, updateDoc n d v, e, s => write e s (s.updateDoc n e.now d v)
  | _, updateChunks n d v, e, s => write e s (s.updateChunks n d v)
  | _, deleteChunks n ds, e, s => write e s (s.deleteChunks n ds)
  | _, deleteDocs n ds, e, s => write e s (s.deleteDocs n ds)
  | _, strike _, e, s => some (s, e.fails)

end KbAct

/-! ### The modes -/

/-- A program of the knowledge base. -/
abbrev KbTask (α : Type) := Fallible KbAct α

/-- What the agent computes from names and texts. -/
structure KbConfig where
  /-- The suffix of the name is one of a text file. -/
  isText : String → Bool := fun _ => true
  /-- The name without directory and suffix. -/
  stem : String → String := id
  /-- `chunk_markdown` with the settings -/
  chunkMarkdown : String → List String := fun text => [text]

/-- What is to be stored. -/
structure KbStoreCall where
  name : String
  collection : String := "default"
  title : Option String := none
  tags : Option (List String) := none
  description : Option String := none
  deriving DecidableEq, Repr

/-- `store_document` -/
def storeDocument (n : ℕ) (m : Meta) (description sha256 sourceName : String)
    (parts : List String) : KbTask Unit := do
  let d ← Fallible.query (.addDoc n m description sha256 sourceName parts)
  Fallible.write (.addChunks n d parts m)

/-- The metadata that the caller has omitted. -/
def omitted (p : KbStoreCall) (text : String) : KbTask KbGenerated :=
  if p.title.isNone || p.tags.isNone || p.description.isNone then
    Fallible.query (.generateMetadata text)
  else pure {}

/-- The text of the file. -/
def textOf (cfg : KbConfig) (p : KbStoreCall) (file : KbFile) : KbTask String :=
  if cfg.isText p.name then pure file.text else Fallible.query (.toMarkdown p.name)

/-- Store the chunks of a file, with the metadata it is given. -/
def ingest (cfg : KbConfig) (n : ℕ) (p : KbStoreCall) (sha256 text : String)
    (parts : List String) : KbTask Unit := do
  let gen ← omitted p text
  Fallible.write (.embedChunks parts)
  let title := (p.title.or gen.title).getD ""
  storeDocument n ⟨p.collection, if title = "" then cfg.stem p.name else title,
      (p.tags.or gen.tags).getD []⟩ ((p.description.or gen.description).getD "") sha256 p.name parts

/-- Store a file that is not there yet. -/
def storeNew (cfg : KbConfig) (n : ℕ) (p : KbStoreCall) (file : KbFile) : KbTask Unit := do
  let text ← textOf cfg p file
  if cfg.chunkMarkdown text = [] then pure ()
  else ingest cfg n p file.sha256 text (cfg.chunkMarkdown text)

/-- `run_kb_store` -/
def runKbStore (cfg : KbConfig) (n : ℕ) (p : KbStoreCall) : KbTask Unit := do
  let file ← Fallible.query (.readBytes p.name)
  let docs ← Fallible.query (.scanDocs n (some file.sha256))
  if docs.any (·.sha256 = file.sha256) then pure () else storeNew cfg n p file

/-- The documents of this title, in this collection if one is given. -/
def matching (title : String) (collection : Option String) (docs : List Doc) : List DocId :=
  (docs.filter fun d =>
    d.title = title && (collection.isNone || collection = some d.collection)).map Doc.docId

/-- Change a document, and stamp its chunks. -/
def modifyDoc (n : ℕ) (v : Changes) (d : DocId) : KbTask Unit := do
  Fallible.write (.updateDoc n d v)
  if v.stamps then Fallible.write (.updateChunks n d v) else pure ()

/-- Change these documents. -/
def modifyDocs (n : ℕ) (v : Changes) : List DocId → KbTask Unit
  | [] => pure ()
  | d :: ds => do
    modifyDoc n v d
    modifyDocs n v ds

/-- `run_kb_modify` -/
def runKbModify (n : ℕ) (title : String) (collection : Option String) (v : Changes) :
    KbTask ℕ := do
  let docs ← Fallible.query (.scanDocs n none)
  modifyDocs n v (matching title collection docs)
  pure (matching title collection docs).length

/-- Delete these documents and their chunks. -/
def removeDocs (n : ℕ) (ds : List DocId) : KbTask Unit := do
  Fallible.write (.deleteChunks n ds)
  Fallible.write (.deleteDocs n ds)

/-- `run_kb_remove`, `run_kb_delete` -/
def runKbRemove (n : ℕ) (title : String) (collection : Option String) : KbTask ℕ := do
  let docs ← Fallible.query (.scanDocs n none)
  let ds := matching title collection docs
  if ds = [] then pure 0
  else do
    removeDocs n ds
    pure ds.length

/-- The calls that change the store. -/
inductive KbCall
  | store (p : KbStoreCall)
  | modify (title : String) (collection : Option String) (v : Changes)
  /-- `remove_mode`, `delete_mode` -/
  | remove (title : String) (collection : Option String)
  deriving DecidableEq, Repr

/-- What a call does; it answers the number of documents. -/
def KbCall.task (cfg : KbConfig) (n : ℕ) : KbCall → KbTask ℕ
  | store p => do
    runKbStore cfg n p
    pure 1
  | modify title collection v => runKbModify n title collection v
  | remove title collection => runKbRemove n title collection

/-- The knowledge base of a user; a call may be struck before each of its statements. -/
def knowledgeBase (cfg : KbConfig) :
    Machine KbAct KbEnv KbStore KbCall (Option (Except Unit ℕ)) where
  exec := KbAct.exec
  body c := do
    let n ← perform .begin
    (c.task cfg n).run.interruptible (.strike n)

end Backplane.Knowledge
