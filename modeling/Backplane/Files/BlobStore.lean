import Backplane.Data.EventSystem
import Backplane.Data.Posix

/-!
# The local store of blobs

A blob is stored under its digest.  A put writes it to a temporary file, whose name is that of the
digest too, checks what it has written, and renames the file.

* `BlobPath` : the two names of a digest.
* `Put` : a put, call by call.
* `BlobState`, `blobSystem` : puts and deletes, in any order of their calls.
* `BlobState.Sound` : what is stored is what its digest says, and a good put succeeds.
-/

namespace Backplane.Files

/-- The names in the directory of a digest. -/
inductive BlobPath
  | dest (sha : String)
  /-- `tmp` -/
  | part (sha : String)
  deriving DecidableEq

/-- How a put ends. -/
inductive PutResult
  | stored
  | raised
  | shaMismatch
  | sizeMismatch
  /-- `os.replace` raises: there is no such file. -/
  | missing
  deriving DecidableEq

/-- Where a put is. -/
inductive PutStage
  /-- `open` is awaited. -/
  | opening
  /-- The source is read, and `write` awaited. -/
  | writing (file : ℕ)
  /-- `close` is awaited, and an exception is raised then. -/
  | closing (file : ℕ) (raises : Bool)
  /-- `unlink` is awaited, and this is raised then. -/
  | removing (result : PutResult)
  /-- `os.replace` is awaited. -/
  | replacing
  | ended (result : PutResult)
  deriving DecidableEq

/-- A put. -/
structure Put where
  sha : String
  byteSize : ℤ
  stage : PutStage := .opening
  /-- What its source has yielded. -/
  content : List UInt8 := []
  /-- What the open file has not written yet. -/
  buffer : List UInt8 := []
  position : ℕ := 0
  /-- Its source has raised, or it is cancelled. -/
  isFailed : Bool := false

/-- It has opened the temporary file, and may have calls to make. -/
def Put.isActive (p : Put) : Bool :=
  match p.stage with
  | .opening | .ended _ => false
  | _ => true

/-- The files, the puts, and what puts have stored that was not deleted since. -/
structure BlobState where
  fs : FileSystem BlobPath := {}
  puts : Table ℕ Put := ∅
  /-- What is to be readable. -/
  kept : Table String (List UInt8) := ∅

/-- What happens. -/
inductive BlobEvent
  | put (id : ℕ) (sha : String) (byteSize : ℤ)
  | open_ (id : ℕ)
  /-- The source yields a chunk; `write` writes this many of the bytes that are due. -/
  | write (id : ℕ) (chunk : List UInt8) (flushed : ℕ)
  | finish (id : ℕ)
  | fail (id : ℕ)
  | close (id : ℕ)
  /-- `unlink` -/
  | remove (id : ℕ)
  | replace (id : ℕ)
  /-- The put is cancelled; the call that it awaits is made nevertheless, if it has begun. -/
  | cancel (id : ℕ)
  | drop (id : ℕ)
  | delete (sha : String)

namespace BlobState

variable (sha256 : List UInt8 → String) (s : BlobState)

/-- A put goes on. -/
def goOn (id : ℕ) (p : Put) : BlobState := { s with puts := s.puts.insert id p }

/-- `open(tmp, "wb")` -/
def opened (id : ℕ) (p : Put) : BlobState :=
  let (fs, file) := s.fs.openTruncate (.part p.sha)
  { s with fs }.goOn id { p with
    stage := if p.isFailed then .closing file true else .writing file }

/-- Bytes that are due are written. -/
def flushed (id : ℕ) (p : Put) (file n : ℕ) : BlobState × Put :=
  let bytes := p.buffer.take n
  let fs := s.fs.pwrite file p.position bytes
  let p := { p with buffer := p.buffer.drop n, position := p.position + bytes.length }
  ({ s with fs }.goOn id p, p)

/-- What follows when the file is closed. -/
def checked (p : Put) : PutStage :=
  if sha256 p.content ≠ p.sha then .removing .shaMismatch
  else if (p.content.length : ℤ) ≠ p.byteSize ∧ p.byteSize > 0 then .removing .sizeMismatch
  else .replacing

/-- `os.replace(tmp, dest)` -/
def replaced (id : ℕ) (p : Put) : BlobState :=
  match s.fs.rename (.part p.sha) (.dest p.sha) with
  | some fs =>
    if p.isFailed then { s with fs }.goOn id { p with stage := .ended .raised }
    else { s with fs, kept := s.kept.insert p.sha p.content }.goOn id
      { p with stage := .ended .stored }
  | none => s.goOn id { p with stage := .ended (if p.isFailed then .raised else .missing) }

/-- A put is cancelled. -/
def cancelled (p : Put) : Option Put :=
  match p.stage with
  | .ended _ => none
  | .writing file | .closing file _ =>
    some { p with stage := .closing file true, isFailed := true }
  | _ => some { p with isFailed := true }

/-- An event. -/
def step (s : BlobState) : BlobEvent → Option BlobState
  | .put id sha byteSize =>
    if (s.puts.lookup id).isSome then none else some (s.goOn id { sha, byteSize })
  | .open_ id => (s.puts.lookup id).bind fun p => match p.stage with
    | .opening => some (s.opened id p)
    | _ => none
  | .write id chunk n => (s.puts.lookup id).bind fun p => match p.stage with
    | .writing file => some (s.flushed id
        { p with content := p.content ++ chunk, buffer := p.buffer ++ chunk } file n).1
    | _ => none
  | .finish id => (s.puts.lookup id).bind fun p => match p.stage with
    | .writing file => some (s.goOn id { p with stage := .closing file false })
    | _ => none
  | .fail id => (s.puts.lookup id).bind fun p => match p.stage with
    | .writing file => some (s.goOn id { p with stage := .closing file true, isFailed := true })
    | _ => none
  | .close id => (s.puts.lookup id).bind fun p => match p.stage with
    | .closing file raises =>
      let (s, p) := s.flushed id p file p.buffer.length
      some (s.goOn id { p with
        stage := if raises then .ended .raised else checked sha256 p })
    | _ => none
  | .remove id => (s.puts.lookup id).bind fun p => match p.stage with
    | .removing result => some ({ s with fs := s.fs.unlink (.part p.sha) }.goOn id
        { p with stage := .ended (if p.isFailed then .raised else result) })
    | _ => none
  | .replace id => (s.puts.lookup id).bind fun p => match p.stage with
    | .replacing => some (s.replaced id p)
    | _ => none
  | .cancel id => (s.puts.lookup id).bind fun p => (cancelled p).map (s.goOn id)
  | .drop id => (s.puts.lookup id).bind fun p => match p.stage, p.isFailed with
    | .opening, true | .removing _, true | .replacing, true =>
      some (s.goOn id { p with stage := .ended .raised })
    | _, _ => none
  | .delete sha => some { s with fs := s.fs.unlink (.dest sha), kept := s.kept.erase sha }

/-- The source has yielded what the digest and the size say. -/
def Good (p : Put) : Prop :=
  p.isFailed = false ∧ sha256 p.content = p.sha ∧
    ((p.content.length : ℤ) = p.byteSize ∨ p.byteSize ≤ 0)

/-- What is claimed of a state. -/
structure Sound : Prop where
  /-- What is stored is what its digest says. -/
  intact : ∀ sha content, s.fs.read (.dest sha) = some content → sha256 content = sha
  /-- A put that is over has succeeded, if it was good. -/
  succeeds : ∀ id p result, s.puts.lookup id = some p → p.stage = .ended result →
    Good sha256 p → result = .stored
  /-- What was stored is readable, until it is deleted. -/
  readable : ∀ sha content, s.kept.lookup sha = some content →
    s.fs.read (.dest sha) = some content

end BlobState

/-- The store, from the start on. -/
def blobSystem (sha256 : List UInt8 → String) : EventSystem BlobState BlobEvent :=
  ⟨{}, BlobState.step sha256⟩

end Backplane.Files
