import Backplane.Files.Deletion
import Backplane.Llm.GeminiStream

/-!
# Files that messages refer to

A message for a model may refer to a file by its name.  Before a provider sees the messages, the
router looks the name up in the scope of the request's task, and puts the file, or a note about it,
where the reference was.  The messages come from the text of a frame, so no two of them share a
list.

* `classify`, `inlineBlob` : what is put there, by the type of the file.
* `collectFileRefs` : the references of a request, in order.
* `resolveRequestFileRefs` : what the request becomes, and the blobs that were read.
-/

namespace Backplane.Attachments

open Chat (Value Dict)
open Chat.Gemini (base64)

/-! ### Text -/

/-- `a or b` -/
def textOr (a : Option String) (b : String) : String :=
  (a.filter (· ≠ "")).getD b

/-- `str.isspace`, of a character. -/
def isSpace (c : Char) : Bool :=
  let n := c.toNat
  (9 ≤ n && n ≤ 13) || (28 ≤ n && n ≤ 32) || n == 0x85 || n == 0xa0 || n == 0x1680 ||
    (0x2000 ≤ n && n ≤ 0x200a) || n == 0x2028 || n == 0x2029 || n == 0x202f || n == 0x205f ||
    n == 0x3000

/-- `str.strip` -/
def strip (s : String) : String :=
  String.ofList ((s.toList.dropWhile isSpace).reverse.dropWhile isSpace).reverse

/-! ### Pictures -/

/-- The library that reads pictures; `none`: it raises. -/
structure Pil (Img : Type) where
  /-- `Image.open` -/
  open_ : List UInt8 → Option Img
  format : Img → Option String
  size : Img → ℕ × ℕ
  mode : Img → String
  /-- `img.thumbnail((side, side))` -/
  thumbnail : Img → ℕ → Option Img
  /-- `img.convert("RGB")` -/
  convertRgb : Img → Option Img
  /-- `img.save(out, format="JPEG", quality=85)` -/
  saveJpeg : Img → Option (List UInt8)
  /-- `img.save(out, format=fmt)` -/
  save : Img → String → Option (List UInt8)

/-- The parts of the environment that a request depends on. -/
structure Env (Img : Type) where
  /-- `str.isprintable`, of a character. -/
  isPrintable : Char → Bool
  lower : String → String
  /-- The library that reads pictures. -/
  pil : Pil Img
  /-- `llm_request_max_file_refs` -/
  maxRefs : ℕ
  /-- `llm_attachment_inline_max_bytes` -/
  inlineCap : ℕ
  /-- `llm_image_max_long_side_px` -/
  imageMaxLongSide : ℕ
  /-- `llm_image_rescale_source_max_bytes` -/
  imageSourceCap : ℕ

/-- What the router has stored. -/
structure Stash where
  db : Db := {}
  /-- The column `mime_type` of `files`. -/
  mimeTypes : Table String String := ∅
  /-- The chunks that the file store yields for a digest. -/
  stored : Table String (List (List UInt8)) := ∅

/-- What a request raises. -/
inductive Raised
  | resolution (code message : String)
  /-- `AttributeError`: only a string has a method `startswith`. -/
  | attributeError
  | badText
  /-- The file store has no such file. -/
  | notStored
  deriving DecidableEq

/-- The digests whose blobs are read, and what comes of it. -/
abbrev Reading (α : Type) := List String × Except Raised α

/-- How a file is put into a message. -/
inductive Strategy
  | image
  | document
  | text
  | reference
  deriving DecidableEq

section

variable {Img : Type} (env : Env Img) (stash : Stash)

/-- `_downscale_image` -/
def downscaleImage (pil : Pil Img) (data : List UInt8) (mime : String) (maxLongSide : ℕ) :
    List UInt8 × String :=
  if maxLongSide = 0 then (data, mime)
  else match pil.open_ data with
    | none => (data, mime)
    | some img =>
      let fmt := (textOr (pil.format img) "PNG").toUpper
      if max (pil.size img).1 (pil.size img).2 ≤ maxLongSide then (data, mime)
      else
        let out := (pil.thumbnail img maxLongSide).bind fun img =>
          if fmt = "JPEG" ∨ fmt = "JPG" then
            (if pil.mode img ∈ ["RGB", "L"] then some img else pil.convertRgb img).bind pil.saveJpeg
          else pil.save img fmt
        (out.getD data, mime)

/-! ### Types of files -/

/-- `_TEXT_APP_MIMES` -/
def textAppMimes : List String :=
  ["application/json", "application/xml", "application/yaml", "application/x-yaml",
    "application/javascript", "application/ecmascript", "application/x-ndjson", "application/toml",
    "application/x-sh", "application/csv", "application/x-csv"]

/-- `_base_mime` -/
def baseMime (mime : Option String) : String :=
  env.lower (strip (String.ofList ((mime.getD "").toList.takeWhile (· ≠ ';'))))

/-- `_is_text_mime` -/
def isTextMime (mime : String) : Bool :=
  "text/".toList.isPrefixOf mime.toList || decide (mime ∈ textAppMimes) ||
    ["+json", "+xml", "+yaml"].any fun suffix => suffix.toList.isSuffixOf mime.toList

/-- `_classify` -/
def classify (mime : Option String) (as_ : Option Value) : Strategy :=
  match as_ with
  | some (.str "image") => .image
  | some (.str "document") => .document
  | _ =>
    let m := baseMime env mime
    if "image/".toList.isPrefixOf m.toList then .image
    else if m = "application/pdf" then .document
    else if isTextMime m then .text
    else .reference

/-- `_split_named_ref`: whether the scope is the persistent one, and the bare name. -/
def splitNamedRef (name : String) : Option (Bool × String) :=
  let (persistent, bare) := deleteReference name
  if bare = "" ∨ '/' ∈ bare.toList then none else some (persistent, bare)

/-! ### A blob -/

/-- A part of text. -/
def textPart (s : String) : Value := .obj [("text", .str s)]

/-- `[attached file …: … — contents not inlined]` -/
def attachedNote (name : String) (mimeType : Option String) (why : String) : Value :=
  textPart ("[attached file " ++ pyRepr env.isPrintable name ++ " (" ++
    textOr (some (baseMime env mimeType)) "application/octet-stream" ++ "): " ++ why ++
    " — contents not inlined]")

/-- A picture or a document, in base64. -/
def envelope (key : String) (mimeType : Option String) (bytes : List UInt8) (displayName : String) :
    Value :=
  .obj [(key, .obj ([("mime_type", .str (textOr mimeType "application/octet-stream")),
    ("data", .str (String.ofList (base64 (bytes.map UInt8.toNat))))] ++
      if displayName = "" then [] else [("display_name", .str displayName)]))]

/-- `stream_cap` -/
def streamCap (strategy : Strategy) : ℕ :=
  if strategy = .image ∧ 0 < env.imageMaxLongSide then max env.imageSourceCap env.inlineCap
  else env.inlineCap

/-- The chunks are read to their end, unless they get too long. -/
def readCapped (cap : ℕ) : List UInt8 → List (List UInt8) → Except Raised (List UInt8)
  | buf, [] => .ok buf
  | buf, chunk :: chunks =>
    if cap < (buf ++ chunk).length then
      .error (.resolution "attachment_too_large"
        ("LLM file attachment exceeds the " ++ toString cap ++ "-byte cap"))
    else readCapped cap (buf ++ chunk) chunks

/-- What the bytes that were read become. -/
def renderBytes (strategy : Strategy) (mimeType : Option String) (displayName : String)
    (buf : List UInt8) : Except Raised Value :=
  let name := textOr (some displayName) "file"
  match strategy with
  | .text =>
    match String.fromUTF8? ⟨buf.toArray⟩ with
    | none => .ok (attachedNote env name mimeType "could not be decoded as UTF-8 text")
    | some text => .ok (textPart ("File: " ++ name ++ "\n\n" ++ text))
  | .image =>
    let (bytes, mime) := downscaleImage env.pil buf
      (textOr mimeType "application/octet-stream") env.imageMaxLongSide
    if env.inlineCap < bytes.length then
      .error (.resolution "attachment_too_large"
        ("image is " ++ toString bytes.length ++ " bytes after downscaling to " ++
          toString env.imageMaxLongSide ++ "px, still over the " ++ toString env.inlineCap ++
          "-byte inline cap — send a smaller image or lower ROUTER_LLM_IMAGE_MAX_LONG_SIDE_PX"))
    else .ok (envelope "image" (some mime) bytes displayName)
  | _ => .ok (envelope "document" mimeType buf displayName)

/-- `_inline_blob`: what takes the place of the reference. -/
def inlineBlob (ref : Dict) (sha256 : String) (byteSize : ℕ) (mimeType : Option String)
    (displayName : String) : Reading Value :=
  let strategy := classify env mimeType (ref.lookup "as")
  let cap := streamCap env strategy
  if strategy = .reference then
    ([], .ok (attachedNote env (textOr (some displayName) "file") mimeType
      "not a multimodal-supported type"))
  else if cap < byteSize then
    ([], .error (.resolution "attachment_too_large"
      ("LLM file attachment is " ++ toString byteSize ++ " bytes, over the " ++ toString cap ++
        "-byte cap (provider-native upload for large media is not yet supported — send a " ++
        "smaller file or a provider-native reference part)")))
  else
    ([sha256], match stash.stored.lookup sha256 with
      | none => .error .notStored
      | some chunks =>
        (readCapped cap [] chunks).bind (renderBytes env strategy mimeType displayName))

/-! ### The references of a request -/

/-- The payload of a part that refers to a file. -/
def fileRef : Value → Option Dict
  | .obj fields =>
    match fields.lookup "file_ref" with
    | some (.obj ref) => some ref
    | _ => none
  | _ => none

/-- The parts of a message whose content is a list. -/
def contentParts (message : Dict) : List Value :=
  match message.lookup "content" with
  | some (.arr parts) => parts
  | _ => []

/-- Where a reference is: the message, the index in its content, and the payload. -/
structure Location where
  message : ℕ
  /-- `idx` -/
  index : ℕ
  /-- `fr` -/
  ref : Dict

/-- The references of the parts of one message. -/
def partRefs (i : ℕ) (parts : List (Value × ℕ)) : List Location :=
  parts.filterMap fun part => (fileRef part.1).map fun ref => ⟨i, part.2, ref⟩

/-- `_collect_file_refs` -/
def collectFileRefs (messages : List Dict) : List Location :=
  messages.zipIdx.flatMap fun m => partRefs m.2 (contentParts m.1).zipIdx

/-- A key of a dictionary gets another value, if it is there. -/
def modifyKey (key : String) (f : Value → Value) : Dict → Dict
  | [] => []
  | (k, v) :: fields => if k = key then (k, f v) :: fields else (k, v) :: modifyKey key f fields

/-- `content[idx] = part` -/
def setItem (idx : ℕ) (part : Value) : Value → Value
  | .arr parts => .arr (parts.set idx part)
  | v => v

/-- `content[idx] = part`, where the location is. -/
def setPart (messages : List Dict) (loc : Location) (part : Value) : List Dict :=
  messages.modify loc.message (modifyKey "content" (setItem loc.index part))

/-! ### Resolution -/

/-- `derive_task_file_scope` -/
def deriveTaskFileScope (db : Db) (t : TaskId) (agentId : AgentId) : Option (UserId × SessionId) :=
  ((db.tasks.lookup t).filter fun r => r.activeAgentId = agentId).map fun r =>
    (r.userId, r.sessionId)

/-- A reference is resolved in the scopes of a user and a session. -/
def resolveRef (u : UserId) (session : SessionId) (ref : Dict) : Reading Value :=
  match ref.lookup "name" with
  | some (.str name) =>
    match splitNamedRef name with
    | none => ([], .error (.resolution "invalid_attachment"
        ("invalid file name " ++ pyRepr env.isPrintable name)))
    | some (persistent, bare) =>
      if '\x00' ∈ bare.toList then ([], .error .badText)
      else match stash.db.fileNames.lookup (u, scopeFor persistent session, bare) with
        | none => ([], .error (.resolution "attachment_not_found"
            ("no stash file named " ++ pyRepr env.isPrintable name)))
        | some row =>
          match (stash.db.files.lookup row.fileId).filter fun blob => blob.userId = u with
          | none => ([], .error (.resolution "attachment_not_found"
              ("stash file " ++ pyRepr env.isPrintable name ++ " blob is missing")))
          | some blob => inlineBlob env stash ref blob.sha256 blob.byteSize
              (stash.mimeTypes.lookup row.fileId) (textOr blob.originalFilename bare)
  | _ => ([], .error .attributeError)

/-- The references are resolved one after the other. -/
def resolveRefs (u : UserId) (session : SessionId) :
    List Dict → List Location → Reading (List Dict)
  | messages, [] => ([], .ok messages)
  | messages, loc :: locs =>
    match resolveRef env stash u session loc.ref with
    | (reads, .error e) => (reads, .error e)
    | (reads, .ok part) =>
      let (reads', result) := resolveRefs u session (setPart messages loc part) locs
      (reads ++ reads', result)

/-- A request. -/
structure Request where
  messages : List Dict
  /-- `user_id`, which the request asserts. -/
  userId : Option UserId := none
  callerAgentId : AgentId
  taskId : Option TaskId := none

/-- The reference has no name. -/
def nameless (ref : Dict) : Bool :=
  match ref.lookup "name" with
  | none | some .null => true
  | _ => false

/-- `resolve_request_file_refs` -/
def resolveRequestFileRefs (req : Request) : Reading (List Dict) :=
  let locations := collectFileRefs req.messages
  if locations.isEmpty then ([], .ok req.messages)
  else if env.maxRefs < locations.length then
    ([], .error (.resolution "too_many_file_refs" ("LLM request references " ++
      toString locations.length ++ " files; the per-request limit is " ++ toString env.maxRefs)))
  else if locations.any fun loc => nameless loc.ref then
    ([], .error (.resolution "invalid_attachment" "each file_ref must carry a 'name'"))
  else match req.taskId.filter (· ≠ "") with
    | none => ([], .error (.resolution "file_ref_requires_task"
        ("a name file_ref requires the LlmRequest to carry a task_id (the scope is derived from " ++
          "the task, never from an asserted user_id/session_id)")))
    | some t =>
      if '\x00' ∈ t.toList then ([], .error .badText)
      else match deriveTaskFileScope stash.db t req.callerAgentId with
        | none => ([], .error (.resolution "denied"
            "name file_ref task is unknown or the agent is not its active executor"))
        | some (u, session) => resolveRefs env stash u session req.messages locations

end

end Backplane.Attachments
