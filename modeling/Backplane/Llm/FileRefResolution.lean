import Backplane.Llm.FileRefs

/-!
# The files of a request are those of its task

* `Named` : the blob that a reference's name is bound to, in the scope of a task.
* `Renders` : what takes the place of a reference; nothing is put there that is over the cap.
* `Sound` : what is claimed of a request.
* `Broken` : references that raise something else than a refusal.
* `resolveRefs_eq` : the loop replaces all references, or stops at the first that is refused.
* `resolution_sound_iff` : a request is sound, exactly when it does not come to a broken reference.
* `number_raises` : a reference whose name is a number is one.
-/

namespace Backplane.Attachments

open Chat (Value Dict)

section

variable {Img : Type} (env : Env Img) (stash : Stash)

/-! ### What is claimed -/

/-- The name of a reference is bound to a blob, in the scopes of a user and a session. -/
structure Named (u : UserId) (session : SessionId) (ref : Dict) (bare fileId : String)
    (blob : FileRow) : Prop where
  /-- The name is in one of the scopes. -/
  bound : ∃ name persistent row, ref.lookup "name" = some (.str name) ∧
    splitNamedRef name = some (persistent, bare) ∧ '\x00' ∉ bare.toList ∧
    stash.db.fileNames.lookup (u, scopeFor persistent session, bare) = some row ∧
    row.fileId = fileId
  /-- The blob is the user's. -/
  blob : stash.db.files.lookup fileId = some blob ∧ blob.userId = u

/-- How a blob is put into a message, where `ref` refers to it. -/
def strategyOf (ref : Dict) (fileId : String) : Strategy :=
  classify env (stash.mimeTypes.lookup fileId) (ref.lookup "as")

/-- What takes the place of a reference. -/
inductive Renders (ref : Dict) (bare fileId : String) (blob : FileRow) : Value → Prop
  | note (h : strategyOf env stash ref fileId = .reference) :
    Renders ref bare fileId blob (attachedNote env (textOr (some
      (textOr blob.originalFilename bare)) "file") (stash.mimeTypes.lookup fileId)
      "not a multimodal-supported type")
  /-- The bytes are no text. -/
  | undecodable (chunks : List (List UInt8)) (h : strategyOf env stash ref fileId = .text)
    (hstored : stash.stored.lookup blob.sha256 = some chunks)
    (hnone : String.fromUTF8? ⟨chunks.flatten.toArray⟩ = none) :
    Renders ref bare fileId blob (attachedNote env (textOr (some
      (textOr blob.originalFilename bare)) "file") (stash.mimeTypes.lookup fileId)
      "could not be decoded as UTF-8 text")
  | text (chunks : List (List UInt8)) (text : String)
    (h : strategyOf env stash ref fileId = .text)
    (hstored : stash.stored.lookup blob.sha256 = some chunks)
    (htext : String.fromUTF8? ⟨chunks.flatten.toArray⟩ = some text)
    (hcap : chunks.flatten.length ≤ env.inlineCap) :
    Renders ref bare fileId blob (textPart ("File: " ++ textOr (some
      (textOr blob.originalFilename bare)) "file" ++ "\n\n" ++ text))
  | image (chunks : List (List UInt8)) (bytes : List UInt8) (mime : String)
    (h : strategyOf env stash ref fileId = .image)
    (hstored : stash.stored.lookup blob.sha256 = some chunks)
    (hbytes : downscaleImage env.pil chunks.flatten (textOr (stash.mimeTypes.lookup fileId)
      "application/octet-stream") env.imageMaxLongSide = (bytes, mime))
    (hcap : bytes.length ≤ env.inlineCap) :
    Renders ref bare fileId blob (envelope "image" (some mime) bytes
      (textOr blob.originalFilename bare))
  | document (chunks : List (List UInt8)) (h : strategyOf env stash ref fileId = .document)
    (hstored : stash.stored.lookup blob.sha256 = some chunks)
    (hcap : chunks.flatten.length ≤ env.inlineCap) :
    Renders ref bare fileId blob (envelope "document" (stash.mimeTypes.lookup fileId)
      chunks.flatten (textOr blob.originalFilename bare))

/-- A part, with references rendered. -/
def renderPart (render : Dict → Value) (part : Value) : Value :=
  match fileRef part with
  | some ref => render ref
  | none => part

/-- A content, with references rendered. -/
def renderContent (render : Dict → Value) : Value → Value
  | .arr parts => .arr (parts.map (renderPart render))
  | v => v

/-- A message, with references rendered; its other keys and parts stay as they are. -/
def renderMessage (render : Dict → Value) (message : Dict) : Dict :=
  modifyKey "content" (renderContent render) message

/-- The caller executes the task that the request is about. -/
def Request.Executes (req : Request) (u : UserId) (session : SessionId) : Prop :=
  ∃ t, req.taskId = some t ∧ deriveTaskFileScope stash.db t req.callerAgentId = some (u, session)

/-- All references are rendered. -/
def Resolved (req : Request) (messages : List Dict) : Prop :=
  ∃ render : Dict → Value, messages = req.messages.map (renderMessage render) ∧
    ∀ m ∈ req.messages, ∀ part ∈ contentParts m, ∀ ref, fileRef part = some ref →
      ∃ u session bare fileId blob, req.Executes stash u session ∧
        Named stash u session ref bare fileId blob ∧
        Renders env stash ref bare fileId blob (render ref)

/-- What is claimed of a request. -/
structure Sound (req : Request) (out : Reading (List Dict)) : Prop where
  /-- It returns with all references rendered, or it is refused. -/
  outcome : (∃ messages, out.2 = .ok messages ∧ Resolved env stash req messages) ∨
    ∃ code message, out.2 = .error (.resolution code message)
  /-- No blob is read unless the caller executes the task. -/
  reads : out.1 ≠ [] → ∃ u session, req.Executes stash u session

/-! ### Broken references -/

/-- The reference raises something else than a refusal. -/
inductive Broken (u : UserId) (session : SessionId) (ref : Dict) : Prop
  | name (h : ∀ name, ref.lookup "name" ≠ some (.str name))
  /-- Its name has a NUL character. -/
  | nul (name : String) (persistent : Bool) (bare : String)
    (hname : ref.lookup "name" = some (.str name))
    (hsplit : splitNamedRef name = some (persistent, bare)) (h : '\x00' ∈ bare.toList)
  /-- Its blob is to be read, and is not stored. -/
  | lost (bare fileId : String) (blob : FileRow)
    (hnamed : Named stash u session ref bare fileId blob)
    (hread : strategyOf env stash ref fileId ≠ .reference)
    (hcap : blob.byteSize ≤ streamCap env (strategyOf env stash ref fileId))
    (h : stash.stored.lookup blob.sha256 = none)

/-- The reference can be rendered. -/
inductive Renderable (u : UserId) (session : SessionId) (ref : Dict) : Prop
  | note (bare fileId : String) (blob : FileRow)
    (hnamed : Named stash u session ref bare fileId blob)
    (h : strategyOf env stash ref fileId = .reference)
  /-- Its blob is read, and is not too long. -/
  | inlined (bare fileId : String) (blob : FileRow) (chunks : List (List UInt8))
    (hnamed : Named stash u session ref bare fileId blob)
    (hread : strategyOf env stash ref fileId ≠ .reference)
    (hcap : blob.byteSize ≤ streamCap env (strategyOf env stash ref fileId))
    (hstored : stash.stored.lookup blob.sha256 = some chunks)
    (hlength : chunks.flatten.length ≤ streamCap env (strategyOf env stash ref fileId))
    (himage : strategyOf env stash ref fileId = .image →
      (downscaleImage env.pil chunks.flatten (textOr (stash.mimeTypes.lookup fileId)
        "application/octet-stream") env.imageMaxLongSide).1.length ≤ env.inlineCap)

/-- The request has references, within the limit and with names, and a task. -/
structure Request.Proceeds (req : Request) (t : TaskId) : Prop where
  some : collectFileRefs req.messages ≠ []
  /-- They are within the limit. -/
  limit : (collectFileRefs req.messages).length ≤ env.maxRefs
  /-- They have names. -/
  named : ∀ loc ∈ collectFileRefs req.messages, nameless loc.ref = false
  task : req.taskId = Option.some t ∧ t ≠ ""

/-- The request comes to a broken reference, or to a broken task id. -/
def Request.Breaks (req : Request) : Prop :=
  ∃ t, req.Proceeds env t ∧ ('\x00' ∈ t.toList ∨ ∃ u session pre loc post,
    deriveTaskFileScope stash.db t req.callerAgentId = some (u, session) ∧
    collectFileRefs req.messages = pre ++ loc :: post ∧
    (∀ l ∈ pre, Renderable env stash u session l.ref) ∧ Broken env stash u session loc.ref)

variable {env} {stash} {u : UserId} {session : SessionId} {ref : Dict} {bare fileId : String}
  {blob : FileRow} {chunks : List (List UInt8)} {buf : List UInt8} {cap : ℕ} {e : Raised}
  {part : Value}

/-! ### A blob -/

theorem readCapped_of_le (h : (buf ++ chunks.flatten).length ≤ cap) :
    readCapped cap buf chunks = .ok (buf ++ chunks.flatten) := by
  induction chunks generalizing buf with
  | nil => rw [readCapped, List.flatten_nil, List.append_nil]
  | cons chunk chunks ih =>
    rw [List.flatten_cons, ← List.append_assoc] at h ⊢
    have hlength : ¬ cap < (buf ++ chunk).length := by
      rw [List.length_append] at h
      omega
    rw [readCapped, if_neg hlength]
    exact ih h

theorem readCapped_of_lt (hbuf : buf.length ≤ cap) (h : cap < (buf ++ chunks.flatten).length) :
    ∃ code message, readCapped cap buf chunks = .error (.resolution code message) := by
  induction chunks generalizing buf with
  | nil =>
    rw [List.flatten_nil, List.append_nil] at h
    omega
  | cons chunk chunks ih =>
    rw [readCapped]
    split_ifs with hlength
    · exact ⟨_, _, rfl⟩
    · rw [List.flatten_cons, ← List.append_assoc] at h
      exact ih (Nat.le_of_not_lt hlength) h

/-- The name is bound, so that the blob is put in. -/
theorem resolveRef_of_named (h : Named stash u session ref bare fileId blob) :
    resolveRef env stash u session ref = inlineBlob env stash ref blob.sha256 blob.byteSize
      (stash.mimeTypes.lookup fileId) (textOr blob.originalFilename bare) := by
  obtain ⟨⟨name, persistent, row, hname, hsplit, hnul, hrow, rfl⟩, hblob, huser⟩ := h
  rw [resolveRef, hname]
  dsimp only
  rw [hsplit]
  dsimp only
  rw [if_neg hnul, hrow]
  dsimp only
  rw [hblob, Option.filter_some, if_pos (by simpa using huser)]

/-- A reference is bound, or broken, or refused. -/
theorem named_or_refused (env : Env Img) (stash : Stash) (u : UserId) (session : SessionId)
    (ref : Dict) :
    (∃ bare fileId blob, Named stash u session ref bare fileId blob) ∨
      Broken env stash u session ref ∨
      ∃ code message,
        (resolveRef env stash u session ref).2 = .error (.resolution code message) := by
  by_cases htext : ∃ name, ref.lookup "name" = some (.str name)
  · obtain ⟨name, hname⟩ := htext
    cases hsplit : splitNamedRef name with
    | none =>
      refine .inr (.inr ?_)
      rw [resolveRef, hname]
      dsimp only
      rw [hsplit]
      exact ⟨_, _, rfl⟩
    | some found =>
      obtain ⟨persistent, bare⟩ := found
      by_cases hnul : '\x00' ∈ bare.toList
      · exact .inr (.inl (.nul name persistent bare hname hsplit hnul))
      · cases hrow : stash.db.fileNames.lookup (u, scopeFor persistent session, bare) with
        | none =>
          refine .inr (.inr ?_)
          rw [resolveRef, hname]
          dsimp only
          rw [hsplit]
          dsimp only
          rw [if_neg hnul, hrow]
          exact ⟨_, _, rfl⟩
        | some row =>
          cases hblob : (stash.db.files.lookup row.fileId).filter fun blob => blob.userId = u with
          | none =>
            refine .inr (.inr ?_)
            rw [resolveRef, hname]
            dsimp only
            rw [hsplit]
            dsimp only
            rw [if_neg hnul, hrow]
            dsimp only
            rw [hblob]
            exact ⟨_, _, rfl⟩
          | some blob =>
            obtain ⟨hfile, huser⟩ := Option.filter_eq_some_iff.1 hblob
            exact .inl ⟨bare, row.fileId, blob,
              ⟨name, persistent, row, hname, hsplit, hnul, hrow, rfl⟩, hfile, by simpa using huser⟩
  · exact .inr (.inl (.name fun name hname => htext ⟨name, hname⟩))

/-- The bytes that were read are rendered, or they are too long. -/
theorem renderBytes_cases (env : Env Img)
    (hread : strategyOf env stash ref fileId ≠ .reference)
    (hstored : stash.stored.lookup blob.sha256 = some chunks)
    (hlength : chunks.flatten.length ≤ streamCap env (strategyOf env stash ref fileId)) :
    (∃ part, renderBytes env (strategyOf env stash ref fileId) (stash.mimeTypes.lookup fileId)
        (textOr blob.originalFilename bare) chunks.flatten = .ok part ∧
        Renders env stash ref bare fileId blob part ∧
        (strategyOf env stash ref fileId = .image →
          (downscaleImage env.pil chunks.flatten (textOr (stash.mimeTypes.lookup fileId)
            "application/octet-stream") env.imageMaxLongSide).1.length ≤ env.inlineCap)) ∨
      ((∃ code message, renderBytes env (strategyOf env stash ref fileId)
        (stash.mimeTypes.lookup fileId) (textOr blob.originalFilename bare) chunks.flatten =
          .error (.resolution code message)) ∧
        strategyOf env stash ref fileId = .image ∧ ¬
          (downscaleImage env.pil chunks.flatten (textOr (stash.mimeTypes.lookup fileId)
            "application/octet-stream") env.imageMaxLongSide).1.length ≤ env.inlineCap) := by
  cases hstrategy : strategyOf env stash ref fileId with
  | reference => exact absurd hstrategy hread
  | text =>
    have hcap : chunks.flatten.length ≤ env.inlineCap := by
      rwa [hstrategy, streamCap, if_neg (by simp)] at hlength
    refine .inl ?_
    cases htext : String.fromUTF8? ⟨chunks.flatten.toArray⟩ with
    | none =>
      refine ⟨_, ?_, .undecodable chunks hstrategy hstored htext, fun h => (by cases h)⟩
      rw [renderBytes, htext]
    | some text =>
      refine ⟨_, ?_, .text chunks text hstrategy hstored htext hcap, fun h => (by cases h)⟩
      rw [renderBytes, htext]
  | document =>
    have hcap : chunks.flatten.length ≤ env.inlineCap := by
      rwa [hstrategy, streamCap, if_neg (by simp)] at hlength
    exact .inl ⟨_, rfl, .document chunks hstrategy hstored hcap, fun h => (by cases h)⟩
  | image =>
    rw [renderBytes]
    dsimp only
    split_ifs with hover
    · exact .inr ⟨⟨_, _, rfl⟩, rfl, Nat.not_le.2 hover⟩
    · exact .inl ⟨_, rfl, .image chunks _ _ hstrategy hstored rfl (Nat.le_of_not_lt hover),
        fun _ => Nat.le_of_not_lt hover⟩

/-! ### A reference -/

/-- A blob is put in, or the reference is broken, or it is refused. -/
theorem resolveRef_of_named_cases (h : Named stash u session ref bare fileId blob) :
    (∃ part, (resolveRef env stash u session ref).2 = .ok part ∧
        Renders env stash ref bare fileId blob part ∧ Renderable env stash u session ref) ∨
      Broken env stash u session ref ∨
      ∃ code message,
        (resolveRef env stash u session ref).2 = .error (.resolution code message) := by
  rw [resolveRef_of_named h, inlineBlob, ← strategyOf]
  split_ifs with hreference hsize
  · exact .inl ⟨_, rfl, .note hreference, .note bare fileId blob h hreference⟩
  · exact .inr (.inr ⟨_, _, rfl⟩)
  · have hsize := Nat.le_of_not_lt hsize
    cases hstored : stash.stored.lookup blob.sha256 with
    | none => exact .inr (.inl (.lost bare fileId blob h hreference hsize hstored))
    | some chunks =>
      dsimp only
      by_cases hlength : chunks.flatten.length ≤ streamCap env (strategyOf env stash ref fileId)
      · have hread : readCapped (streamCap env (strategyOf env stash ref fileId)) [] chunks =
            .ok chunks.flatten := readCapped_of_le hlength
        rw [hread]
        obtain ⟨part, hpart, hrenders, himage⟩ | ⟨hrefused, -⟩ :=
          renderBytes_cases env hreference hstored hlength
        · exact .inl ⟨part, hpart, hrenders,
            .inlined bare fileId blob chunks h hreference hsize hstored hlength himage⟩
        · exact .inr (.inr hrefused)
      · obtain ⟨code, message, hread⟩ : ∃ code message,
            readCapped (streamCap env (strategyOf env stash ref fileId)) [] chunks =
              .error (.resolution code message) :=
          readCapped_of_lt (Nat.zero_le _) (Nat.lt_of_not_le hlength)
        rw [hread]
        exact .inr (.inr ⟨code, message, rfl⟩)

/-- A reference that can be rendered is. -/
theorem Renderable.resolveRef (h : Renderable env stash u session ref) :
    ∃ part, (resolveRef env stash u session ref).2 = .ok part := by
  cases h with
  | note bare fileId blob hnamed h =>
    rw [resolveRef_of_named hnamed, inlineBlob, ← strategyOf, if_pos h]
    exact ⟨_, rfl⟩
  | inlined bare fileId blob chunks hnamed hread hcap hstored hlength himage =>
    rw [resolveRef_of_named hnamed, inlineBlob, ← strategyOf, if_neg hread,
      if_neg (Nat.not_lt.2 hcap), hstored]
    have hbytes : readCapped (streamCap env (strategyOf env stash ref fileId)) [] chunks =
        .ok chunks.flatten := readCapped_of_le hlength
    dsimp only
    rw [hbytes]
    obtain ⟨part, hpart, -⟩ | ⟨-, hstrategy, hover⟩ :=
      renderBytes_cases env hread hstored hlength
    · exact ⟨part, hpart⟩
    · exact absurd (himage hstrategy) hover

/-- A broken reference raises something else than a refusal. -/
theorem Broken.resolveRef (h : Broken env stash u session ref) :
    ∃ e, (resolveRef env stash u session ref).2 = .error e ∧
      ∀ code message, e ≠ .resolution code message := by
  cases h with
  | name h =>
    refine ⟨.attributeError, ?_, fun _ _ he => (by cases he)⟩
    rw [Attachments.resolveRef]
    split
    · next name hname => exact absurd hname (h name)
    · rfl
  | nul name persistent bare hname hsplit h =>
    refine ⟨.badText, ?_, fun _ _ he => (by cases he)⟩
    rw [Attachments.resolveRef, hname]
    dsimp only
    rw [hsplit]
    dsimp only
    rw [if_pos h]
  | lost bare fileId blob hnamed hread hcap h =>
    refine ⟨.notStored, ?_, fun _ _ he => (by cases he)⟩
    rw [resolveRef_of_named hnamed, inlineBlob, ← strategyOf, if_neg hread,
      if_neg (Nat.not_lt.2 hcap), h]

/-! ### The loop -/

/-- What a reference becomes, where it is resolved. -/
def rendered (env : Env Img) (stash : Stash) (u : UserId) (session : SessionId) (ref : Dict) :
    Value :=
  match (resolveRef env stash u session ref).2 with
  | .ok part => part
  | .error _ => .null

theorem rendered_of_ok (h : (resolveRef env stash u session ref).2 = .ok part) :
    rendered env stash u session ref = part := by
  rw [rendered, h]

variable {locs : List Location} {loc : Location} {messages : List Dict}

theorem resolveRefs_cons_ok (h : (resolveRef env stash u session loc.ref).2 = .ok part) :
    (resolveRefs env stash u session messages (loc :: locs)).2 =
      (resolveRefs env stash u session (setPart messages loc part) locs).2 := by
  have hresolve : resolveRef env stash u session loc.ref =
      ((resolveRef env stash u session loc.ref).1, .ok part) := Prod.ext rfl h
  rw [resolveRefs, hresolve]

theorem resolveRefs_cons_error (h : (resolveRef env stash u session loc.ref).2 = .error e) :
    (resolveRefs env stash u session messages (loc :: locs)).2 = .error e := by
  have hresolve : resolveRef env stash u session loc.ref =
      ((resolveRef env stash u session loc.ref).1, .error e) := Prod.ext rfl h
  rw [resolveRefs, hresolve]

/-- The loop stops where a reference raises. -/
theorem resolveRefs_of_error {pre post : List Location}
    (hpre : ∀ l ∈ pre, ∃ part, (resolveRef env stash u session l.ref).2 = .ok part)
    (h : (resolveRef env stash u session loc.ref).2 = .error e) :
    (resolveRefs env stash u session messages (pre ++ loc :: post)).2 = .error e := by
  induction pre generalizing messages with
  | nil => exact resolveRefs_cons_error h
  | cons l pre ih =>
    obtain ⟨part, hpart⟩ := hpre l List.mem_cons_self
    rw [List.cons_append, resolveRefs_cons_ok hpart]
    exact ih fun l' hl' => hpre l' (List.mem_cons_of_mem _ hl')

/-- The loop puts in what the references become. -/
theorem resolveRefs_of_ok
    (h : ∀ l ∈ locs, ∃ part, (resolveRef env stash u session l.ref).2 = .ok part) :
    (resolveRefs env stash u session messages locs).2 = .ok (locs.foldl
      (fun messages l => setPart messages l (rendered env stash u session l.ref)) messages) := by
  induction locs generalizing messages with
  | nil => rfl
  | cons l locs ih =>
    obtain ⟨part, hpart⟩ := h l List.mem_cons_self
    rw [resolveRefs_cons_ok hpart, List.foldl_cons, rendered_of_ok hpart]
    exact ih fun l' hl' => h l' (List.mem_cons_of_mem _ hl')

/-- Either all references are resolved, or one is the first that is not. -/
theorem all_ok_or_first_error (env : Env Img) (stash : Stash) (u : UserId) (session : SessionId)
    (locs : List Location) :
    (∀ l ∈ locs, ∃ part, (resolveRef env stash u session l.ref).2 = .ok part) ∨
      ∃ pre loc post e, locs = pre ++ loc :: post ∧
        (∀ l ∈ pre, ∃ part, (resolveRef env stash u session l.ref).2 = .ok part) ∧
        (resolveRef env stash u session loc.ref).2 = .error e := by
  induction locs with
  | nil => exact .inl fun _ hl => (by cases hl)
  | cons l locs ih =>
    cases hl : (resolveRef env stash u session l.ref).2 with
    | error e => exact .inr ⟨[], l, locs, e, rfl, fun _ hl' => (by cases hl'), hl⟩
    | ok part =>
      obtain hall | ⟨pre, loc, post, e, rfl, hpre, he⟩ := ih
      · exact .inl (List.forall_mem_cons.2 ⟨⟨part, hl⟩, hall⟩)
      · exact .inr ⟨l :: pre, loc, post, e, rfl, List.forall_mem_cons.2 ⟨⟨part, hl⟩, hpre⟩, he⟩

/-! ### Replacing in place -/

theorem modifyKey_modifyKey (key : String) (f g : Value → Value) (d : Dict) :
    modifyKey key f (modifyKey key g d) = modifyKey key (f ∘ g) d := by
  induction d with
  | nil => rfl
  | cons field d ih =>
    rw [modifyKey]
    split_ifs with hkey
    · rw [modifyKey, if_pos hkey, modifyKey, if_pos hkey]
      rfl
    · rw [modifyKey, if_neg hkey, modifyKey, if_neg hkey, ih]

/-- Only the value that is there counts. -/
theorem modifyKey_congr {key : String} {f g : Value → Value} {d : Dict}
    (h : ∀ v, d.lookup key = some v → f v = g v) : modifyKey key f d = modifyKey key g d := by
  induction d with
  | nil => rfl
  | cons field d ih =>
    rw [modifyKey, modifyKey]
    split_ifs with hkey
    · rw [h field.2 (by rw [← hkey, List.lookup_cons_self])]
    · rw [ih fun v hv => h v ?_]
      rwa [List.lookup_cons, beq_false_of_ne (Ne.symm hkey)]

/-- Items are replaced one after the other, from an index on. -/
theorem foldl_setItem (i : ℕ) (render : Dict → Value) (done parts : List Value) :
    (partRefs i (parts.zipIdx done.length)).foldl
        (fun v l => setItem l.index (render l.ref) v) (.arr (done ++ parts)) =
      .arr (done ++ parts.map (renderPart render)) := by
  induction parts generalizing done with
  | nil => rfl
  | cons part parts ih =>
    have hrest : ∀ part', (partRefs i (parts.zipIdx (done.length + 1))).foldl
        (fun v l => setItem l.index (render l.ref) v) (.arr (done ++ part' :: parts)) =
          .arr (done ++ part' :: parts.map (renderPart render)) := by
      intro part'
      have hdone := ih (done ++ [part'])
      simpa using hdone
    rw [List.zipIdx_cons, partRefs, List.filterMap_cons, List.map_cons, renderPart]
    cases fileRef part with
    | none => exact hrest part
    | some ref =>
      have hset : setItem done.length (render ref) (.arr (done ++ part :: parts)) =
          .arr (done ++ render ref :: parts) := by
        rw [setItem, List.set_append_right _ _ (Nat.le_refl _), Nat.sub_self, List.set_cons_zero]
      rw [Option.map_some]
      dsimp only
      rw [List.foldl_cons, hset]
      exact hrest (render ref)

theorem modifyKey_id (key : String) (d : Dict) : modifyKey key (fun v => v) d = d := by
  induction d with
  | nil => rfl
  | cons field d ih =>
    by_cases hkey : field.1 = key
    · rw [modifyKey, if_pos hkey]
    · rw [modifyKey, if_neg hkey, ih]

/-- The references of one message are replaced. -/
theorem foldl_modifyKey (render : Dict → Value) (locs : List Location) (m : Dict) :
    locs.foldl (fun m l => modifyKey "content" (setItem l.index (render l.ref)) m) m =
      modifyKey "content"
        (fun v => locs.foldl (fun v l => setItem l.index (render l.ref) v) v) m := by
  induction locs generalizing m with
  | nil => exact (modifyKey_id "content" m).symm
  | cons l locs ih =>
    rw [List.foldl_cons, ih, modifyKey_modifyKey]
    rfl

theorem foldl_partRefs (i : ℕ) (render : Dict → Value) (m : Dict) :
    (partRefs i (contentParts m).zipIdx).foldl
      (fun m l => modifyKey "content" (setItem l.index (render l.ref)) m) m =
        renderMessage render m := by
  rw [foldl_modifyKey, renderMessage]
  refine modifyKey_congr fun v hv => ?_
  rw [contentParts, hv]
  cases v with
  | arr parts => exact foldl_setItem i render [] parts
  | _ => rfl

theorem modify_append_length (f : Dict → Dict) (done rest : List Dict) (m : Dict) :
    (done ++ m :: rest).modify done.length f = done ++ f m :: rest := by
  induction done with
  | nil => rfl
  | cons d done ih => rw [List.cons_append, List.length_cons, List.modify_succ_cons, ih]; rfl

/-- References of one message leave the others alone. -/
theorem foldl_setPart (render : Dict → Value) (done rest : List Dict) (m : Dict)
    (hlocs : ∀ l ∈ locs, l.message = done.length) :
    locs.foldl (fun ms l => setPart ms l (render l.ref)) (done ++ m :: rest) =
      done ++ (locs.foldl
        (fun m l => modifyKey "content" (setItem l.index (render l.ref)) m) m) :: rest := by
  induction locs generalizing m with
  | nil => rfl
  | cons l locs ih =>
    have hset : setPart (done ++ m :: rest) l (render l.ref) =
        done ++ modifyKey "content" (setItem l.index (render l.ref)) m :: rest := by
      rw [setPart, hlocs l List.mem_cons_self, modify_append_length]
    rw [List.foldl_cons, List.foldl_cons, hset]
    exact ih _ fun l' hl' => hlocs l' (List.mem_cons_of_mem _ hl')

/-- Messages are replaced one after the other, from an index on. -/
theorem foldl_collect (render : Dict → Value) (done messages : List Dict) :
    ((messages.zipIdx done.length).flatMap fun m =>
        partRefs m.2 (contentParts m.1).zipIdx).foldl
      (fun ms l => setPart ms l (render l.ref)) (done ++ messages) =
        done ++ messages.map (renderMessage render) := by
  induction messages generalizing done with
  | nil => rfl
  | cons m messages ih =>
    have hmessage : ∀ l ∈ partRefs done.length (contentParts m).zipIdx,
        l.message = done.length := by
      intro l hl
      obtain ⟨part, -, hpart⟩ := List.mem_filterMap.1 hl
      obtain ⟨ref, -, rfl⟩ := Option.map_eq_some_iff.1 hpart
      rfl
    have hrest := ih (done ++ [renderMessage render m])
    simp only [List.length_append, List.length_singleton, List.append_assoc,
      List.singleton_append] at hrest
    rw [List.zipIdx_cons, List.flatMap_cons, List.foldl_append, foldl_setPart _ _ _ _ hmessage,
      foldl_partRefs, hrest, List.map_cons]

/-- **All references are replaced in place, and nothing else.** -/
theorem resolveRefs_eq (h : ∀ l ∈ collectFileRefs messages,
    ∃ part, (resolveRef env stash u session l.ref).2 = .ok part) :
    (resolveRefs env stash u session messages (collectFileRefs messages)).2 =
      .ok (messages.map (renderMessage (rendered env stash u session))) := by
  rw [resolveRefs_of_ok h]
  exact congrArg _ (foldl_collect _ [] messages)

theorem exists_location {m : Dict} (hm : m ∈ messages) (hpart : part ∈ contentParts m)
    (href : fileRef part = some ref) : ∃ l ∈ collectFileRefs messages, l.ref = ref := by
  obtain ⟨i, hi⟩ := List.mem_iff_getElem?.1 hm
  obtain ⟨j, hj⟩ := List.mem_iff_getElem?.1 hpart
  refine ⟨⟨i, j, ref⟩, List.mem_flatMap.2 ⟨(m, i), List.mem_zipIdx_iff_getElem?.2 hi, ?_⟩, rfl⟩
  refine List.mem_filterMap.2 ⟨(part, j), List.mem_zipIdx_iff_getElem?.2 hj, ?_⟩
  rw [href, Option.map_some]

/-! ### A request -/

variable {req : Request} {t : TaskId}

/-- What a reference becomes is what is claimed. -/
theorem renders_of_ok (h : (resolveRef env stash u session ref).2 = .ok part) :
    Renderable env stash u session ref ∧ ∃ bare fileId blob,
      Named stash u session ref bare fileId blob ∧ Renders env stash ref bare fileId blob part := by
  have hbroken : ¬ Broken env stash u session ref := by
    intro hbroken
    obtain ⟨e, he, -⟩ := hbroken.resolveRef
    cases he.symm.trans h
  have hrefused : ¬ ∃ code message,
      (resolveRef env stash u session ref).2 = .error (.resolution code message) := by
    rintro ⟨code, message, he⟩
    cases he.symm.trans h
  obtain ⟨bare, fileId, blob, hnamed⟩ | hb | he := named_or_refused env stash u session ref
  · obtain ⟨part', hpart, hrenders, hrenderable⟩ | hb | he :=
      @resolveRef_of_named_cases _ env _ _ _ _ _ _ _ hnamed
    · obtain rfl := Except.ok.inj (hpart.symm.trans h)
      exact ⟨hrenderable, bare, fileId, blob, hnamed, hrenders⟩
    · exact absurd hb hbroken
    · exact absurd he hrefused
  · exact absurd hb hbroken
  · exact absurd he hrefused

/-- A reference raises a refusal, or it is broken. -/
theorem broken_of_error (h : (resolveRef env stash u session ref).2 = .error e) :
    Broken env stash u session ref ∨ ∃ code message, e = .resolution code message := by
  have hrefused : (∃ code message,
      (resolveRef env stash u session ref).2 = .error (.resolution code message)) →
        ∃ code message, e = .resolution code message := by
    rintro ⟨code, message, he⟩
    exact ⟨code, message, Except.error.inj (h.symm.trans he)⟩
  obtain ⟨bare, fileId, blob, hnamed⟩ | hb | he := named_or_refused env stash u session ref
  · obtain ⟨part, hpart, -⟩ | hb | he := @resolveRef_of_named_cases _ env _ _ _ _ _ _ _ hnamed
    · cases h.symm.trans hpart
    · exact .inl hb
    · exact .inr (hrefused he)
  · exact .inl hb
  · exact .inr (hrefused he)

/-- The references are resolved, if the task is one of the caller's. -/
theorem resolveRequestFileRefs_of_proceeds (h : req.Proceeds env t) :
    resolveRequestFileRefs env stash req =
      if '\x00' ∈ t.toList then ([], .error .badText)
      else match deriveTaskFileScope stash.db t req.callerAgentId with
        | none => ([], .error (.resolution "denied"
            "name file_ref task is unknown or the agent is not its active executor"))
        | some (u, session) =>
          resolveRefs env stash u session req.messages (collectFileRefs req.messages) := by
  obtain ⟨hsome, hlimit, hnamed, htask, hne⟩ := h
  have hany : ¬ ((collectFileRefs req.messages).any fun loc => nameless loc.ref) = true := by
    rw [List.any_eq_true]
    rintro ⟨loc, hloc, hnameless⟩
    rw [hnamed loc hloc] at hnameless
    cases hnameless
  have hfilter : req.taskId.filter (· ≠ "") = some t := by
    rw [htask, Option.filter_some, if_pos (by simpa using hne)]
  rewrite [resolveRequestFileRefs, if_neg (by simpa using hsome), if_neg (Nat.not_lt.2 hlimit),
    if_neg hany, hfilter]
  rfl

/-- A request that does not get so far has no references, or it is refused. -/
theorem resolveRequestFileRefs_of_not_proceeds (h : ∀ t, ¬ req.Proceeds env t) :
    (collectFileRefs req.messages = [] ∧
        resolveRequestFileRefs env stash req = ([], .ok req.messages)) ∨
      ∃ code message,
        resolveRequestFileRefs env stash req = ([], .error (.resolution code message)) := by
  rw [resolveRequestFileRefs]
  split_ifs with hempty hlimit hany
  · exact .inl ⟨List.isEmpty_iff.1 hempty, rfl⟩
  · exact .inr ⟨_, _, rfl⟩
  · exact .inr ⟨_, _, rfl⟩
  · cases hfilter : req.taskId.filter (· ≠ "") with
    | none => exact .inr ⟨_, _, rfl⟩
    | some t =>
      obtain ⟨htask, hne⟩ := Option.filter_eq_some_iff.1 hfilter
      refine absurd ⟨by simpa using hempty, Nat.le_of_not_lt hlimit, fun loc hloc => ?_, htask,
        by simpa using hne⟩ (h t)
      exact eq_false_of_ne_true fun hnameless => hany (List.any_eq_true.2 ⟨loc, hloc, hnameless⟩)

/-- Without references there is nothing to do. -/
theorem resolved_of_no_refs (h : collectFileRefs req.messages = []) :
    Resolved env stash req req.messages := by
  refine ⟨fun _ => .null, ?_, fun m hm part hpart ref href => ?_⟩
  · have hfold := foldl_collect (fun _ => Value.null) [] req.messages
    have hnone : (req.messages.zipIdx.flatMap fun m =>
        partRefs m.2 (contentParts m.1).zipIdx) = [] := h
    rw [List.length_nil, hnone] at hfold
    exact hfold
  · obtain ⟨l, hl, -⟩ := exists_location hm hpart href
    rw [h] at hl
    cases hl

/-- **A request that breaks is not sound.** -/
theorem not_sound_of_breaks (h : req.Breaks env stash) :
    ¬ Sound env stash req (resolveRequestFileRefs env stash req) := by
  obtain ⟨t, hproceeds, hbreaks⟩ := h
  -- what is raised is neither a result nor a refusal
  have hraised : ∀ {out : Reading (List Dict)} {e : Raised}, out.2 = .error e →
      (∀ code message, e ≠ .resolution code message) → ¬ Sound env stash req out := by
    intro out e he hne hsound
    obtain ⟨_, hok, -⟩ | ⟨code, message, he'⟩ := hsound.outcome
    · cases he.symm.trans hok
    · exact hne code message (Except.error.inj (he.symm.trans he'))
  rw [resolveRequestFileRefs_of_proceeds hproceeds]
  by_cases hnul : '\x00' ∈ t.toList
  · rw [if_pos hnul]
    exact hraised rfl fun _ _ he => (by cases he)
  · obtain hnul' | ⟨u, session, pre, loc, post, hscope, hlocs, hpre, hbroken⟩ := hbreaks
    · exact absurd hnul' hnul
    · obtain ⟨e, he, hne⟩ := hbroken.resolveRef
      rw [if_neg hnul, hscope, hlocs]
      exact hraised (resolveRefs_of_error (fun l hl => (hpre l hl).resolveRef) he) hne

/-- **A request that does not break is sound.** -/
theorem sound_of_proceeds (hproceeds : req.Proceeds env t) (h : ¬ req.Breaks env stash) :
    Sound env stash req (resolveRequestFileRefs env stash req) := by
  have hnul : '\x00' ∉ t.toList := fun hnul => h ⟨t, hproceeds, .inl hnul⟩
  rw [resolveRequestFileRefs_of_proceeds hproceeds, if_neg hnul]
  cases hscope : deriveTaskFileScope stash.db t req.callerAgentId with
  | none => exact ⟨.inr ⟨_, _, rfl⟩, fun h => absurd rfl h⟩
  | some scope =>
    obtain ⟨u, session⟩ := scope
    have hexecutes : req.Executes stash u session := ⟨t, hproceeds.task.1, hscope⟩
    refine ⟨?_, fun _ => ⟨u, session, hexecutes⟩⟩
    obtain hall | ⟨pre, loc, post, e, hlocs, hpre, he⟩ :=
      all_ok_or_first_error env stash u session (collectFileRefs req.messages)
    · refine .inl ⟨_, resolveRefs_eq hall, _, rfl, fun m hm part hpart ref href => ?_⟩
      obtain ⟨l, hl, rfl⟩ := exists_location hm hpart href
      obtain ⟨part', hpart'⟩ := hall l hl
      obtain ⟨-, bare, fileId, blob, hnamed, hrenders⟩ := renders_of_ok hpart'
      rw [rendered_of_ok hpart']
      exact ⟨u, session, bare, fileId, blob, hexecutes, hnamed, hrenders⟩
    · obtain hbroken | ⟨code, message, rfl⟩ := broken_of_error he
      · refine absurd ⟨t, hproceeds, .inr ?_⟩ h
        refine ⟨u, session, pre, loc, post, hscope, hlocs, fun l hl => ?_, hbroken⟩
        obtain ⟨part, hpart⟩ := hpre l hl
        exact (renders_of_ok hpart).1
      · dsimp only
        rw [hlocs]
        exact .inr ⟨code, message, resolveRefs_of_error hpre he⟩

end

/-- **Files of a request.**  A request returns with every reference replaced in place by the blob
that its name is bound to in the scope of its task, and nothing else changed, or it is refused; and
it reads no blob unless its caller executes the task.  This is so exactly when it does not break: it
comes to no reference whose name is not a text, or has a NUL character, or whose blob is lost. -/
theorem resolution_sound_iff {Img : Type} (env : Env Img) (stash : Stash) (req : Request) :
    Sound env stash req (resolveRequestFileRefs env stash req) ↔ ¬ req.Breaks env stash := by
  refine ⟨fun hsound hbreaks => not_sound_of_breaks hbreaks hsound, fun h => ?_⟩
  by_cases hproceeds : ∃ t, req.Proceeds env t
  · obtain ⟨t, hproceeds⟩ := hproceeds
    exact sound_of_proceeds hproceeds h
  · obtain ⟨hnone, hout⟩ | ⟨code, message, hout⟩ :=
      @resolveRequestFileRefs_of_not_proceeds _ env stash _
        fun t ht => hproceeds ⟨t, ht⟩
    · rw [hout]
      exact ⟨.inl ⟨_, rfl, resolved_of_no_refs hnone⟩, fun h => absurd rfl h⟩
    · rw [hout]
      exact ⟨.inr ⟨code, message, rfl⟩, fun h => absurd rfl h⟩

section

/-- A library that reads no picture. -/
def noPictures : Pil Unit where
  open_ _ := none
  format _ := none
  size _ := (0, 0)
  mode _ := "RGB"
  thumbnail _ _ := none
  convertRgb _ := none
  saveJpeg _ := none
  save _ _ := none

/-- The limits are the defaults. -/
def sampleEnv : Env Unit where
  isPrintable c := decide (31 < c.toNat ∧ c.toNat < 127)
  lower := String.map Char.toLower
  pil := noPictures
  maxRefs := 16
  inlineCap := 5 * 1024 * 1024
  imageMaxLongSide := 1568
  imageSourceCap := 20 * 1024 * 1024

/-- A task of an agent. -/
def sampleTask : TaskRow where
  taskId := "t"
  parentTaskId := none
  rootTaskId := "t"
  userId := "u"
  sessionId := "s"
  agentId := "agent"
  callerAgentId := "caller"
  activeAgentId := "agent"
  state := .running
  idempotencyKey := none
  priority := .normal
  deadline := 0
  createdAt := 0
  input := []

/-- A message that refers to a file by a number. -/
def numberedMessage : Dict :=
  [("role", .str "user"), ("content", .arr [.obj [("file_ref", .obj [("name", .num "5")])]])]

/-- **A name that is a number raises an `AttributeError`.** -/
theorem number_raises : ¬ ∀ (Img : Type) (env : Env Img) (stash : Stash) (req : Request),
    Sound env stash req (resolveRequestFileRefs env stash req) := by
  intro hall
  have hsound := hall Unit sampleEnv { db := { tasks := (∅ : Tasks).insert "t" sampleTask } }
    { messages := [numberedMessage], callerAgentId := "agent", taskId := some "t" }
  obtain ⟨_, hok, -⟩ | ⟨_, _, he⟩ := hsound.outcome
  · cases hok
  · cases he

end

end Backplane.Attachments
