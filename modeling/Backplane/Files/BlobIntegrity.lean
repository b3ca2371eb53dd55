import Backplane.Files.BlobStore

/-!
# Blobs are what their digests say

All puts of a digest share one temporary name.  A put that opens the file while another has not
yet renamed it empties what the other has written.

* `BlobState.allowed` : a put opens its file while no other put of the digest has one.
* `BlobState.Holds`, `BlobState.Inv` : what a put has written, and what holds at any time.
* `blobs_sound` : in every run of such steps blobs are what their digests say, and good puts
  succeed.
-/

namespace Backplane.Files

namespace BlobState

section

variable (sha256 : List UInt8 → String) (s : BlobState)

/-- A put opens its file while no other put of the digest has one. -/
def allowed : BlobEvent → Bool
  | .open_ id => (s.puts.lookup id).all fun p => s.puts.entries.all fun r =>
      r.1 = id || r.2.sha ≠ p.sha || !r.2.isActive
  | _ => true

/-- What a put has written, and what it has checked. -/
def Holds (fs : FileSystem BlobPath) (p : Put) : Prop :=
  match p.stage with
  | .opening => p.content = [] ∧ p.buffer = [] ∧ p.position = 0
  | .writing file => fs.names.lookup (.part p.sha) = some file ∧
      ∃ written, fs.files.lookup file = some written ∧ written ++ p.buffer = p.content ∧
        p.position = written.length
  | .closing file raises => (fs.names.lookup (.part p.sha) = some file ∧
      ∃ written, fs.files.lookup file = some written ∧ written ++ p.buffer = p.content ∧
        p.position = written.length) ∧ (raises = true → p.isFailed = true)
  | .removing _ => ¬ Good sha256 p
  | .replacing => sha256 p.content = p.sha ∧
      ∃ file, fs.names.lookup (.part p.sha) = some file ∧ fs.files.lookup file = some p.content
  | .ended result => Good sha256 p → result = .stored

end

section

variable {sha256 : List UInt8 → String} {s : BlobState} {fs : FileSystem BlobPath} {p : Put}

theorem Holds.of_names (h : Holds sha256 s.fs p)
    (hkeep : ∀ file, s.fs.names.lookup (.part p.sha) = some file →
      fs.names.lookup (.part p.sha) = some file ∧
        fs.files.lookup file = s.fs.files.lookup file) : Holds sha256 fs p := by
  rw [Holds] at h ⊢
  split
  · next hstage => rwa [hstage] at h
  · next hstage =>
    rw [hstage] at h
    obtain ⟨hname, written, hfile, hrest⟩ := h
    obtain ⟨hname', hfile'⟩ := hkeep _ hname
    exact ⟨hname', written, hfile'.trans hfile, hrest⟩
  · next hstage =>
    rw [hstage] at h
    obtain ⟨⟨hname, written, hfile, hrest⟩, hraises⟩ := h
    obtain ⟨hname', hfile'⟩ := hkeep _ hname
    exact ⟨⟨hname', written, hfile'.trans hfile, hrest⟩, hraises⟩
  · next hstage => rwa [hstage] at h
  · next hstage =>
    rw [hstage] at h
    obtain ⟨hsha, file, hname, hfile⟩ := h
    obtain ⟨hname', hfile'⟩ := hkeep _ hname
    exact ⟨hsha, file, hname', hfile'.trans hfile⟩
  · next hstage => rwa [hstage] at h

/-- What a put that has no file relies on is no file. -/
theorem Holds.of_inactive (hinactive : p.isActive = false) (h : Holds sha256 s.fs p) :
    Holds sha256 fs p := by
  rw [Holds] at h ⊢
  rw [Put.isActive] at hinactive
  split <;> next hstage => simp_all

end

section

variable (sha256 : List UInt8 → String) (s : BlobState)

/-- What holds at any time. -/
structure Inv : Prop where
  /-- Names refer to files of their own. -/
  proper : s.fs.Proper
  /-- What is stored is what its digest says. -/
  intact : ∀ sha content, s.fs.read (.dest sha) = some content → sha256 content = sha
  /-- What was stored is readable. -/
  readable : ∀ sha content, s.kept.lookup sha = some content →
    s.fs.read (.dest sha) = some content
  /-- The puts have what they rely on. -/
  holds : ∀ id p, s.puts.lookup id = some p → Holds sha256 s.fs p
  /-- One put at a time has the temporary file of a digest. -/
  exclusive : ∀ id id' p p', s.puts.lookup id = some p → s.puts.lookup id' = some p' →
    p.isActive = true → p'.isActive = true → p.sha = p'.sha → id = id'

end

/-- The temporary files of other digests stay as they are. -/
def Frame (sha : String) (fs fs' : FileSystem BlobPath) : Prop :=
  ∀ sha' ≠ sha, ∀ file, fs.names.lookup (.part sha') = some file →
    fs'.names.lookup (.part sha') = some file ∧ fs'.files.lookup file = fs.files.lookup file

variable {sha256 : List UInt8 → String} {s s' : BlobState} {fs : FileSystem BlobPath}
  {p p' : Put} {id file n : ℕ} {e : BlobEvent} {bytes : List UInt8} {sha : String}

/-! ### Frames -/

theorem Inv.alone (h : s.Inv sha256) (hp : s.puts.lookup id = some p) (hactive : p.isActive = true)
    (id' : ℕ) (q : Put) (hq : s.puts.lookup id' = some q) (hne : id' ≠ id) (hsha : q.sha = p.sha) :
    q.isActive = false := by
  rw [← Bool.not_eq_true]
  exact fun hactive' => hne (h.exclusive id' id q p hq hp hactive' hactive hsha)

theorem Inv.goOn {kept : Table String (List UInt8)} (h : s.Inv sha256) (hsha : p'.sha = p.sha)
    (halone : ∀ id' q, s.puts.lookup id' = some q → id' ≠ id → q.sha = p.sha →
      q.isActive = false)
    (hproper : fs.Proper)
    (hintact : ∀ sha content, fs.read (.dest sha) = some content → sha256 content = sha)
    (hreadable : ∀ sha content, kept.lookup sha = some content →
      fs.read (.dest sha) = some content)
    (hframe : Frame p.sha s.fs fs) (hholds : Holds sha256 fs p') :
    (BlobState.goOn { s with fs, kept } id p').Inv sha256 := by
  have hlookup : ∀ id', (s.puts.insert id p').lookup id' =
      if id' = id then some p' else s.puts.lookup id' := fun id' => Table.lookup_insert ..
  refine ⟨hproper, hintact, hreadable, fun id' q hq => ?_, fun i j q q' hq hq' hqa hqa' hqs => ?_⟩
  · rw [BlobState.goOn, hlookup] at hq
    split_ifs at hq with hid
    · exact Option.some.inj hq ▸ hholds
    · by_cases hqs : q.sha = p.sha
      · exact (h.holds id' q hq).of_inactive (halone id' q hq hid hqs)
      · exact (h.holds id' q hq).of_names (hframe q.sha hqs)
  · rw [BlobState.goOn, hlookup] at hq hq'
    split_ifs at hq hq' with hi hj hj
    · rw [hi, hj]
    · obtain rfl := Option.some.inj hq
      rw [halone j q' hq' hj (hqs.symm.trans hsha)] at hqa'
      cases hqa'
    · obtain rfl := Option.some.inj hq'
      rw [halone i q hq hi (hqs.trans hsha)] at hqa
      cases hqa
    · exact h.exclusive i j q q' hq hq' hqa hqa' hqs

theorem Inv.setPut (h : s.Inv sha256) (hholds : Holds sha256 s.fs p')
    (hactive : p'.isActive = true → ∃ p, s.puts.lookup id = some p ∧ p.isActive = true ∧
      p.sha = p'.sha) : (s.goOn id p').Inv sha256 := by
  have hlookup : ∀ id', (s.puts.insert id p').lookup id' =
      if id' = id then some p' else s.puts.lookup id' := fun id' => Table.lookup_insert ..
  refine ⟨h.proper, h.intact, h.readable, fun id' q hq => ?_,
    fun i j q q' hq hq' hqa hqa' hqs => ?_⟩
  · rw [BlobState.goOn, hlookup] at hq
    split_ifs at hq
    · exact Option.some.inj hq ▸ hholds
    · exact h.holds id' q hq
  · rw [BlobState.goOn, hlookup] at hq hq'
    split_ifs at hq hq' with hi hj hj
    · rw [hi, hj]
    · obtain rfl := Option.some.inj hq
      obtain ⟨p, hp, hpa, hps⟩ := hactive hqa
      exact hi.trans (h.exclusive id j p q' hp hq' hpa hqa' (hps.trans hqs))
    · obtain rfl := Option.some.inj hq'
      obtain ⟨p, hp, hpa, hps⟩ := hactive hqa'
      exact (h.exclusive i id q p hq hp hqa hpa (hqs.trans hps.symm)).trans hj.symm
    · exact h.exclusive i j q q' hq hq' hqa hqa' hqs

/-! ### Calls -/

theorem alone_of_allowed (hallowed : s.allowed (.open_ id) = true)
    (hp : s.puts.lookup id = some p) (id' : ℕ) (q : Put) (hq : s.puts.lookup id' = some q)
    (hne : id' ≠ id) (hsha : q.sha = p.sha) : q.isActive = false := by
  rw [allowed, hp, Option.all_some, List.all_eq_true] at hallowed
  have hentry := hallowed ⟨id', q⟩ (AList.mem_lookup_iff.1 hq)
  simpa [hne, hsha] using hentry

/-- `open(tmp, "wb")` -/
theorem Inv.opened (h : s.Inv sha256) (hp : s.puts.lookup id = some p)
    (hstage : p.stage = .opening)
    (halone : ∀ id' q, s.puts.lookup id' = some q → id' ≠ id → q.sha = p.sha →
      q.isActive = false) : (s.opened id p).Inv sha256 := by
  have hread : ∀ sha, (s.fs.openTruncate (.part p.sha)).1.read (.dest sha) =
      s.fs.read (.dest sha) :=
    fun sha => h.proper.read_openTruncate_of_ne (by simp)
  have hholds := h.holds id p hp
  rw [Holds, hstage] at hholds
  obtain ⟨hcontent, hbuffer, hposition⟩ := hholds
  obtain ⟨hname, hfile⟩ := @FileSystem.openTruncate_self _ _ s.fs (.part p.sha)
  refine h.goOn rfl halone h.proper.openTruncate (fun sha content hc => ?_)
    (fun sha content hc => ?_) (fun sha' hne file hf => ?_) ?_
  · exact h.intact sha content (hread sha ▸ hc)
  · exact (hread sha).trans (h.readable sha content hc)
  · exact h.proper.openTruncate_of_ne (by simpa using hne) hf
  · rw [Holds]
    dsimp only
    split_ifs with hfailed
    · exact ⟨⟨hname, [], hfile, by rw [hbuffer, hcontent]; rfl, hposition⟩, fun _ => hfailed⟩
    · exact ⟨hname, [], hfile, by rw [hbuffer, hcontent]; rfl, hposition⟩

/-- `write`, and what is left of it in `close`. -/
theorem Inv.flushed {p₀ : Put} (h : s.Inv sha256) (hp : s.puts.lookup id = some p₀)
    (hactive : p₀.isActive = true) (hsha : p.sha = p₀.sha) (hholds : Holds sha256 s.fs p)
    (hstage : p.stage = .writing file ∨ ∃ raises, p.stage = .closing file raises) :
    (s.flushed id p file n).1.Inv sha256 := by
  obtain ⟨hname, written, hfile, happend, hposition⟩ :
      s.fs.names.lookup (.part p.sha) = some file ∧ ∃ written,
        s.fs.files.lookup file = some written ∧ written ++ p.buffer = p.content ∧
          p.position = written.length := by
    rw [Holds] at hholds
    rcases hstage with hstage | ⟨raises, hstage⟩
    · rwa [hstage] at hholds
    · rw [hstage] at hholds
      exact hholds.1
  have hread : ∀ sha, (s.fs.pwrite file p.position (p.buffer.take n)).read (.dest sha) =
      s.fs.read (.dest sha) :=
    fun sha => h.proper.read_pwrite_of_ne hname (by simp)
  have hfile' : (s.fs.pwrite file p.position (p.buffer.take n)).files.lookup file =
      some (written ++ p.buffer.take n) := by
    rw [FileSystem.files_pwrite, if_pos rfl, hfile, Option.map_some, hposition, writeAt_length]
  have hwritten : (written ++ p.buffer.take n) ++ p.buffer.drop n = p.content := by
    rw [List.append_assoc, List.take_append_drop, happend]
  have hposition' : p.position + (p.buffer.take n).length =
      (written ++ p.buffer.take n).length := by
    rw [hposition, List.length_append]
  have hsha' : (s.flushed id p file n).2.sha = p₀.sha := hsha
  refine h.goOn hsha' (h.alone hp hactive) h.proper.pwrite (fun sha content hc => ?_)
    (fun sha content hc => ?_) (fun sha' hne file' hf => ⟨hf, ?_⟩) ?_
  · exact h.intact sha content (hread sha ▸ hc)
  · exact (hread sha).trans (h.readable sha content hc)
  · rw [FileSystem.files_pwrite, if_neg]
    rintro rfl
    have heq := h.proper.inj _ _ _ hf hname
    exact hne (by simpa [hsha] using heq)
  · rw [Holds] at hholds ⊢
    rcases hstage with hstage | ⟨raises, hstage⟩
    · simp only [hstage]
      exact ⟨hname, _, hfile', hwritten, hposition'⟩
    · rw [hstage] at hholds
      simp only [hstage]
      exact ⟨⟨hname, _, hfile', hwritten, hposition'⟩, hholds.2⟩

/-- `os.replace(tmp, dest)` -/
theorem Inv.replaced (hinj : Function.Injective sha256) (h : s.Inv sha256)
    (hp : s.puts.lookup id = some p) (hstage : p.stage = .replacing) :
    (s.replaced id p).Inv sha256 := by
  have hactive : p.isActive = true := by
    rw [Put.isActive, hstage]
  have hholds := h.holds id p hp
  rw [Holds, hstage] at hholds
  obtain ⟨hsha, file, hname, hfile⟩ := hholds
  have hread : ∀ sha, ({ s.fs with
        names := (s.fs.names.erase (.part p.sha)).insert (.dest p.sha) file } :
          FileSystem BlobPath).read (.dest sha) =
      if sha = p.sha then some p.content else s.fs.read (.dest sha) := by
    intro sha
    rw [FileSystem.read_rename (by simp), hfile]
    simp
  have hframe : Frame p.sha s.fs { s.fs with
      names := (s.fs.names.erase (.part p.sha)).insert (.dest p.sha) file } := by
    intro sha' hne file' hf
    refine ⟨?_, rfl⟩
    rw [FileSystem.names_rename, if_neg (by simp), if_neg (by simpa using hne)]
    exact hf
  have hintact : ∀ sha content, ({ s.fs with
        names := (s.fs.names.erase (.part p.sha)).insert (.dest p.sha) file } :
          FileSystem BlobPath).read (.dest sha) = some content → sha256 content = sha := by
    intro sha content hc
    rw [hread] at hc
    split_ifs at hc with heq
    · rw [← Option.some.inj hc, heq, hsha]
    · exact h.intact sha content hc
  rw [BlobState.replaced, FileSystem.rename_eq_some hname]
  dsimp only
  split_ifs with hfailed
  · refine h.goOn (p := p) rfl (h.alone hp hactive) (h.proper.rename hname) hintact
      (fun sha content hc => ?_) hframe ?_
    · have hold := h.readable sha content hc
      rw [hread]
      split_ifs with heq
      · -- the digest has had this content before
        have hsame := hinj ((h.intact sha content hold).trans (heq.trans hsha.symm))
        rw [hsame]
      · exact hold
    · rw [Holds]
      exact fun hgood => absurd hgood.1 (by simp [hfailed])
  · refine h.goOn (p := p) rfl (h.alone hp hactive) (h.proper.rename hname) hintact
      (fun sha content hc => ?_) hframe fun _ => rfl
    rw [hread]
    have hc := (Table.lookup_insert ..).symm.trans hc
    split_ifs at hc ⊢
    · exact hc
    · exact h.readable sha content hc

/-- `unlink` of the temporary file. -/
theorem Inv.removed {result : PutResult} (h : s.Inv sha256) (hp : s.puts.lookup id = some p)
    (hstage : p.stage = .removing result) :
    (BlobState.goOn { s with fs := s.fs.unlink (.part p.sha) } id
      { p with stage := .ended (if p.isFailed then .raised else result) }).Inv sha256 := by
  have hactive : p.isActive = true := by
    rw [Put.isActive, hstage]
  have hread : ∀ sha, (s.fs.unlink (.part p.sha)).read (.dest sha) = s.fs.read (.dest sha) :=
    fun sha => FileSystem.read_unlink_of_ne (by simp)
  have hholds := h.holds id p hp
  rw [Holds, hstage] at hholds
  refine h.goOn (p := p) rfl (h.alone hp hactive) h.proper.unlink (fun sha content hc => ?_)
    (fun sha content hc => ?_) (fun sha' hne file hf => ⟨?_, rfl⟩) ?_
  · exact h.intact sha content (hread sha ▸ hc)
  · exact (hread sha).trans (h.readable sha content hc)
  · rw [FileSystem.names_unlink_of_ne (by simpa using hne)]
    exact hf
  · exact fun hgood => absurd hgood hholds

theorem Inv.delete (h : s.Inv sha256) :
    ({ s with fs := s.fs.unlink (.dest sha), kept := s.kept.erase sha } :
      BlobState).Inv sha256 := by
  have hread : ∀ sha' ≠ sha, (s.fs.unlink (.dest sha)).read (.dest sha') =
      s.fs.read (.dest sha') :=
    fun sha' hne => FileSystem.read_unlink_of_ne (by simpa using hne)
  have hgone : (s.fs.unlink (.dest sha)).read (.dest sha) = none := by
    rw [FileSystem.read, FileSystem.unlink, AList.lookup_erase]
    rfl
  refine ⟨h.proper.unlink, fun sha' content hc => ?_, fun sha' content hc => ?_,
    fun id p hp => ?_, h.exclusive⟩
  · by_cases heq : sha' = sha
    · rw [heq, hgone] at hc
      cases hc
    · exact h.intact sha' content (hread sha' heq ▸ hc)
  · obtain ⟨hne, hc⟩ := Table.lookup_of_erase hc
    exact (hread sha' hne).trans (h.readable sha' content hc)
  · refine (h.holds id p hp).of_names fun file hf => ⟨?_, rfl⟩
    rw [FileSystem.names_unlink_of_ne (by simp)]
    exact hf

/-- What is checked when all is written. -/
theorem holds_checked (hname : fs.names.lookup (.part p.sha) = some file)
    (hfile : fs.files.lookup file = some p.content) :
    Holds sha256 fs { p with stage := checked sha256 p } := by
  by_cases hsha : sha256 p.content = p.sha
  · by_cases hsize : (p.content.length : ℤ) ≠ p.byteSize ∧ p.byteSize > 0
    · have hstage : checked sha256 p = .removing .sizeMismatch := by
        rw [checked, if_neg (not_not.2 hsha), if_pos hsize]
      rw [hstage]
      rintro ⟨-, -, hlength | hle⟩
      · exact hsize.1 hlength
      · have hpos : 0 < p.byteSize := hsize.2
        have hle : p.byteSize ≤ 0 := hle
        omega
    · have hstage : checked sha256 p = .replacing := by
        rw [checked, if_neg (not_not.2 hsha), if_neg hsize]
      rw [hstage]
      exact ⟨hsha, file, hname, hfile⟩
  · have hstage : checked sha256 p = .removing .shaMismatch := by
      rw [checked, if_pos hsha]
    rw [hstage]
    exact fun hgood => hsha hgood.2.1

theorem Inv.closed {raises : Bool} (h : s.Inv sha256) (hp : s.puts.lookup id = some p)
    (hstage : p.stage = .closing file raises) :
    ((s.flushed id p file p.buffer.length).1.goOn id { (s.flushed id p file p.buffer.length).2 with
      stage := if raises then .ended .raised
        else checked sha256 (s.flushed id p file p.buffer.length).2 }).Inv sha256 := by
  have hactive : p.isActive = true := by
    rw [Put.isActive, hstage]
  have hinv := h.flushed (n := p.buffer.length) hp hactive rfl (h.holds id p hp)
    (.inr ⟨raises, hstage⟩)
  have hlookup : (s.flushed id p file p.buffer.length).1.puts.lookup id =
      some (s.flushed id p file p.buffer.length).2 := AList.lookup_insert _
  have hstage' : (s.flushed id p file p.buffer.length).2.stage = .closing file raises := hstage
  have hholds := hinv.holds id _ hlookup
  rw [Holds, hstage'] at hholds
  obtain ⟨⟨hname, written, hfile, happend, -⟩, hraises⟩ := hholds
  have hbuffer : (s.flushed id p file p.buffer.length).2.buffer = [] := List.drop_length
  rw [hbuffer, List.append_nil] at happend
  refine hinv.setPut ?_ fun _ => ⟨_, hlookup, by rw [Put.isActive, hstage'], rfl⟩
  cases raises with
  | true => exact fun hgood => absurd (hgood.1.symm.trans (hraises rfl)) (by decide)
  | false => exact holds_checked hname (happend ▸ hfile)

theorem Inv.cancelled (h : s.Inv sha256) (hp : s.puts.lookup id = some p)
    (hp' : BlobState.cancelled p = some p') : (s.goOn id p').Inv sha256 := by
  have hholds := h.holds id p hp
  rw [Holds] at hholds
  rw [BlobState.cancelled] at hp'
  cases hstage : p.stage with
  | ended result =>
    rw [hstage] at hp'
    cases hp'
  | opening =>
    rw [hstage] at hp' hholds
    obtain rfl := Option.some.inj hp'
    refine h.setPut ?_ fun hactive => ?_
    · exact hholds
    · simp [Put.isActive] at hactive
  | writing file =>
    rw [hstage] at hp' hholds
    obtain rfl := Option.some.inj hp'
    exact h.setPut ⟨hholds, fun _ => rfl⟩ fun _ => ⟨p, hp, by rw [Put.isActive, hstage], rfl⟩
  | closing file raises =>
    rw [hstage] at hp' hholds
    obtain rfl := Option.some.inj hp'
    exact h.setPut ⟨hholds.1, fun _ => rfl⟩ fun _ => ⟨p, hp, by rw [Put.isActive, hstage], rfl⟩
  | removing result =>
    rw [hstage] at hp' hholds
    obtain rfl := Option.some.inj hp'
    refine h.setPut ?_ fun _ => ⟨p, hp, by rw [Put.isActive, hstage], rfl⟩
    exact fun hgood => (by cases hgood.1)
  | replacing =>
    rw [hstage] at hp' hholds
    obtain rfl := Option.some.inj hp'
    exact h.setPut hholds fun _ => ⟨p, hp, by rw [Put.isActive, hstage], rfl⟩

/-! ### Steps -/

/-- **The calls keep what holds at any time.** -/
theorem Inv.step (hinj : Function.Injective sha256) (h : s.Inv sha256)
    (hallowed : s.allowed e = true) (hstep : s.step sha256 e = some s') : s'.Inv sha256 := by
  cases e with
  | put id sha byteSize =>
    simp only [BlobState.step] at hstep
    split_ifs at hstep with hnew
    obtain rfl := Option.some.inj hstep
    exact h.setPut ⟨rfl, rfl, rfl⟩ fun hactive => (by cases hactive)
  | open_ id =>
    obtain ⟨p, hp, hstep⟩ := Option.bind_eq_some_iff.1 hstep
    split at hstep
    · next hstage =>
      obtain rfl := Option.some.inj hstep
      exact h.opened hp hstage (alone_of_allowed hallowed hp)
    · cases hstep
  | write id chunk n =>
    obtain ⟨p, hp, hstep⟩ := Option.bind_eq_some_iff.1 hstep
    split at hstep
    · next file hstage =>
      obtain rfl := Option.some.inj hstep
      refine h.flushed hp (by rw [Put.isActive, hstage]) rfl ?_ (.inl hstage)
      have hholds := h.holds id p hp
      rw [Holds, hstage] at hholds
      obtain ⟨hname, written, hfile, happend, hposition⟩ := hholds
      rw [Holds]
      simp only [hstage]
      exact ⟨hname, written, hfile, by rw [← List.append_assoc, happend], hposition⟩
    · cases hstep
  | finish id =>
    obtain ⟨p, hp, hstep⟩ := Option.bind_eq_some_iff.1 hstep
    split at hstep
    · next file hstage =>
      obtain rfl := Option.some.inj hstep
      have hholds := h.holds id p hp
      rw [Holds, hstage] at hholds
      exact h.setPut ⟨hholds, fun hraises => (by cases hraises)⟩
        fun _ => ⟨p, hp, by rw [Put.isActive, hstage], rfl⟩
    · cases hstep
  | fail id =>
    obtain ⟨p, hp, hstep⟩ := Option.bind_eq_some_iff.1 hstep
    split at hstep
    · next file hstage =>
      obtain rfl := Option.some.inj hstep
      have hholds := h.holds id p hp
      rw [Holds, hstage] at hholds
      exact h.setPut ⟨hholds, fun _ => rfl⟩ fun _ => ⟨p, hp, by rw [Put.isActive, hstage], rfl⟩
    · cases hstep
  | close id =>
    obtain ⟨p, hp, hstep⟩ := Option.bind_eq_some_iff.1 hstep
    split at hstep
    · next hstage => exact Option.some.inj hstep ▸ h.closed hp hstage
    · cases hstep
  | remove id =>
    obtain ⟨p, hp, hstep⟩ := Option.bind_eq_some_iff.1 hstep
    split at hstep
    · next hstage => exact Option.some.inj hstep ▸ h.removed hp hstage
    · cases hstep
  | replace id =>
    obtain ⟨p, hp, hstep⟩ := Option.bind_eq_some_iff.1 hstep
    split at hstep
    · next hstage => exact Option.some.inj hstep ▸ h.replaced hinj hp hstage
    · cases hstep
  | cancel id =>
    obtain ⟨p, hp, hstep⟩ := Option.bind_eq_some_iff.1 hstep
    obtain ⟨p', hp', rfl⟩ := Option.map_eq_some_iff.1 hstep
    exact h.cancelled hp hp'
  | drop id =>
    obtain ⟨p, hp, hstep⟩ := Option.bind_eq_some_iff.1 hstep
    have hdropped : p.isFailed = true →
        (s.goOn id { p with stage := .ended .raised }).Inv sha256 := by
      intro hfailed
      refine h.setPut (fun hgood => ?_) fun hactive => (by cases hactive)
      exact absurd (hgood.1.symm.trans hfailed) (by decide)
    split at hstep
    · next hfailed => exact Option.some.inj hstep ▸ hdropped hfailed
    · next hfailed => exact Option.some.inj hstep ▸ hdropped hfailed
    · next hfailed => exact Option.some.inj hstep ▸ hdropped hfailed
    · cases hstep
  | delete sha => exact Option.some.inj hstep ▸ h.delete

/-- What holds at any time is what is claimed. -/
theorem Inv.sound (h : s.Inv sha256) : s.Sound sha256 where
  intact := h.intact
  succeeds id p result hp hstage hgood := by
    have hholds := h.holds id p hp
    rw [Holds, hstage] at hholds
    exact hholds hgood
  readable := h.readable

end BlobState

/-! ### Soundness -/

/-- **Blobs are what their digests say.**  Whatever the order of the calls of puts and deletes, and
wherever sources raise or puts are cancelled: as long as a put opens its temporary file while no
other put of the digest has one, what is stored is what its digest says, a put whose source yields
that succeeds, and it is readable until it is deleted. -/
theorem blobs_sound {sha256 : List UInt8 → String} (hinj : Function.Injective sha256)
    {s : BlobState} (hs : (blobSystem sha256).Reaches (fun s e => s.allowed e = true) s) :
    s.Sound sha256 := by
  have hinv : (blobSystem sha256).Invariant (fun s e => s.allowed e = true)
      fun s => s.Inv sha256 := by
    refine ⟨⟨.empty, ?_, ?_, ?_, ?_⟩, fun h hallowed hstep => h.step hinj hallowed hstep⟩
    · exact fun _ _ hc => (by cases hc)
    · exact fun _ _ hc => (by cases hc)
    · exact fun _ _ hp => (by cases hp)
    · exact fun _ _ _ _ hp => (by cases hp)
  exact (hinv.of_reaches hs).sound

section

/-- The digest of one byte. -/
def letterSha : String := "ca978112ca1bbdcafac231b39a23dc4da786eff8147c4e72b9807785afee48bb"

/-- A digest without collisions, which is SHA-256 where the runs below need it. -/
def sampleSha (content : List UInt8) : String :=
  if content = [97] then letterSha
  else if content = [] then "e3b0c44298fc1c149afbf4c8996fb92427ae41e4649b934ca495991b7852b855"
  else String.ofList ('x' :: content.map fun b => Char.ofNat b.toNat)

theorem sampleSha_injective : Function.Injective sampleSha := by
  have hmap : Function.Injective fun content : List UInt8 =>
      String.ofList ('x' :: content.map fun b => Char.ofNat b.toNat) := by
    intro c c' h
    have hlist := (List.cons.inj (String.ofList_injective h)).2
    refine List.map_injective_iff.2 (fun b b' hb => ?_) hlist
    have hval : ∀ n < 256, (Char.ofNat n).toNat = n := by
      decide +kernel
    have hnat := congrArg Char.toNat hb
    rw [hval _ b.toNat_lt, hval _ b'.toNat_lt] at hnat
    exact UInt8.toNat_inj.1 hnat
  have hfirst : ∀ content, sampleSha content = letterSha → content = [97] := by
    intro content h
    by_contra hne
    rw [sampleSha, if_neg hne] at h
    split_ifs at h
    · exact absurd h (by decide)
    · have hhead := congrArg (fun x => x.toList.head?) h
      simp [letterSha] at hhead
  have hsecond : ∀ content, sampleSha content = sampleSha [] → content = [] := by
    intro content h
    by_contra hne
    rw [sampleSha, if_neg (fun heq => ?_), if_neg hne] at h
    · have hhead := congrArg (fun x => x.toList.head?) h
      simp [sampleSha] at hhead
    · rw [heq] at h
      exact absurd h (by decide)
  intro c c' h
  by_cases hc : c = [97]
  · rw [hc] at h ⊢
    exact (hfirst c' h.symm).symm
  by_cases hc' : c' = [97]
  · rw [hc'] at h ⊢
    exact hfirst c h
  by_cases hempty : c = []
  · rw [hempty] at h ⊢
    exact (hsecond c' h.symm).symm
  by_cases hempty' : c' = []
  · rw [hempty'] at h ⊢
    exact hsecond c h
  rw [sampleSha, if_neg hc, if_neg hempty, sampleSha, if_neg hc', if_neg hempty'] at h
  exact hmap h

/-- A put of one byte, from its `open` to its checks. -/
def letterPut (id : ℕ) : List BlobEvent :=
  [.open_ id, .write id [97] 0, .finish id, .close id]

/-- The byte is stored, deleted and stored again. -/
theorem blobs_sound_again : ∃ s : BlobState, s.Sound sampleSha ∧
    s.fs.read (.dest letterSha) = some [97] := by
  have h : ((blobSystem sampleSha).run BlobState.allowed (blobSystem sampleSha).init
      (.put 0 letterSha 1 :: letterPut 0 ++ [.replace 0, .delete letterSha] ++
        .put 1 letterSha 1 :: letterPut 1 ++ [.replace 1])).map
          (fun s => s.fs.read (.dest letterSha)) = some (some [97]) := by
    decide +kernel
  obtain ⟨s, hs, hread⟩ := Option.map_eq_some_iff.1 h
  exact ⟨s, blobs_sound sampleSha_injective (.of_run (fun _ _ h => h) hs), hread⟩

/-- **A second put of the same blob empties the first.**  It opens the temporary file after the
first has checked what it wrote; the first then renames a file that is empty. -/
theorem shared_part_emptied : ¬ ∀ (sha256 : List UInt8 → String), Function.Injective sha256 →
    ∀ s, (blobSystem sha256).Reaches (fun _ _ => True) s → s.Sound sha256 := by
  intro hall
  have h : ((blobSystem sampleSha).run (fun _ _ => true) (blobSystem sampleSha).init
      (.put 0 letterSha 1 :: letterPut 0 ++ [.put 1 letterSha 1, .open_ 1, .replace 0])).map
        (fun s => s.fs.read (.dest letterSha)) = some (some []) := by
    decide +kernel
  obtain ⟨s, hs, hread⟩ := Option.map_eq_some_iff.1 h
  have hsound := hall sampleSha sampleSha_injective s (.of_run (fun _ _ _ => trivial) hs)
  exact absurd (hsound.intact letterSha [] hread) (by decide)

end

end Backplane.Files
