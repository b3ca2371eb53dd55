import Backplane.Data.Glob
import Backplane.Db.Sessions

/-!
# Deleting a name

A request to delete a file takes a name or a glob, and tells them apart by an asterisk.  The names under
which files are saved may have one.

* `Db.deleteFile` : the request.
* `validBareFilename_allocateName` : a saved name is flat.
* `DeletesOnly` : the request removes one binding and leaves all others.
* `delete_precise_iff` : for a saved name it does, exactly when the name has no asterisk or matches no
  other name of its scope.
* `delete_imprecise` : and otherwise it removes more.
-/

namespace Backplane

/-- `_PERSIST_PREFIX` -/
def persistPrefix : List Char := "persist/".toList

/-- The reference of a delete request: whether it is user-wide, and the rest of it. -/
def deleteReference (name : String) : Bool × String :=
  if persistPrefix.isPrefixOf name.toList then
    (true, String.ofList (name.toList.drop persistPrefix.length))
  else (false, name)

namespace Db

variable (db : Db)

/-- `delete_file_name`, with the number of rows. -/
def deleteFileName (u : UserId) (scope name : String) : Db × ℕ :=
  ({ db with fileNames := db.fileNames.erase (u, scope, name) },
    if (db.fileNames.lookup (u, scope, name)).isSome then 1 else 0)

/-- The rows of a scope whose name matches. -/
def matchesGlob (u : UserId) (scope glob : String) (k : UserId × String × String) : Bool :=
  decide (k.1 = u) && decide (k.2.1 = scope) && likeMatch (likePattern glob.toList) k.2.2.toList

/-- `delete_file_names_glob`, with the number of rows. -/
def deleteFileNamesGlob (u : UserId) (scope glob : String) : Db × ℕ :=
  ({ db with fileNames := db.fileNames.deleteWhere fun k _ => matchesGlob u scope glob k },
    (db.fileNames.select fun k _ => matchesGlob u scope glob k).length)

/-- `DeleteFileRequest`, of a task of this user in this session. -/
def deleteFile (u : UserId) (session : SessionId) (name : String) : Db × Except String ℕ :=
  let (persistent, bare) := deleteReference name
  if bare = "" ∨ '/' ∈ bare.toList then (db, .error "invalid_filename")
  else
    let scope := scopeFor persistent session
    let (db, n) :=
      if '*' ∈ bare.toList then db.deleteFileNamesGlob u scope bare
      else db.deleteFileName u scope bare
    (db, .ok n)

end Db

/-- A delete request for the saved name removes its binding and leaves all others. -/
def DeletesOnly (db : Db) (u : UserId) (session : SessionId) (persistent : Bool) (saved : String) :
    Prop :=
  ∀ k, (db.deleteFile u session (displayName persistent saved)).1.fileNames.lookup k =
    if k = (u, scopeFor persistent session, saved) then none else db.fileNames.lookup k

variable {db db₀ : Db} {u u₀ : UserId} {session session₀ : SessionId} {persistent : Bool}
  {scope name saved : String} {row : FileNameRow} {dedup : Dedup}

/-! ### Saved names -/

theorem not_slash_nextDedupCandidate {n : ℕ} (hn : '/' ∉ name.toList) :
    nextDedupCandidate name n ≠ "" ∧ '/' ∉ (nextDedupCandidate name n).toList := by
  have hdigits : '/' ∉ (toString n).toList := by
    intro h
    have hmem : '/' ∈ Nat.toDigits 10 n := by simpa using h
    exact absurd (Nat.isDigit_of_mem_toDigits (by omega) (by omega) hmem) (by decide)
  have hne : ∀ s t : String, s ++ "_" ++ t ≠ "" := by
    intro s t h
    have hlen := congrArg String.toList h
    simp at hlen
  unfold nextDedupCandidate
  dsimp only
  split
  · refine ⟨hne _ _, ?_⟩
    simpa [hn] using hdigits
  · rename_i c stem hrev
    have hrest : ∀ x ∈ c :: stem, x ∈ name.toList := fun x hx =>
      List.mem_reverse.1 (List.mem_of_mem_drop (hrev ▸ hx))
    have hstem : '/' ∉ stem := fun h => hn (hrest _ (List.mem_cons_of_mem _ h))
    have hext : '/' ∉ name.toList.reverse.takeWhile (· ≠ '.') := fun h =>
      hn (List.mem_reverse.1 (List.takeWhile_subset _ h))
    constructor
    · intro h
      have hlen := congrArg String.toList h
      simp at hlen
    · simp only [String.toList_append, String.toList_ofList, List.mem_append, List.mem_reverse, not_or]
      exact ⟨⟨⟨⟨hstem, by decide⟩, hdigits⟩, by decide⟩, hext⟩

/-- A saved name is the one asked for or one derived from it. -/
theorem Db.allocateName_ok (h : (db.allocateName u scope name row dedup).2 = .ok saved) :
    saved = name ∨ ∃ n, saved = nextDedupCandidate name n := by
  unfold allocateName at h
  split at h
  · exact .inl (Except.ok.inj h).symm
  · split_ifs at h
    · exact .inl (Except.ok.inj h).symm
    · cases dedup with
      | error => exact nomatch h
      | overwrite => exact .inl (Except.ok.inj h).symm
      | appendCount =>
        dsimp only at h
        split at h
        · rename_i c hc
          obtain ⟨n, -, rfl⟩ := List.mem_map.1 (List.mem_of_find?_eq_some hc)
          exact .inr ⟨n, (Except.ok.inj h).symm⟩
        · exact nomatch h

theorem flat_of_saved (hv : validBareFilename name = true)
    (h : (db.allocateName u scope name row dedup).2 = .ok saved) :
    saved ≠ "" ∧ '/' ∉ saved.toList := by
  have hname : name ≠ "" ∧ '/' ∉ name.toList := by
    rw [validBareFilename, Bool.and_eq_true, List.all_eq_true] at hv
    exact ⟨of_decide_eq_true hv.1, fun h => absurd (hv.2 '/' h) (by decide)⟩
  obtain rfl | ⟨n, rfl⟩ := Db.allocateName_ok h
  · exact hname
  · exact not_slash_nextDedupCandidate hname.2

theorem deleteReference_displayName (hs : '/' ∉ saved.toList) :
    deleteReference (displayName persistent saved) = (persistent, saved) := by
  cases persistent with
  | true =>
    have htext : (displayName true saved).toList = persistPrefix ++ saved.toList :=
      String.toList_append
    have hpre : persistPrefix.isPrefixOf (displayName true saved).toList = true := by
      rw [List.isPrefixOf_iff_prefix, htext]
      exact List.prefix_append _ _
    rw [deleteReference, if_pos hpre, htext, List.drop_left, String.ofList_toList]
  | false =>
    have hpre : ¬ persistPrefix.isPrefixOf saved.toList = true := by
      rw [List.isPrefixOf_iff_prefix]
      exact fun h => hs (h.subset (by decide))
    exact if_neg hpre

/-- What the request does for a saved name. -/
theorem deleteFile_saved (hne : saved ≠ "") (hs : '/' ∉ saved.toList) :
    (db.deleteFile u session (displayName persistent saved)).1.fileNames =
      if '*' ∈ saved.toList then db.fileNames.deleteWhere fun k _ =>
        Db.matchesGlob u (scopeFor persistent session) saved k
      else db.fileNames.erase (u, scopeFor persistent session, saved) := by
  have hok : ¬ (saved = "" ∨ '/' ∈ saved.toList) := fun h => h.elim hne hs
  unfold Db.deleteFile
  rw [deleteReference_displayName hs]
  dsimp only
  rw [if_neg hok]
  split_ifs <;> rfl

/-! ### Precision -/

theorem Db.matchesGlob_iff {glob v scope' n : String} :
    Db.matchesGlob u scope glob (v, scope', n) = true ↔
      (v = u ∧ scope' = scope) ∧ globMatch glob.toList n.toList = true := by
  simp only [Db.matchesGlob, likeMatch_likePattern, Bool.and_eq_true, decide_eq_true_eq]

theorem Db.lookup_deleteGlob {glob : String} {k : UserId × String × String} :
    (db.fileNames.deleteWhere fun k _ => Db.matchesGlob u scope glob k).lookup k =
      if Db.matchesGlob u scope glob k = true then none else db.fileNames.lookup k := by
  rw [Table.lookup_deleteWhere_eq]
  cases db.fileNames.lookup k with
  | none => simp
  | some r => cases hm : Db.matchesGlob u scope glob k <;> simp [Option.filter, hm]

/-- **A delete request for a saved name is precise** exactly when the name has no asterisk or matches
no other name in its scope. -/
theorem delete_precise_iff (hv : validBareFilename name = true)
    (h : (db₀.allocateName u₀ (scopeFor persistent session₀) name row dedup).2 = .ok saved) :
    DeletesOnly db u session persistent saved ↔
      ('*' ∈ saved.toList → ∀ n r,
        db.fileNames.lookup (u, scopeFor persistent session, n) = some r → n ≠ saved →
          globMatch saved.toList n.toList = false) := by
  obtain ⟨hne, hs⟩ := flat_of_saved hv h
  unfold DeletesOnly
  rw [deleteFile_saved hne hs]
  split_ifs with hstar
  · simp only [Db.lookup_deleteGlob]
    constructor
    · intro hall _ n r hr hn
      by_contra hm
      have hk := hall (u, scopeFor persistent session, n)
      rw [Bool.not_eq_false] at hm
      rw [if_pos (Db.matchesGlob_iff.2 ⟨⟨rfl, rfl⟩, hm⟩), if_neg (by simpa using hn), hr] at hk
      exact absurd hk (by simp)
    · rintro hall ⟨v, scope, n⟩
      by_cases hk : (v, scope, n) = (u, scopeFor persistent session, saved)
      · obtain ⟨rfl, rfl, rfl⟩ : v = u ∧ scope = scopeFor persistent session ∧ n = saved := by
          simpa using hk
        rw [if_pos (Db.matchesGlob_iff.2 ⟨⟨rfl, rfl⟩, globMatch_self _⟩), if_pos rfl]
      · rw [if_neg hk]
        split_ifs with hm
        · obtain ⟨⟨rfl, rfl⟩, hglob⟩ := Db.matchesGlob_iff.1 hm
          cases hr : db.fileNames.lookup (v, scopeFor persistent session, n) with
          | none => rfl
          | some r =>
            have hn : n ≠ saved := fun hn => hk (by rw [hn])
            exact absurd (hglob.symm.trans (hall hstar n r hr hn)) (by simp)
        · rfl
  · refine iff_of_true (fun k => ?_) fun hs' => absurd hs' hstar
    split_ifs with hk
    · rw [hk, AList.lookup_erase]
    · exact AList.lookup_erase_ne hk

/-! ### A name with an asterisk -/

namespace Sample

/-- Two names in a user's own scope, one of which has an asterisk. -/
def starred : Db where
  fileNames := (∅ : FileNames)
    |>.insert ("ada", "persist", "notes*") ⟨"f1", 3⟩
    |>.insert ("ada", "persist", "notes.txt") ⟨"f2", 5⟩

end Sample

/-- A name is saved under `notes*`; deleting it deletes `notes.txt` too. -/
theorem delete_imprecise : ¬ ∀ (db₀ db : Db) (u₀ u : UserId) (session₀ session : SessionId)
    (persistent : Bool) (name saved : String) (row : FileNameRow) (dedup : Dedup),
    validBareFilename name = true →
    (db₀.allocateName u₀ (scopeFor persistent session₀) name row dedup).2 = .ok saved →
    DeletesOnly db u session persistent saved := by
  intro hall
  have h := hall {} Sample.starred "ada" "ada" "s" "s" true "notes*" "notes*" ⟨"f1", 3⟩ .error
    (by decide) rfl ("ada", "persist", "notes.txt")
  exact absurd h (by decide +kernel)

/-- A name without an asterisk goes alone. -/
theorem delete_precise_plain :
    (Sample.starred.deleteFile "ada" "s" "persist/notes.txt").1.fileNames.keys =
      [("ada", "persist", "notes*")] ∧
    DeletesOnly Sample.starred "ada" "s" true "notes.txt" := by
  refine ⟨by decide +kernel, ?_⟩
  have hsaved : (({} : Db).allocateName "ada" (scopeFor true "s") "notes.txt" ⟨"f2", 5⟩ .error).2 =
      .ok "notes.txt" := rfl
  exact (delete_precise_iff (by decide) hsaved).2 fun h => absurd h (by decide)

end Backplane
