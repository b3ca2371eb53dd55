import Backplane.Data.Table

/-!
# Files with names

A name refers to a file; a file stays when its name goes, for those who have it open.

* `FileSystem` : the names and the files.
* `openTruncate`, `pwrite`, `unlink`, `rename` : the calls.
* `FileSystem.Proper` : no two names refer to one file, and each refers to one that exists.
* `Proper.openTruncate`, `Proper.pwrite`, … : the calls keep it, and what they do to the names.
-/

namespace Backplane

/-- The names, and the contents of the files. -/
structure FileSystem (Name : Type) where
  names : Table Name ℕ := ∅
  files : Table ℕ (List UInt8) := ∅
  next : ℕ := 0

/-- Bytes are written at a position; a gap before it is filled with zeros. -/
def writeAt (content : List UInt8) (position : ℕ) (bytes : List UInt8) : List UInt8 :=
  (content ++ List.replicate (position - content.length) 0).take position ++ bytes ++
    content.drop (position + bytes.length)

@[simp]
theorem writeAt_length (content bytes : List UInt8) :
    writeAt content content.length bytes = content ++ bytes := by
  rw [writeAt, Nat.sub_self, List.replicate_zero, List.append_nil, List.take_length,
    List.drop_of_length_le (Nat.le_add_right _ _), List.append_nil]

namespace FileSystem

variable {Name : Type} [DecidableEq Name] (fs : FileSystem Name)

/-- `open(name, "wb")`: a file that exists is emptied. -/
def openTruncate (name : Name) : FileSystem Name × ℕ :=
  match fs.names.lookup name with
  | some f => ({ fs with files := fs.files.insert f [] }, f)
  | none => ({
      names := fs.names.insert name fs.next
      files := fs.files.insert fs.next []
      next := fs.next + 1 }, fs.next)

/-- Bytes are written to an open file. -/
def pwrite (f position : ℕ) (bytes : List UInt8) : FileSystem Name :=
  { fs with files := fs.files.update f fun content => writeAt content position bytes }

/-- `unlink`, of a name that may be missing. -/
def unlink (name : Name) : FileSystem Name := { fs with names := fs.names.erase name }

/-- `os.replace`; `none`: there is no such name. -/
def rename (name name' : Name) : Option (FileSystem Name) :=
  (fs.names.lookup name).map fun f => { fs with names := (fs.names.erase name).insert name' f }

/-- What is read under a name. -/
def read (name : Name) : Option (List UInt8) := (fs.names.lookup name).bind fs.files.lookup

/-- No two names refer to one file, and each refers to one that exists. -/
structure Proper : Prop where
  /-- No two names refer to one file. -/
  inj : ∀ name name' f, fs.names.lookup name = some f → fs.names.lookup name' = some f →
    name = name'
  /-- Files that have names exist. -/
  known : ∀ name f, fs.names.lookup name = some f → f < fs.next

variable {fs} {name name' : Name} {f position : ℕ} {bytes : List UInt8}

theorem Proper.empty : ({} : FileSystem Name).Proper :=
  ⟨fun _ _ _ h => (by cases h), fun _ _ h => (by cases h)⟩

/-! ### The calls -/

theorem Proper.openTruncate (h : fs.Proper) : (fs.openTruncate name).1.Proper := by
  rw [FileSystem.openTruncate]
  cases hname : fs.names.lookup name with
  | some f => exact ⟨h.inj, h.known⟩
  | none =>
    have hlookup : ∀ x, (fs.names.insert name fs.next).lookup x =
        if x = name then some fs.next else fs.names.lookup x :=
      fun x => Table.lookup_insert ..
    refine ⟨fun x y g hx hy => ?_, fun x g hx => ?_⟩
    · rw [hlookup] at hx hy
      split_ifs at hx hy with hxn hyn hyn
      · rw [hxn, hyn]
      · have hlt := h.known y g hy
        rw [← Option.some.inj hx] at hlt
        exact absurd hlt (lt_irrefl _)
      · have hlt := h.known x g hx
        rw [← Option.some.inj hy] at hlt
        exact absurd hlt (lt_irrefl _)
      · exact h.inj x y g hx hy
    · rw [hlookup] at hx
      split_ifs at hx
      · rw [← Option.some.inj hx]
        exact Nat.lt_succ_self _
      · exact Nat.lt_succ_of_lt (h.known x g hx)

/-- The name refers to the file that is open, which is empty. -/
theorem openTruncate_self : (fs.openTruncate name).1.names.lookup name =
    some (fs.openTruncate name).2 ∧
      (fs.openTruncate name).1.files.lookup (fs.openTruncate name).2 = some [] := by
  rw [openTruncate]
  cases hname : fs.names.lookup name with
  | some f => exact ⟨hname, AList.lookup_insert _⟩
  | none => exact ⟨AList.lookup_insert _, AList.lookup_insert _⟩

/-- The other names refer to their files, with their contents. -/
theorem Proper.openTruncate_of_ne (h : fs.Proper) (hne : name' ≠ name)
    (hname' : fs.names.lookup name' = some f) :
    (fs.openTruncate name).1.names.lookup name' = some f ∧
      (fs.openTruncate name).1.files.lookup f = fs.files.lookup f := by
  rw [FileSystem.openTruncate]
  cases hname : fs.names.lookup name with
  | some g =>
    refine ⟨hname', (Table.lookup_insert ..).trans (if_neg ?_)⟩
    rintro rfl
    exact hne (h.inj _ _ _ hname' hname)
  | none =>
    refine ⟨(Table.lookup_insert ..).trans ((if_neg hne).trans hname'),
      (Table.lookup_insert ..).trans (if_neg ?_)⟩
    exact Nat.ne_of_lt (h.known name' f hname')

theorem names_openTruncate_of_ne (hne : name' ≠ name) :
    (fs.openTruncate name).1.names.lookup name' = fs.names.lookup name' := by
  rw [openTruncate]
  cases fs.names.lookup name with
  | some g => rfl
  | none => exact (Table.lookup_insert ..).trans (if_neg hne)

theorem Proper.pwrite (h : fs.Proper) : (fs.pwrite f position bytes).Proper := ⟨h.inj, h.known⟩

omit [DecidableEq Name] in
theorem files_pwrite (g : ℕ) : (fs.pwrite f position bytes).files.lookup g =
    if g = f then (fs.files.lookup f).map fun content => writeAt content position bytes
    else fs.files.lookup g :=
  Table.lookup_update ..

theorem Proper.unlink (h : fs.Proper) : (fs.unlink name).Proper where
  inj x y g hx hy := h.inj x y g (Table.lookup_of_erase hx).2 (Table.lookup_of_erase hy).2
  known x g hx := h.known x g (Table.lookup_of_erase hx).2

theorem names_unlink_of_ne (hne : name' ≠ name) :
    (fs.unlink name).names.lookup name' = fs.names.lookup name' :=
  AList.lookup_erase_ne hne

theorem rename_eq_some (hname : fs.names.lookup name = some f) :
    fs.rename name name' = some { fs with names := (fs.names.erase name).insert name' f } := by
  rw [rename, hname, Option.map_some]

/-- The file has the new name, the old one is gone, the others stay. -/
theorem names_rename (x : Name) :
    ((fs.names.erase name).insert name' f).lookup x =
      if x = name' then some f else if x = name then none else fs.names.lookup x :=
  Table.lookup_renamed ..

theorem Proper.rename (h : fs.Proper) (hname : fs.names.lookup name = some f) :
    ({ fs with names := (fs.names.erase name).insert name' f } : FileSystem Name).Proper := by
  have hlookup : ∀ x, ((fs.names.erase name).insert name' f).lookup x =
      if x = name' then some f else if x = name then none else fs.names.lookup x :=
    names_rename
  refine ⟨fun x y g hx hy => ?_, fun x g hx => ?_⟩
  · rw [hlookup] at hx hy
    by_cases hx' : x = name' <;> by_cases hy' : y = name'
    · rw [hx', hy']
    · rw [if_pos hx'] at hx
      rw [if_neg hy', ← Option.some.inj hx] at hy
      split_ifs at hy with hyn
      exact absurd (h.inj _ _ _ hy hname) hyn
    · rw [if_pos hy'] at hy
      rw [if_neg hx', ← Option.some.inj hy] at hx
      split_ifs at hx with hxn
      exact absurd (h.inj _ _ _ hx hname) hxn
    · rw [if_neg hx'] at hx
      rw [if_neg hy'] at hy
      split_ifs at hx hy
      exact h.inj x y g hx hy
  · rw [hlookup] at hx
    split_ifs at hx
    · rw [← Option.some.inj hx]
      exact h.known _ _ hname
    · exact h.known x g hx

/-! ### What is read under the other names -/

theorem Proper.read_openTruncate_of_ne (h : fs.Proper) (hne : name' ≠ name) :
    (fs.openTruncate name).1.read name' = fs.read name' := by
  rw [read, read, names_openTruncate_of_ne hne]
  cases hname' : fs.names.lookup name' with
  | none => rfl
  | some f => exact (h.openTruncate_of_ne hne hname').2

theorem Proper.read_pwrite_of_ne (h : fs.Proper) (hname : fs.names.lookup name = some f)
    (hne : name' ≠ name) : (fs.pwrite f position bytes).read name' = fs.read name' := by
  cases hname' : fs.names.lookup name' with
  | none =>
    have hname'' : (fs.pwrite f position bytes).names.lookup name' = none := hname'
    rw [read, read, hname', hname'']
    rfl
  | some g =>
    have hname'' : (fs.pwrite f position bytes).names.lookup name' = some g := hname'
    rw [read, read, hname', hname'', Option.bind_some, Option.bind_some, files_pwrite, if_neg]
    rintro rfl
    exact hne (h.inj _ _ _ hname' hname)

theorem read_unlink_of_ne (hne : name' ≠ name) : (fs.unlink name).read name' = fs.read name' := by
  rw [read, names_unlink_of_ne hne]
  rfl

theorem read_rename {x : Name} (hx : x ≠ name) :
    ({ fs with names := (fs.names.erase name).insert name' f } : FileSystem Name).read x =
      if x = name' then fs.files.lookup f else fs.read x := by
  rw [read, names_rename]
  split_ifs
  · rfl
  · rfl

end FileSystem

end Backplane
