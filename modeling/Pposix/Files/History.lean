-- SUMMARY: What the log of the file store tells: the contents of every file, the position of every description, and the last write to every byte.
import Pposix.Files.Shared

/-!
# Histories of files

A log that replays on the file store determines the contents of every file: each entry
edits the contents or leaves them. From this follow the properties that programs rely on
when they share a file, in any interleaving.
-/

namespace Files

/-! ## Contents -/

namespace Disk

variable {π F M : Type}

/-- The contents of an inode, and nothing when there is no such inode. -/
def bytes (k : Disk π F M) (i : Nat) : List UInt8 := ((k.inodes i).map Inode.data).getD []

theorem bytes_of_find {k : Disk π F M} {who : π} {fd : Int} {f : Found F M}
    (h : k.find who fd = some f) :
    k.descs who fd = some f.file ∧ k.files f.file = some f.open_ ∧
      k.bytes f.open_.inode = f.inode.data := by
  simp only [find, Option.bind_eq_bind, Option.bind_eq_some_iff] at h
  obtain ⟨t, ht, x, hx, i, hi, hf⟩ := h
  cases hf
  exact ⟨ht, hx, by simp [bytes, hi]⟩

@[simp] theorem bytes_seek (k : Disk π F M) (t offset i : Nat) :
    (k.seek t offset).bytes i = k.bytes i := rfl

@[simp] theorem bytes_refer [DecidableEq π] (k : Disk π F M) (who : π) (fd : Int) (t : Option Nat)
    (i : Nat) : (k.refer who fd t).bytes i = k.bytes i := rfl

@[simp] theorem bytes_attach [DecidableEq π] (k : Disk π F M) (who : π) (fd : Int) (t j : Nat)
    (flags : F) (i : Nat) : (k.attach who fd t j flags).bytes i = k.bytes i := rfl

@[simp] theorem bytes_unlink (k : Disk π F M) (path : String) (i : Nat) :
    (k.unlink path).bytes i = k.bytes i := rfl

theorem bytes_setData_of_ne (k : Disk π F M) {i j : Nat} (hij : i ≠ j) (data : List UInt8) :
    (k.setData j data).bytes i = k.bytes i := by
  simp [bytes, setData, Function.update_of_ne hij]

theorem bytes_setData_self {k : Disk π F M} {who : π} {fd : Int} {f : Found F M}
    (h : k.find who fd = some f) (data : List UInt8) :
    (k.setData f.open_.inode data).bytes f.open_.inode = data := by
  simp only [find, Option.bind_eq_bind, Option.bind_eq_some_iff] at h
  obtain ⟨t, -, x, -, j, hj, hf⟩ := h
  cases hf
  simp [bytes, setData, hj]

theorem bytes_setData_nil (k : Disk π F M) (i : Nat) : (k.setData i []).bytes i = [] := by
  simp only [bytes, setData, Function.update_self]
  cases k.inodes i <;> rfl

theorem bytes_create_of_ne (k : Disk π F M) {i j : Nat} (hij : i ≠ j) (path : String) (mode : M) :
    (k.create path j mode).bytes i = k.bytes i := by
  simp [bytes, create, Function.update_of_ne hij]

theorem bytes_create_self (k : Disk π F M) (i : Nat) (path : String) (mode : M) :
    (k.create path i mode).bytes i = [] := by
  simp [bytes, create]

/-- A write at a position is an edit of the contents. -/
theorem bytes_writeAt {k : Disk π F M} {who : π} {fd : Int} {f : Found F M}
    (h : k.find who fd = some f) (pos : Nat) (given : List UInt8) (i : Nat) :
    (k.writeAt f pos given).bytes i =
      if f.open_.inode = i then (Tape.Edit.put pos given).apply 0 (k.bytes i) else k.bytes i := by
  obtain ⟨-, -, hbytes⟩ := bytes_of_find h
  by_cases hnil : given = []
  · simp [writeAt, Tape.Edit.apply, hnil]
  · rw [writeAt, if_neg hnil, bytes_seek]
    split
    · rename_i hi
      subst hi
      rw [bytes_setData_self h, hbytes, Tape.Edit.apply, if_neg hnil]
    · rename_i hi
      exact bytes_setData_of_ne k (Ne.symm hi) _

theorem bytes_map {F' M' : Type} (f : F → F') (g : M → M') (k : Disk π F M) (i : Nat) :
    (k.map f g).bytes i = k.bytes i := by
  simp only [bytes, map, Function.comp_apply]
  cases k.inodes i <;> rfl

end Disk

@[simp] theorem RawDisk.bytes_abs {π : Type} (k : RawDisk π) (i : Nat) :
    k.abs.bytes i = Disk.bytes k i :=
  Disk.bytes_map ..

section

variable {π : Type} [DecidableEq π]

omit [DecidableEq π] in
/-- What an entry does to the contents of an inode. -/
def Entry.edit (i : Nat) : Entry π → Option (Tape.Edit UInt8)
  | .opened _ o _ place _ => if place.inode = i ∧ o.Truncates then some .clear else none
  | .wrote _ _ given n place =>
    if place.inode = i then some (.put place.pos (given.take n)) else none
  | _ => none

omit [DecidableEq π] in
def edits (i : Nat) (log : List (Entry π)) : List (Tape.Edit UInt8) := log.filterMap (Entry.edit i)

variable {umask : π → Set (FileClass × Right)} {s₀ s s' : Store π} {e : Entry π}
  {log : List (Entry π)}

/-- An entry edits the contents of an inode, or leaves them. -/
theorem Moves.bytes (h : Moves umask s e s') (i : Nat) :
    s'.bytes i = Tape.edited 0 (s.bytes i) (e.edit i).toList := by
  cases h with
  | @found who o fd t j =>
    rw [Disk.bytes_attach]
    by_cases hij : i = j
    · subst hij
      by_cases ho : o.Truncates
      · simp only [Entry.edit, true_and, if_pos ho]
        exact Disk.bytes_setData_nil ..
      · simp only [Entry.edit, true_and, if_neg ho]
        rfl
    · simp only [Entry.edit, Ne.symm hij, false_and, if_false]
      split
      · exact Disk.bytes_setData_of_ne _ hij _
      · rfl
  | @made who o fd t j permission _ _ _ _ hnew =>
    rw [Disk.bytes_attach]
    by_cases hij : i = j
    · subst hij
      have hnil : s.bytes i = [] := by simp [Disk.bytes, hnew]
      rw [Disk.bytes_create_self, hnil]
      simp only [Entry.edit]
      split <;> rfl
    · simp only [Entry.edit, Ne.symm hij, false_and, if_false]
      exact Disk.bytes_create_of_ne _ hij _ _
  | @wrote who fd given n f hf =>
    rw [Disk.bytes_writeAt hf, Entry.edit, Found.place_inode]
    by_cases hi : f.open_.inode = i
    · rw [if_pos hi, if_pos hi]
      rfl
    · rw [if_neg hi, if_neg hi]
      rfl
  | _ => rfl

/-- The log determines the contents of every inode. -/
theorem Replays.bytes (h : Replays (Moves umask) s₀ log s) (i : Nat) :
    s.bytes i = Tape.edited 0 (s₀.bytes i) (edits i log) := by
  induction h with
  | nil => rfl
  | @snoc log b c e _ hmoves ih =>
    have hedits : edits i (log ++ [e]) = edits i log ++ (e.edit i).toList := by
      simp only [edits, List.filterMap_append]
      cases he : e.edit i <;> simp [he]
    rw [hmoves.bytes, ih, hedits]
    exact List.foldl_append.symm

/-! ## Positions -/

omit [DecidableEq π] in
/-- Where an entry leaves a description. -/
def Entry.turn (t : Nat) : Entry π → Option Nat
  | .opened _ _ _ place _ => if place.file = t then some 0 else none
  | .sought _ _ _ _ pos place => if place.file = t then some pos.toNat else none
  | .got _ _ _ bytes place => if place.file = t then some (place.pos + bytes.length) else none
  | .wrote _ _ given n place =>
    if place.file = t ∧ given.take n ≠ [] then some (place.pos + (given.take n).length) else none
  | _ => none

omit [DecidableEq π] in
/-- Where the last of the entries that moved a description left it. -/
def position (t start : Nat) (log : List (Entry π)) : Nat :=
  ((log.filterMap (Entry.turn t)).getLast?).getD start

/-- The offset of a description. -/
def Disk.offset {F M : Type} (k : Disk π F M) (t : Nat) : Nat :=
  ((k.files t).map OpenFile.offset).getD 0

omit [DecidableEq π] in
theorem Disk.offset_seek {F M : Type} {k : Disk π F M} {t t' pos : Nat} {f : OpenFile F}
    (h : k.files t' = some f) :
    (k.seek t' pos).offset t = if t' = t then pos else k.offset t := by
  unfold offset seek
  split
  · rename_i ht
    subst ht
    simp [h]
  · rename_i ht
    simp [Function.update_of_ne (Ne.symm ht)]

theorem Disk.offset_attach {F M : Type} (k : Disk π F M) (who : π) (fd : Int) (t' i : Nat)
    (flags : F) (t : Nat) :
    (k.attach who fd t' i flags).offset t = if t' = t then 0 else k.offset t := by
  unfold offset attach refer
  split
  · rename_i ht
    subst ht
    simp
  · rename_i ht
    simp [Function.update_of_ne (Ne.symm ht)]

theorem Moves.offset (h : Moves umask s e s') (t : Nat) :
    s'.offset t = (e.turn t).getD (s.offset t) := by
  cases h with
  | found =>
    rw [Disk.offset_attach, Entry.turn]
    split
    · rfl
    · split <;> rfl
  | made =>
    rw [Disk.offset_attach, Entry.turn]
    split <;> rfl
  | sought hf =>
    rw [Disk.offset_seek (Disk.bytes_of_find hf).2.1, Entry.turn, Found.place]
    split <;> rfl
  | got hf =>
    rw [Disk.offset_seek (Disk.bytes_of_find hf).2.1, Entry.turn, Found.place]
    split <;> rfl
  | @wrote who fd given n f hf =>
    rw [Entry.turn, Disk.writeAt, Found.place]
    by_cases hnil : given.take n = []
    · simp [hnil]
    · rw [if_neg hnil]
      -- The contents change as well, but not the descriptions.
      have hfiles : (s.setData f.open_.inode (Tape.splice 0 f.inode.data
          (f.start f.open_.flags.appends) (given.take n))).files f.file = some f.open_ :=
        (Disk.bytes_of_find hf).2.1
      rw [Disk.offset_seek hfiles]
      by_cases ht : f.file = t
      · simp [ht, hnil]
      · simp only [ht, false_and, if_false]
        rfl
  | _ => rfl

/-- The log determines where every description stands. -/
theorem Replays.offset (h : Replays (Moves umask) s₀ log s) (t : Nat) :
    s.offset t = position t (s₀.offset t) log := by
  induction h with
  | nil => rfl
  | @snoc log b c e _ hmoves ih =>
    rw [hmoves.offset, ih]
    unfold position
    rw [List.filterMap_append]
    cases he : e.turn t <;> simp [he]

/-! ## Reads -/

/-- Every read starts where the last entry left its description, and each of its bytes is
what the last edit of the file put there. -/
def SeesLast (disk : RawDisk π) (log : List (Entry π)) : Prop :=
  ∀ j who fd capacity bytes place, log[j]? = some (.got who fd capacity bytes place) →
    place.pos = position place.file (Disk.offset disk place.file) (log.take j) ∧
    ∀ n b, bytes[n]? = some b →
      Tape.Source 0 (Disk.bytes disk place.inode) (edits place.inode (log.take j))
        (place.pos + n) (some b)

omit [DecidableEq π] in
theorem RawDisk.offset_abs (k : RawDisk π) (t : Nat) : k.abs.offset t = Disk.offset k t := by
  simp only [Disk.offset, RawDisk.abs, Disk.map, Function.comp_apply]
  cases k.files t <;> rfl

theorem Replays.seesLast {disk : RawDisk π} (h : Replays (Moves umask) disk.abs log s) :
    SeesLast disk log := by
  intro j who fd capacity bytes place hj
  obtain ⟨c, d, hreplay, hmoves⟩ := h.entry hj
  cases hmoves with
  | @got _ _ _ _ f hf hreads hprefix hempty =>
    obtain ⟨-, hfile, hbytes⟩ := Disk.bytes_of_find hf
    have hoffset : f.open_.offset = c.offset f.file := by simp [Disk.offset, hfile]
    refine ⟨?_, fun n b hn => ?_⟩
    · rw [← RawDisk.offset_abs, ← Replays.offset hreplay]
      exact hoffset
    · have hcell : (c.bytes f.open_.inode)[f.open_.offset + n]? = some b := by
        have hahead : (f.ahead capacity)[n]? = some b := by
          obtain ⟨rest, hrest⟩ := hprefix
          rw [← hrest, List.getElem?_append_left (List.getElem?_eq_some_iff.mp hn).1]
          exact hn
        rw [Found.ahead, List.getElem?_take] at hahead
        split at hahead
        · rw [hbytes, ← List.getElem?_drop]
          exact hahead
        · cases hahead
      rw [Replays.bytes hreplay, RawDisk.bytes_abs] at hcell
      have hsource := Tape.source 0 (Disk.bytes disk f.open_.inode)
        (edits f.open_.inode (log.take j)) (f.open_.offset + n)
      rw [hcell] at hsource
      exact hsource

/-- In every run, reads see the last writes. -/
theorem reads_see_last_write (umask : π → Word) (disk : RawDisk π) (mem : π → Ptr → UInt8)
    (errno : π → Errno) (as : List (Action π)) :
    Machine.Always (step umask) (fun s => SeesLast disk s.log) (State.init disk mem errno) as :=
  (replays_always umask disk mem errno as).mono fun _ h => Replays.seesLast h

end

end Files
