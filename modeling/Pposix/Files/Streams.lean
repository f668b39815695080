-- SUMMARY: What programs rely on when they share files: appended data is kept, reads share a file out, and new files get their rights.
import Pposix.Files.History

/-!
# Sharing files

Writers that all append lose nothing, and the file is what they wrote in the order of
their calls. Readers that share one description get consecutive parts of the file. A file
that an opening made has the rights that its permission asks for, less the mask.
-/

namespace Files

variable {π : Type} [DecidableEq π]

variable {umask : π → Set (FileClass × Right)} {s₀ s s' : Store π} {e : Entry π}
  {log : List (Entry π)}

/-! ## Appending -/

omit [DecidableEq π] in
/-- An opening of the file that may write asks to append, and no opening empties it. -/
def Entry.Appends (i : Nat) : Entry π → Prop
  | .opened _ o _ place _ =>
    place.inode = i → ¬ o.Truncates ∧ (o.stream.writes = true → o.stream.appends = true)
  | _ => True

omit [DecidableEq π] in
/-- The bytes that an entry wrote to the file. -/
def Entry.writtenTo (i : Nat) : Entry π → List UInt8
  | .wrote _ _ given n place => if place.inode = i then given.take n else []
  | _ => []

omit [DecidableEq π] in
/-- All descriptions of the file that may write append. -/
def Disk.OnlyAppends {M : Type} (k : Disk π Access M) (i : Nat) : Prop :=
  ∀ t f, k.files t = some f → f.inode = i → f.flags.writes = true → f.flags.appends = true

theorem Disk.OnlyAppends.attach {M : Type} {k : Disk π Access M} {i j t : Nat} {who : π} {fd : Int}
    {access : Access} (h : k.OnlyAppends i)
    (haccess : j = i → access.writes = true → access.appends = true) :
    (k.attach who fd t j access).OnlyAppends i := by
  intro t' f hf hi hwrites
  by_cases ht : t' = t
  · subst ht
    simp only [Disk.attach, Disk.refer, Function.update_self, Option.some.injEq] at hf
    subst hf
    exact haccess hi hwrites
  · simp only [Disk.attach, Disk.refer, Function.update_of_ne ht] at hf
    exact h t' f hf hi hwrites

omit [DecidableEq π] in
theorem Disk.OnlyAppends.seek {M : Type} {k : Disk π Access M} {i t pos : Nat}
    (h : k.OnlyAppends i) : (k.seek t pos).OnlyAppends i := by
  intro t' f hf hi hwrites
  by_cases ht : t' = t
  · subst ht
    simp only [Disk.seek, Function.update_self, Option.map_eq_some_iff] at hf
    obtain ⟨g, hg, rfl⟩ := hf
    exact h t' g hg hi hwrites
  · simp only [Disk.seek, Function.update_of_ne ht] at hf
    exact h t' f hf hi hwrites

theorem Moves.onlyAppends {i : Nat} (h : Moves umask s e s') (he : e.Appends i)
    (hs : s.OnlyAppends i) : s'.OnlyAppends i := by
  cases h with
  | @found who o fd t j =>
    apply Disk.OnlyAppends.attach
    · split <;> exact hs
    · exact fun hj => (he hj).2
  | @made who o fd t j permission =>
    apply Disk.OnlyAppends.attach
    · exact hs
    · exact fun hj => (he hj).2
  | sought => exact hs.seek
  | got => exact hs.seek
  | wrote =>
    unfold Disk.writeAt
    split
    · exact hs
    · apply Disk.OnlyAppends.seek
      exact hs
  | _ => exact hs

/-- Where all writers append, an entry adds what it wrote at the end. -/
theorem Moves.bytes_of_appends {i : Nat} (h : Moves umask s e s') (he : e.Appends i)
    (hs : s.OnlyAppends i) : s'.bytes i = s.bytes i ++ e.writtenTo i := by
  rw [h.bytes]
  cases h with
  | @found who o fd t j | @made who o fd t j =>
    have hkept : ¬ (j = i ∧ o.Truncates) := fun hboth => (he hboth.1).1 hboth.2
    simp only [Entry.edit, if_neg hkept, Entry.writtenTo, List.append_nil]
    rfl
  | @wrote who fd given n f hf hwrites =>
    obtain ⟨-, hfile, hbytes⟩ := Disk.bytes_of_find hf
    rw [Entry.edit, Entry.writtenTo, Found.place_inode, Found.place_pos]
    by_cases hi : f.open_.inode = i
    · subst hi
      have hstart : f.start f.open_.flags.appends = f.inode.data.length :=
        if_pos (hs _ _ hfile rfl hwrites)
      rw [if_pos rfl, if_pos rfl, hbytes, hstart]
      change (Tape.Edit.put _ (given.take n)).apply 0 f.inode.data = _
      rw [Tape.Edit.apply]
      split
      · rename_i hnil
        rw [hnil, List.append_nil]
      · exact Tape.splice_end ..
    · rw [if_neg hi, if_neg hi, List.append_nil]
      rfl
  | _ => exact (List.append_nil _).symm

theorem Replays.bytes_of_appends {i : Nat} (h : Replays (Moves umask) s₀ log s)
    (hs₀ : s₀.OnlyAppends i) (hlog : ∀ e ∈ log, e.Appends i) :
    s.OnlyAppends i ∧ s.bytes i = s₀.bytes i ++ log.flatMap (Entry.writtenTo i) := by
  induction h with
  | nil => exact ⟨hs₀, by simp⟩
  | @snoc log b c e _ hmoves ih =>
    obtain ⟨honly, hbytes⟩ := ih fun e he => hlog e (List.mem_append_left _ he)
    have he : e.Appends i := hlog e (List.mem_append_right _ (List.mem_singleton_self _))
    refine ⟨hmoves.onlyAppends he honly, ?_⟩
    rw [hmoves.bytes_of_appends he honly, hbytes, List.flatMap_append, List.append_assoc,
      List.flatMap_singleton]

/-- What is expected of a file that all its writers append to. -/
def AppendsKept (disk : RawDisk π) (i : Nat) (s : State π) : Prop :=
  disk.abs.OnlyAppends i → (∀ e ∈ s.log, e.Appends i) →
    Disk.bytes s.disk i = Disk.bytes disk i ++ s.log.flatMap (Entry.writtenTo i)

/-- In every run where all openings for writing a file ask to append, nothing that was
written is lost: the file is its old contents and then what the calls report as written,
in the order of the calls. -/
theorem appends_lose_nothing (umask : π → Word) (disk : RawDisk π) (mem : π → Ptr → UInt8)
    (errno : π → Errno) (i : Nat) (as : List (Action π)) :
    Machine.Always (step umask) (AppendsKept disk i) (State.init disk mem errno) as := by
  apply (replays_always umask disk mem errno as).mono
  intro s h hdisk hlog
  have hbytes := (Replays.bytes_of_appends h hdisk hlog).2
  rwa [RawDisk.bytes_abs, RawDisk.bytes_abs] at hbytes

/-! ## Reading in turn -/

omit [DecidableEq π] in
/-- The bytes that a read through the description gave. -/
def Entry.readFrom (t : Nat) : Entry π → List UInt8
  | .got _ _ _ bytes place => if place.file = t then bytes else []
  | _ => []

omit [DecidableEq π] in
/-- A read through the description had room and gave nothing. -/
def Entry.AtEnd (t : Nat) : Entry π → Prop
  | .got _ _ capacity bytes place => place.file = t ∧ 0 < capacity ∧ bytes = []
  | _ => False

omit [DecidableEq π] in
/-- The entry does not position the description, and does not change the file. -/
def Entry.Undisturbed (t i : Nat) : Entry π → Prop
  | .opened _ o _ place _ => place.inode = i → ¬ o.Truncates
  | .sought _ _ _ _ _ place => place.file ≠ t
  | .wrote _ _ given n place => place.inode = i → given.take n = []
  | _ => True

variable {t : Nat} {f : OpenFile Access}

theorem Moves.bytes_of_undisturbed {i : Nat} (h : Moves umask s e s') (he : e.Undisturbed t i) :
    s'.bytes i = s.bytes i := by
  rw [h.bytes]
  cases e with
  | opened who o fd place made =>
    have hkept : ¬ (place.inode = i ∧ o.Truncates) := fun hboth => he hboth.1 hboth.2
    rw [Entry.edit, if_neg hkept]
    rfl
  | wrote who fd given n place =>
    rw [Entry.edit]
    split
    · rename_i hi
      rw [he hi]
      rfl
    · rfl
  | _ => rfl

omit [DecidableEq π] in
theorem Disk.files_seek {F M : Type} {k : Disk π F M} {t t' pos : Nat} {f : OpenFile F}
    (h : k.files t = some f) :
    (k.seek t' pos).files t = some (if t' = t then ⟨f.inode, pos, f.flags⟩ else f) := by
  by_cases ht : t' = t
  · subst ht
    simp [seek, h]
  · have hkept : (k.seek t' pos).files t = k.files t := Function.update_of_ne (Ne.symm ht) ..
    rw [hkept, h, if_neg ht]

theorem Disk.files_attach {F M : Type} {k : Disk π F M} {t t' i : Nat} {who : π} {fd : Int}
    {flags : F} {f : OpenFile F} (h : k.files t = some f) (hfree : k.files t' = none) :
    (k.attach who fd t' i flags).files t = some f := by
  have hne : t ≠ t' := by
    rintro rfl
    rw [hfree] at h
    cases h
  simp [attach, refer, Function.update_of_ne hne, h]

/-- A description that nobody positions moves on by what is read through it. -/
theorem Moves.files_of_undisturbed (h : Moves umask s e s') (hf : s.files t = some f)
    (he : e.Undisturbed t f.inode) :
    s'.files t = some ⟨f.inode, f.offset + (e.readFrom t).length, f.flags⟩ := by
  cases h with
  | found _ hfree =>
    apply Disk.files_attach
    · split <;> exact hf
    · split <;> exact hfree
  | made _ hfree => exact Disk.files_attach hf hfree
  | sought =>
    rw [Disk.files_seek hf]
    exact congrArg some (if_neg he)
  | @got who fd capacity bytes g hg =>
    obtain ⟨-, hfile, -⟩ := Disk.bytes_of_find hg
    rw [Disk.files_seek hf, Entry.readFrom, Found.place_file]
    by_cases ht : g.file = t
    · subst ht
      cases hf.symm.trans hfile
      rw [if_pos rfl, if_pos rfl]
    · rw [if_neg ht, if_neg ht]
      rfl
  | @wrote who fd given n g hg =>
    obtain ⟨-, hfile, -⟩ := Disk.bytes_of_find hg
    unfold Disk.writeAt
    split
    · exact hf
    · rename_i hne
      have ht : g.file ≠ t := by
        rintro rfl
        cases hf.symm.trans hfile
        exact hne (he rfl)
      have hkept : (s.setData g.open_.inode (Tape.splice 0 g.inode.data
          (g.start g.open_.flags.appends) (given.take n))).files t = some f := hf
      rw [Disk.files_seek hkept, if_neg ht]
      rfl
  | _ => exact hf

/-- What an entry read through the description lies ahead of it. -/
theorem Moves.readFrom_prefix (h : Moves umask s e s') (hf : s.files t = some f) :
    e.readFrom t <+: (s.bytes f.inode).drop f.offset ∧
      (e.AtEnd t → (s.bytes f.inode).drop f.offset = []) := by
  cases h with
  | @got who fd capacity bytes g hg hreads hprefix hempty =>
    obtain ⟨-, hfile, hbytes⟩ := Disk.bytes_of_find hg
    rw [Entry.readFrom, Found.place_file]
    constructor
    · split
      · rename_i ht
        subst ht
        cases hf.symm.trans hfile
        rw [hbytes]
        exact hprefix.trans (List.take_prefix _ _)
      · exact List.nil_prefix
    · rintro ⟨ht, hcapacity, hnil⟩
      obtain rfl : g.file = t := ht
      cases hf.symm.trans hfile
      rw [hbytes]
      have hahead : (g.inode.data.drop g.open_.offset).take capacity = [] := hempty hnil
      rcases List.take_eq_nil_iff.mp hahead with hzero | hdrop
      · omega
      · exact hdrop
  | _ => exact ⟨List.nil_prefix, False.elim⟩

/-- What was read through the description, and whether the end was met. -/
structure ReadInTurn (s₀ s : Store π) (t : Nat) (f : OpenFile Access) (log : List (Entry π)) :
    Prop where
  stands : s.files t = some ⟨f.inode, f.offset + (log.flatMap (Entry.readFrom t)).length, f.flags⟩
  same : s.bytes f.inode = s₀.bytes f.inode
  first : log.flatMap (Entry.readFrom t) <+: (s₀.bytes f.inode).drop f.offset
  all : ∀ e ∈ log, e.AtEnd t → log.flatMap (Entry.readFrom t) = (s₀.bytes f.inode).drop f.offset

theorem Replays.readInTurn (h : Replays (Moves umask) s₀ log s) (hf : s₀.files t = some f)
    (hlog : ∀ e ∈ log, e.Undisturbed t f.inode) : ReadInTurn s₀ s t f log := by
  induction h with
  | nil => exact ⟨by simpa using hf, rfl, List.nil_prefix, by simp⟩
  | @snoc log b c e _ hmoves ih =>
    obtain ⟨hstands, hsame, hfirst, hall⟩ := ih fun e he => hlog e (List.mem_append_left _ he)
    have he : e.Undisturbed t f.inode :=
      hlog e (List.mem_append_right _ (List.mem_singleton_self _))
    obtain ⟨hahead, hend⟩ := hmoves.readFrom_prefix hstands
    rw [hsame] at hahead hend
    -- What lies ahead is what is left of the file after all that was read.
    obtain ⟨rest, hrest⟩ := hfirst
    have hdrop : (s₀.bytes f.inode).drop
        (f.offset + (log.flatMap (Entry.readFrom t)).length) = rest := by
      rw [← List.drop_drop, ← hrest, List.drop_left]
    rw [hdrop] at hahead hend
    have hboth : (log ++ [e]).flatMap (Entry.readFrom t) =
        log.flatMap (Entry.readFrom t) ++ e.readFrom t := by
      rw [List.flatMap_append, List.flatMap_singleton]
    refine ⟨?_, ?_, ?_, ?_⟩
    · rw [hmoves.files_of_undisturbed hstands he, hboth, List.length_append, Nat.add_assoc]
    · rw [hmoves.bytes_of_undisturbed he, hsame]
    · rw [hboth, ← hrest]
      exact (List.prefix_append_right_inj _).mpr hahead
    · intro x hx hxend
      rw [hboth, ← hrest]
      rcases List.mem_append.mp hx with hold | hnew
      · have hnil : rest = [] := by
          have hread := hall x hold hxend
          rw [← hrest] at hread
          exact List.self_eq_append_right.mp hread
        subst hnil
        rw [List.prefix_nil.mp hahead]
      · rw [List.mem_singleton.mp hnew] at hxend
        rw [hend hxend] at hahead ⊢
        rw [List.prefix_nil.mp hahead]

/-- What is expected of the readers of a description. -/
def SharedOut (disk : RawDisk π) (log : List (Entry π)) : Prop :=
  ∀ t f, disk.files t = some f → (∀ e ∈ log, e.Undisturbed t f.inode) →
    log.flatMap (Entry.readFrom t) <+: (Disk.bytes disk f.inode).drop f.offset ∧
    ∀ e ∈ log, e.AtEnd t →
      log.flatMap (Entry.readFrom t) = (Disk.bytes disk f.inode).drop f.offset

/-- In every run the reads through one description, by whatever processes and descriptors,
share the file out: as long as nobody positions it or changes the file, they give
consecutive parts, nothing twice and nothing left out, and a read that gives nothing says
that all of the file was read. -/
theorem reads_share_out (umask : π → Word) (disk : RawDisk π) (mem : π → Ptr → UInt8)
    (errno : π → Errno) (as : List (Action π)) :
    Machine.Always (step umask) (fun s => SharedOut disk s.log) (State.init disk mem errno) as := by
  apply (replays_always umask disk mem errno as).mono
  intro s h t f hf hlog
  have hfabs : disk.abs.files t = some ⟨f.inode, f.offset, Flags.access f.flags⟩ := by
    simp [RawDisk.abs, Disk.map, hf]
  have hturn := Replays.readInTurn h hfabs hlog
  have hbytes := RawDisk.bytes_abs disk f.inode
  exact ⟨hbytes ▸ hturn.first, fun e he hend => hbytes ▸ hturn.all e he hend⟩

/-! ## New files -/

omit [DecidableEq π] in
/-- The entry made the inode, with the rights that its permission asks for and the mask of
its process leaves. -/
def Entry.Makes (umask : π → Set (FileClass × Right)) (i : Nat) (mode : Set (FileClass × Right)) :
    Entry π → Prop
  | .opened who o _ place made => made = true ∧ place.inode = i ∧
      ∃ permission, o.permission = some permission ∧
        mode = Permission.layout.denote permission \ umask who
  | _ => False

/-- The rights of an inode, if there is one. -/
def Disk.rights {M : Type} (k : Disk π Access M) (i : Nat) : Option M := (k.inodes i).map Inode.mode

omit [DecidableEq π] in
theorem Disk.rights_setData {M : Type} (k : Disk π Access M) (j : Nat) (data : List UInt8)
    (i : Nat) : (k.setData j data).rights i = k.rights i := by
  by_cases hi : i = j
  · subst hi
    simp only [rights, setData, Function.update_self]
    cases k.inodes i <;> rfl
  · simp only [rights, setData, Function.update_of_ne hi]

omit [DecidableEq π] in
theorem Disk.rights_create {M : Type} (k : Disk π Access M) (path : String) (j : Nat) (mode : M)
    (i : Nat) : (k.create path j mode).rights i = if i = j then some mode else k.rights i := by
  by_cases hi : i = j
  · subst hi
    simp [rights, create]
  · simp [rights, create, hi]

/-- An entry leaves the rights of an inode, or makes it. -/
theorem Moves.rights (h : Moves umask s e s') (i : Nat) :
    (s'.rights i = s.rights i ∧ ∀ mode, ¬ e.Makes umask i mode) ∨
      (s.rights i = none ∧ ∃ mode, s'.rights i = some mode ∧ e.Makes umask i mode) := by
  have hkept : ∀ {mode : Set (FileClass × Right)} {who o fd place},
      ¬ (Entry.opened who o fd place false : Entry π).Makes umask i mode :=
    fun hmakes => Bool.false_ne_true hmakes.1
  cases h with
  | @found who o fd t j =>
    refine .inl ⟨?_, fun _ => hkept⟩
    change (if o.Truncates then s.setData j [] else s).rights i = s.rights i
    split
    · exact Disk.rights_setData ..
    · rfl
  | @made who o fd t j permission _ _ _ _ hnew _ hpermission =>
    have hrights := Disk.rights_create s o.path j (Permission.layout.denote permission \ umask who) i
    by_cases hi : i = j
    · subst hi
      rw [if_pos rfl] at hrights
      refine .inr ⟨?_, _, hrights, rfl, rfl, permission, hpermission, rfl⟩
      rw [Disk.rights, hnew, Option.map_none]
    · rw [if_neg hi] at hrights
      exact .inl ⟨hrights, fun _ hmakes => hi hmakes.2.1.symm⟩
  | @wrote who fd given n f =>
    refine .inl ⟨?_, fun _ => id⟩
    unfold Disk.writeAt
    split
    · rfl
    · exact Disk.rights_setData ..
  | _ => exact .inl ⟨rfl, fun _ => id⟩

/-- How an inode came to its rights: they are those that it had at the start and no entry
made it, or there was no such inode and one entry made it, with these rights. -/
inductive RightsOf (umask : π → Set (FileClass × Right)) (i : Nat) (log : List (Entry π))
    (old new : Option (Set (FileClass × Right))) : Prop where
  | kept : new = old → (∀ e ∈ log, ∀ mode, ¬ e.Makes umask i mode) → RightsOf umask i log old new
  | made {before after : List (Entry π)} {e : Entry π} {mode : Set (FileClass × Right)} :
      old = none → new = some mode → log = before ++ e :: after → e.Makes umask i mode →
      (∀ x ∈ before ++ after, ∀ mode', ¬ x.Makes umask i mode') → RightsOf umask i log old new

theorem Replays.rights (h : Replays (Moves umask) s₀ log s) (i : Nat) :
    RightsOf umask i log (s₀.rights i) (s.rights i) := by
  induction h with
  | nil => exact .kept rfl (by simp)
  | @snoc log b c e _ hmoves ih =>
    rcases hmoves.rights i with ⟨hsame, hnot⟩ | ⟨hnone, mode, hmode, hmakes⟩
    · cases ih with
      | kept hold hlog =>
        apply RightsOf.kept (hsame.trans hold)
        intro x hx
        rcases List.mem_append.mp hx with hx | hx
        · exact hlog x hx
        · exact List.mem_singleton.mp hx ▸ hnot
      | @made before after e' mode hold hnew hlog hmakes hothers =>
        have hsplit : log ++ [e] = before ++ e' :: (after ++ [e]) := by simp [hlog]
        refine .made hold (hsame.trans hnew) hsplit hmakes ?_
        intro x hx
        rw [← List.append_assoc] at hx
        rcases List.mem_append.mp hx with hx | hx
        · exact hothers x hx
        · exact List.mem_singleton.mp hx ▸ hnot
    · cases ih with
      | kept hold hlog =>
        have hsplit : log ++ [e] = log ++ e :: [] := rfl
        exact .made (hold.symm.trans hnone) hmode hsplit hmakes (by simpa using hlog)
      | made _ hnew =>
        rw [hnone] at hnew
        cases hnew

/-- What the mode of an inode of the kernel's disk denotes. -/
def RawDisk.rights (k : RawDisk π) (i : Nat) : Option (Set (FileClass × Right)) :=
  (k.inodes i).map fun x => Permission.layout.denote x.mode

omit [DecidableEq π] in
theorem RawDisk.rights_abs (k : RawDisk π) (i : Nat) : k.abs.rights i = k.rights i := by
  simp only [Disk.rights, RawDisk.rights, RawDisk.abs, Disk.map, Function.comp_apply,
    Option.map_map]
  rfl

/-- A file that was there keeps its rights, and one that was made has those that the one
opening that made it asked for, less the mask. -/
def RightsGiven (umask : π → Word) (disk : RawDisk π) (s : State π) : Prop :=
  ∀ i, RightsOf (masked umask) i s.log (disk.rights i) (RawDisk.rights s.disk i)

/-- In every run a new file has the rights that the permission of its opening denotes, and
no others, whatever openings, writes and errors follow. Three literals in one permission
denote the rights of their three strings. -/
theorem new_files_get_rights (umask : π → Word) (disk : RawDisk π) (mem : π → Ptr → UInt8)
    (errno : π → Errno) (as : List (Action π)) :
    Machine.Always (step umask) (RightsGiven umask disk) (State.init disk mem errno) as ∧
      ∀ str : FileClass → List CChar,
        Permission.layout.denote (Permission.combined str) = {x | x.2 ∈ rights (str x.1)} := by
  refine ⟨?_, Permission.denote_combined⟩
  apply (replays_always umask disk mem errno as).mono
  intro s h i
  rw [← RawDisk.rights_abs, ← RawDisk.rights_abs]
  exact Replays.rights h i

end Files
