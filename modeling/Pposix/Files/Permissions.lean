-- SUMMARY: What the permission literals mean: sets of rights for the three classes of users.
import Pposix.Base.Masks
import Pposix.Files.Stat

/-!
# Sets of rights

A string denotes a set of rights. A literal puts the rights of its string into the bits
of its class, and the classes have no bits in common.
-/

inductive Right where
  | read | write | execute
  deriving DecidableEq, Repr

/-- The letters of the right. -/
def Right.lower : Right → CChar
  | .read => 'r'.toUInt8
  | .write => 'w'.toUInt8
  | .execute => 'x'.toUInt8

def Right.upper : Right → CChar
  | .read => 'R'.toUInt8
  | .write => 'W'.toUInt8
  | .execute => 'X'.toUInt8

/-- The character stands for the right. -/
def Right.Letter (r : Right) (c : CChar) : Prop := c = r.upper ∨ c = r.lower

instance (r : Right) (c : CChar) : Decidable (r.Letter c) := inferInstanceAs (Decidable (_ ∨ _))

/-- The rights that a string asks for. -/
def rights (s : List CChar) : Set Right := {r | ∃ c ∈ s, r.Letter c}

theorem Right.Letter.unique {r r' : Right} {c : CChar} (h : r.Letter c) (h' : r'.Letter c) :
    r = r' := by
  rcases h with rfl | rfl <;> revert h' <;> cases r <;> cases r' <;> decide

/-! ## Strings with the same rights -/

/-- The ASCII letter of the other case; any other character is kept. -/
def swapCase (c : CChar) : CChar :=
  if 'a'.toUInt8 ≤ c ∧ c ≤ 'z'.toUInt8 then c - 32
  else if 'A'.toUInt8 ≤ c ∧ c ≤ 'Z'.toUInt8 then c + 32
  else c

/-- The second string is made of the first by changes that should not matter. -/
inductive Variant : List CChar → List CChar → Prop
  | perm {s t : List CChar} : s.Perm t → Variant s t
  /-- A character is repeated. -/
  | again {s : List CChar} {c : CChar} : c ∈ s → Variant s (c :: s)
  | recase (s : List CChar) (c : CChar) : Variant (c :: s) (swapCase c :: s)
  /-- A character that stands for no right is inserted. -/
  | insert (s : List CChar) {c : CChar} : (∀ r : Right, ¬ r.Letter c) → Variant s (c :: s)
  | symm {s t : List CChar} : Variant s t → Variant t s
  | trans {s t u : List CChar} : Variant s t → Variant t u → Variant s u

theorem mem_rights_cons {r : Right} {c : CChar} {s : List CChar} :
    r ∈ rights (c :: s) ↔ r.Letter c ∨ r ∈ rights s := by
  simp [rights]

theorem rights_append (s t : List CChar) : rights (s ++ t) = rights s ∪ rights t := by
  ext r
  simp [rights, or_and_right, exists_or]

theorem letter_swapCase (r : Right) (c : CChar) : r.Letter (swapCase c) ↔ r.Letter c := by
  have key : ∀ n : Fin 256, r.Letter (swapCase (UInt8.ofFin n)) ↔ r.Letter (UInt8.ofFin n) := by
    cases r <;> decide +kernel
  exact key c.toFin

theorem Variant.rights_eq {s t : List CChar} (h : Variant s t) : rights s = rights t := by
  induction h with
  | perm h =>
    ext r
    simp only [rights, Set.mem_ofPred_eq, h.mem_iff]
  | again hc =>
    ext r
    rw [mem_rights_cons, or_iff_right_of_imp]
    exact fun hletter => ⟨_, hc, hletter⟩
  | recase s c =>
    ext r
    rw [mem_rights_cons, mem_rights_cons, letter_swapCase]
  | insert s hc =>
    ext r
    rw [mem_rights_cons, or_iff_right (hc r)]
  | symm _ ih => exact ih.symm
  | trans _ _ ih₁ ih₂ => exact ih₁.trans ih₂

/-! ## Classes -/

/-- The classes of users of a file. -/
inductive FileClass where
  | user | group | other
  deriving DecidableEq, Repr

namespace FileClass

/-- The constant for one right of the class. -/
def right : FileClass → Right → Permission
  | .user, .read => Permission.userRead
  | .user, .write => Permission.userWrite
  | .user, .execute => Permission.userExecute
  | .group, .read => Permission.groupRead
  | .group, .write => Permission.groupWrite
  | .group, .execute => Permission.groupExecute
  | .other, .read => Permission.otherRead
  | .other, .write => Permission.otherWrite
  | .other, .execute => Permission.otherExecute

/-- The constant for all rights of the class. -/
def all : FileClass → Permission
  | .user => Permission.userAll
  | .group => Permission.groupAll
  | .other => Permission.otherAll

/-- The literal of the class. -/
def literal : FileClass → List CChar → Permission
  | .user => Literal.user
  | .group => Literal.group
  | .other => Literal.other

end FileClass

namespace Permission

/-- The place of a right of a class in a mask. -/
def bit : FileClass × Right → Nat
  | (.user, .read) => 8
  | (.user, .write) => 7
  | (.user, .execute) => 6
  | (.group, .read) => 5
  | (.group, .write) => 4
  | (.group, .execute) => 3
  | (.other, .read) => 2
  | (.other, .write) => 1
  | (.other, .execute) => 0

/-- The nine bits are different. -/
def layout : Layout (FileClass × Right) 32 where
  bit := bit
  bit_lt := by
    rintro ⟨c, r⟩
    cases c <;> cases r <;> decide
  bit_injective := by
    rintro ⟨c, r⟩ ⟨c', r'⟩ h
    revert h
    cases c <;> cases r <;> cases c' <;> cases r' <;> decide

theorem right_eq_single (c : FileClass) (r : Right) : c.right r = layout.single (c, r) := by
  cases c <;> cases r <;> decide

/-- The `all` constant of a class has the bits of its rights. -/
theorem all_eq (c : FileClass) : c.all = c.right .read ||| c.right .write ||| c.right .execute := by
  cases c <;> decide

theorem denote_all (c : FileClass) : layout.denote c.all = {x | x.1 = c} := by
  rw [all_eq, right_eq_single, right_eq_single, right_eq_single]
  ext ⟨c', r⟩
  simp only [Layout.denote_or, Layout.denote_single, Set.mem_union, Set.mem_singleton_iff,
    Set.mem_ofPred_eq, Prod.mk.injEq, ← and_or_left]
  cases r <;> simp

end Permission

/-! ## What a literal denotes -/

namespace FileClass

open Permission

theorem literal_eq (c : FileClass) (s : List CChar) :
    c.literal s = s.foldl (fun p ch =>
      p ||| charToPermission (c.right .read) (c.right .write) (c.right .execute) ch) 0 := by
  cases c <;> rfl

variable {c : FileClass} {ch : CChar}

theorem charToPermission_of_letter {r : Right} (h : r.Letter ch) :
    charToPermission (c.right .read) (c.right .write) (c.right .execute) ch = c.right r := by
  rcases h with rfl | rfl <;> cases r <;> cases c <;> decide

theorem charToPermission_of_other (h : ∀ r : Right, ¬ r.Letter ch) :
    charToPermission (c.right .read) (c.right .write) (c.right .execute) ch = 0 :=
  (if_neg (h .read)).trans ((if_neg (h .write)).trans (if_neg (h .execute)))

/-- A character gives the bit of the right that it stands for, and no other. -/
theorem charToPermission_spec (c : FileClass) (ch : CChar) :
    layout.Named (charToPermission (c.right .read) (c.right .write) (c.right .execute) ch) ∧
    layout.denote (charToPermission (c.right .read) (c.right .write) (c.right .execute) ch) =
      {x | x.1 = c ∧ x.2.Letter ch} := by
  by_cases hletter : ∃ r : Right, r.Letter ch
  · obtain ⟨r, hr⟩ := hletter
    have honly : ∀ r' : Right, r'.Letter ch ↔ r' = r := by
      intro r'
      constructor
      · exact fun h => h.unique hr
      · rintro rfl
        exact hr
    rw [charToPermission_of_letter hr, right_eq_single]
    refine ⟨Layout.named_single _, ?_⟩
    ext ⟨c', r'⟩
    rw [Layout.denote_single, Set.mem_singleton_iff, Prod.mk.injEq, Set.mem_ofPred_eq, honly]
  · have hnone : ∀ r : Right, ¬ r.Letter ch := not_exists.mp hletter
    rw [charToPermission_of_other hnone]
    refine ⟨Layout.named_zero, ?_⟩
    ext ⟨c', r'⟩
    rw [Layout.denote_zero, Set.mem_ofPred_eq]
    exact iff_of_false id fun h => hnone r' h.2

/-- A literal has no bits but those of its class. -/
theorem named_literal (c : FileClass) (s : List CChar) : layout.Named (c.literal s) := by
  rw [literal_eq]
  exact Layout.named_zero.foldl_or fun ch _ => (charToPermission_spec c ch).1

theorem denote_literal (c : FileClass) (s : List CChar) :
    layout.denote (c.literal s) = {x | x.1 = c ∧ x.2 ∈ rights s} := by
  rw [literal_eq, Layout.denote_foldl_or]
  ext ⟨c', r⟩
  simp only [(charToPermission_spec c _).2, Layout.denote_zero, Set.mem_union,
    Set.mem_empty_iff_false, false_or, Set.mem_ofPred_eq, rights]
  constructor
  · rintro ⟨ch, hch, rfl, hletter⟩
    exact ⟨rfl, ch, hch, hletter⟩
  · rintro ⟨rfl, ch, hch, hletter⟩
    exact ⟨ch, hch, rfl, hletter⟩

/-- The value of a literal is the rights of its string, and nothing else of it. -/
theorem literal_eq_iff (c : FileClass) (s t : List CChar) :
    c.literal s = c.literal t ↔ rights s = rights t := by
  rw [(c.named_literal s).eq_iff (c.named_literal t), denote_literal, denote_literal]
  constructor
  · intro hset
    ext r
    simpa using Set.ext_iff.mp hset (c, r)
  · intro hrights
    rw [hrights]

theorem literal_append (c : FileClass) (s t : List CChar) :
    c.literal (s ++ t) = c.literal s ||| c.literal t := by
  rw [(c.named_literal _).eq_iff ((c.named_literal s).or (c.named_literal t)), Layout.denote_or,
    denote_literal, denote_literal, denote_literal, rights_append]
  ext x
  exact and_or_left

/-- What is expected of the literal of one class. -/
structure Denotes (c : FileClass) : Prop where
  /-- The literal has the constant of a right exactly when the string has a letter of it. -/
  has_iff : ∀ s r, c.literal s &&& c.right r ≠ 0 ↔ r ∈ rights s
  /-- It has no other bits. -/
  only : ∀ s k, (c.literal s).getLsbD k = true → ∃ r ∈ rights s, (c.right r).getLsbD k = true
  variant : ∀ s t, Variant s t → c.literal s = c.literal t
  append : ∀ s t, c.literal (s ++ t) = c.literal s ||| c.literal t

theorem denotes (c : FileClass) : c.Denotes where
  has_iff s r := by
    rw [right_eq_single, Layout.and_single_ne_zero, denote_literal]
    exact and_iff_right rfl
  only s k hk := by
    -- The bit has a name, and the set of the literal tells which right it is.
    obtain ⟨⟨c', r⟩, rfl⟩ := c.named_literal s k hk
    have hmem : (c', r) ∈ layout.denote (c.literal s) := hk
    rw [denote_literal] at hmem
    obtain ⟨rfl, hr⟩ := hmem
    refine ⟨r, hr, ?_⟩
    rw [right_eq_single, Layout.getLsbD_single]
  variant s t h := (c.literal_eq_iff s t).mpr h.rights_eq
  append := c.literal_append

end FileClass

/-! ## Three literals in one mask -/

namespace Permission

variable (s t : FileClass → List CChar)

/-- `u_user | g_group | o_other`. -/
def combined : Permission :=
  Literal.user (s .user) ||| Literal.group (s .group) ||| Literal.other (s .other)

theorem named_combined : layout.Named (combined s) :=
  ((FileClass.user.named_literal _).or (FileClass.group.named_literal _)).or
    (FileClass.other.named_literal _)

theorem denote_combined : layout.denote (combined s) = {x | x.2 ∈ rights (s x.1)} := by
  have hparts : combined s = FileClass.user.literal (s .user) |||
      FileClass.group.literal (s .group) ||| FileClass.other.literal (s .other) := rfl
  rw [hparts]
  ext ⟨c, r⟩
  simp only [Layout.denote_or, FileClass.denote_literal, Set.mem_union, Set.mem_ofPred_eq]
  cases c <;> simp

/-- The mask of a class gives its literal back. -/
theorem combined_and_all (c : FileClass) : combined s &&& c.all = c.literal (s c) := by
  rw [(named_combined s).and.eq_iff (c.named_literal _), Layout.denote_and, denote_combined,
    denote_all, FileClass.denote_literal]
  ext ⟨c', r⟩
  simp only [Set.mem_inter_iff, Set.mem_ofPred_eq]
  constructor
  · rintro ⟨hr, rfl⟩
    exact ⟨rfl, hr⟩
  · rintro ⟨rfl, hr⟩
    exact ⟨hr, rfl⟩

theorem combined_eq_iff : combined s = combined t ↔ ∀ c, rights (s c) = rights (t c) := by
  rw [(named_combined s).eq_iff (named_combined t), denote_combined, denote_combined]
  constructor
  · intro hset c
    ext r
    exact Set.ext_iff.mp hset (c, r)
  · intro hrights
    ext ⟨c, r⟩
    rw [Set.mem_ofPred_eq, Set.mem_ofPred_eq, hrights]

/-- A literal is the set of rights that its string asks for, and three literals in one
mask keep the three sets. -/
theorem literals_denote_rights :
    (∀ c : FileClass, c.Denotes) ∧
      (∀ (s : FileClass → List CChar) (c : FileClass), combined s &&& c.all = c.literal (s c)) ∧
      ∀ s t : FileClass → List CChar,
        combined s = combined t ↔ ∀ c, rights (s c) = rights (t c) :=
  ⟨FileClass.denotes, combined_and_all, combined_eq_iff⟩

/-- `"rw"_user | "r"_group | "r"_other`. -/
example : combined (fun | .user => "rw".toUTF8.data.toList | _ => "r".toUTF8.data.toList) =
    0o644 := by decide

end Permission
