-- SUMMARY: Sequences that are written at a position, with a fill where the position lies past the end.
import Mathlib.Data.List.Induction

/-!
# Tapes

A tape is a list. A list of cells written at a position replaces what lies there and may
make the tape longer. A position past the end leaves a hole, which is filled. After any
edits a cell holds what was put there last.
-/

namespace Tape

variable {β : Type}

/-- The tape with `bs` from the position `pos` on. -/
def splice (fill : β) (tape : List β) (pos : Nat) (bs : List β) : List β :=
  (tape ++ List.replicate (pos - tape.length) fill).take pos ++ bs ++ tape.drop (pos + bs.length)

variable {fill : β} {tape bs : List β} {pos i : Nat}

/-- The first part of a splice ends at the position. -/
theorem length_front (fill : β) (tape : List β) (pos : Nat) :
    ((tape ++ List.replicate (pos - tape.length) fill).take pos).length = pos := by
  rw [List.length_take, List.length_append, List.length_replicate]
  omega

/-- At the end a splice appends. -/
theorem splice_end (fill : β) (tape bs : List β) :
    splice fill tape tape.length bs = tape ++ bs := by
  have hnone : tape.drop (tape.length + bs.length) = [] := List.drop_eq_nil_of_le (by omega)
  rw [splice, hnone, Nat.sub_self, List.replicate_zero, List.append_nil, List.append_nil,
    List.take_length]

/-- What was written is there. -/
theorem splice_inside (hi : pos ≤ i) (hlt : i < pos + bs.length) :
    (splice fill tape pos bs)[i]? = bs[i - pos]? := by
  have hfront := length_front fill tape pos
  rw [splice, List.append_assoc, List.getElem?_append_right (by omega), hfront,
    List.getElem?_append_left (by omega)]

/-- Behind it the tape is as it was. -/
theorem splice_after (hi : pos + bs.length ≤ i) :
    (splice fill tape pos bs)[i]? = tape[i]? := by
  have hfront := length_front fill tape pos
  rw [splice, List.append_assoc, List.getElem?_append_right (by omega), hfront,
    List.getElem?_append_right (by omega), List.getElem?_drop]
  congr 1
  omega

/-- Before it the tape is as it was, or a hole. -/
theorem splice_before (hi : i < pos) :
    (splice fill tape pos bs)[i]? = some (tape[i]?.getD fill) := by
  have hfront := length_front fill tape pos
  rw [splice, List.append_assoc, List.getElem?_append_left (by omega), List.getElem?_take,
    if_pos hi]
  rcases Nat.lt_or_ge i tape.length with hlt | hge
  · rw [List.getElem?_append_left hlt, List.getElem?_eq_getElem hlt]
    rfl
  · rw [List.getElem?_append_right hge, List.getElem?_replicate, if_pos (by omega),
      List.getElem?_eq_none hge]
    rfl

/-! ## Edits -/

inductive Edit (β : Type) where
  | put (pos : Nat) (bs : List β)
  | clear

/-- To put nothing does nothing, wherever it is put. -/
def Edit.apply (fill : β) (tape : List β) : Edit β → List β
  | .put pos bs => if bs = [] then tape else splice fill tape pos bs
  | .clear => []

def edited (fill : β) (tape : List β) (edits : List (Edit β)) : List β :=
  edits.foldl (Edit.apply fill) tape

/-- What the edit puts into a cell. -/
def Edit.cell? (i : Nat) : Edit β → Option β
  | .put pos bs => if pos ≤ i then bs[i - pos]? else none
  | .clear => none

/-- The edit leaves the cell as it is. -/
def Edit.Spares (i : Nat) (e : Edit β) : Prop := e.cell? i = none ∧ e ≠ .clear

/-- The last edit that did not spare the cell put `b` there. -/
def LastPut (edits : List (Edit β)) (i : Nat) (b : β) : Prop :=
  ∃ before e after, edits = before ++ e :: after ∧ e.cell? i = some b ∧ ∀ x ∈ after, x.Spares i

/-- Nothing was put into the cell since the tape was cleared, or at all when the tape ended
before it. -/
def Blank (tape : List β) (edits : List (Edit β)) (i : Nat) : Prop :=
  (tape[i]? = none ∧ ∀ x ∈ edits, x.cell? i = none) ∨
    ∃ before after, edits = before ++ .clear :: after ∧ ∀ x ∈ after, x.cell? i = none

/-- Where the content of a cell comes from. -/
inductive Source (fill : β) (tape : List β) (edits : List (Edit β)) (i : Nat) :
    Option β → Prop where
  | put {b : β} : LastPut edits i b → Source fill tape edits i (some b)
  | old {b : β} : tape[i]? = some b → (∀ x ∈ edits, x.Spares i) → Source fill tape edits i (some b)
  | hole : Blank tape edits i → Source fill tape edits i (some fill)
  | beyond : Blank tape edits i → Source fill tape edits i none

variable {edits : List (Edit β)} {e : Edit β} {b : β}

theorem forall_mem_snoc {P : Edit β → Prop} (h : ∀ x ∈ edits, P x) (he : P e) :
    ∀ x ∈ edits ++ [e], P x := by
  intro x hx
  rcases List.mem_append.mp hx with hold | hnew
  · exact h x hold
  · rw [List.mem_singleton.mp hnew]
    exact he

theorem Blank.snoc (h : Blank tape edits i) (he : e.cell? i = none) :
    Blank tape (edits ++ [e]) i := by
  rcases h with ⟨htape, hedits⟩ | ⟨before, after, rfl, hafter⟩
  · exact .inl ⟨htape, forall_mem_snoc hedits he⟩
  · exact .inr ⟨before, after ++ [e], by simp, forall_mem_snoc hafter he⟩

theorem LastPut.snoc (h : LastPut edits i b) (he : e.Spares i) : LastPut (edits ++ [e]) i b := by
  obtain ⟨before, x, after, rfl, hx, hafter⟩ := h
  exact ⟨before, x, after ++ [e], by simp, hx, forall_mem_snoc hafter he⟩

/-- An edit that spares the cell keeps what is there, or makes a hole of nothing. -/
theorem apply_of_spares (fill : β) (tape : List β) (he : e.Spares i) :
    (e.apply fill tape)[i]? = tape[i]? ∨
      (tape[i]? = none ∧ (e.apply fill tape)[i]? = some fill) := by
  cases e with
  | clear => exact absurd rfl he.2
  | put pos bs =>
    by_cases hbs : bs = []
    · rw [Edit.apply, if_pos hbs]
      exact .inl rfl
    · rw [Edit.apply, if_neg hbs]
      rcases Nat.lt_or_ge i pos with hlt | hge
      · rw [splice_before hlt]
        cases tape[i]? with
        | none => exact .inr ⟨rfl, rfl⟩
        | some b => exact .inl rfl
      · have hnone : bs[i - pos]? = none := by
          have hcell := he.1
          rwa [Edit.cell?, if_pos hge] at hcell
        have hlen := List.getElem?_eq_none_iff.mp hnone
        exact .inl (splice_after (by omega))

/-- What an edit puts into a cell is there after it. -/
theorem apply_of_cell (he : e.cell? i = some b) : (e.apply fill tape)[i]? = some b := by
  cases e with
  | clear => cases he
  | put pos bs =>
    simp only [Edit.cell?, Option.ite_none_right_eq_some] at he
    obtain ⟨hpos, hcell⟩ := he
    obtain ⟨hlt, -⟩ := List.getElem?_eq_some_iff.mp hcell
    have hne : bs ≠ [] := by
      rintro rfl
      cases hcell
    have hinside : i < pos + bs.length := by omega
    rw [Edit.apply, if_neg hne, splice_inside hpos hinside, hcell]

/-- After any edits every cell holds what was put there last. -/
theorem source (fill : β) (tape : List β) (edits : List (Edit β)) (i : Nat) :
    Source fill tape edits i (edited fill tape edits)[i]? := by
  induction edits using List.reverseRecOn with
  | nil =>
    unfold edited
    rw [List.foldl_nil]
    cases h : tape[i]? with
    | none => exact .beyond (.inl ⟨h, by simp⟩)
    | some b => exact .old h (by simp)
  | append_singleton edits e ih =>
    have hlast : edited fill tape (edits ++ [e]) = e.apply fill (edited fill tape edits) :=
      List.foldl_append
    rw [hlast]
    cases hcell : e.cell? i with
    | some b =>
      rw [apply_of_cell hcell]
      exact .put ⟨edits, e, [], rfl, hcell, by simp⟩
    | none =>
      by_cases hclear : e = .clear
      · subst hclear
        exact .beyond (.inr ⟨edits, [], rfl, by simp⟩)
      · -- The edit spares the cell: its source is the old one, or it is a new hole.
        have hspares : e.Spares i := ⟨hcell, hclear⟩
        generalize edited fill tape edits = now at ih ⊢
        rcases apply_of_spares fill now hspares with hkept | ⟨hnone, hfill⟩
        · rw [hkept]
          generalize now[i]? = cell at ih
          cases ih with
          | put hput => exact .put (hput.snoc hspares)
          | old htape hedits => exact .old htape (forall_mem_snoc hedits hspares)
          | hole hblank => exact .hole (hblank.snoc hcell)
          | beyond hblank => exact .beyond (hblank.snoc hcell)
        · rw [hfill]
          rw [hnone] at ih
          cases ih with
          | beyond hblank => exact .hole (hblank.snoc hcell)

end Tape
