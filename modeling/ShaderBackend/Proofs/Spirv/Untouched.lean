import Mathlib.Data.List.Basic
import ShaderBackend.Proofs.Spirv.Removal

/-! What the edits behind the replacement of a variable leave alone. They only
change or drop entry points, decorations and access chains, and every other
instruction keeps its words and its place among the others. -/
namespace ShaderBackend.Spirv

/-- A listing and what edits make of it that change or drop only instructions
with a property. A changed instruction still has the property. -/
inductive Edited (touched : List UInt32 → Bool) : Listing → Listing → Prop where
  | nil : Edited touched [] []
  | keep (words : List UInt32) {rest rest' : Listing} :
      Edited touched rest rest' → Edited touched (words :: rest) (words :: rest')
  | change {words words' : List UInt32} {rest rest' : Listing} :
      touched words = true → touched words' = true → Edited touched rest rest' →
      Edited touched (words :: rest) (words' :: rest')
  | drop {words : List UInt32} {rest rest' : Listing} :
      touched words = true → Edited touched rest rest' → Edited touched (words :: rest) rest'

namespace Edited

variable {touched other : List UInt32 → Bool} {listing edited : Listing}

theorem refl (touched : List UInt32 → Bool) (listing : Listing) :
    Edited touched listing listing := by
  induction listing with
  | nil => exact .nil
  | cons words rest ih => exact .keep words ih

theorem trans {further : Listing} (hFirst : Edited touched listing edited)
    (hSecond : Edited touched edited further) : Edited touched listing further := by
  induction hFirst generalizing further with
  | nil => exact hSecond
  | keep words _ ih =>
      cases hSecond with
      | keep _ hRest => exact .keep words (ih hRest)
      | change hOld hNew hRest => exact .change hOld hNew (ih hRest)
      | drop hOld hRest => exact .drop hOld (ih hRest)
  | change hOld hMiddle _ ih =>
      cases hSecond with
      | keep _ hRest => exact .change hOld hMiddle (ih hRest)
      | change _ hNew hRest => exact .change hOld hNew (ih hRest)
      | drop _ hRest => exact .drop hOld (ih hRest)
  | drop hOld _ ih => exact .drop hOld (ih hSecond)

theorem mono (h : Edited touched listing edited)
    (hImp : ∀ words, touched words = true → other words = true) : Edited other listing edited := by
  induction h with
  | nil => exact .nil
  | keep words _ ih => exact .keep words ih
  | change hOld hNew _ ih => exact .change (hImp _ hOld) (hImp _ hNew) ih
  | drop hOld _ ih => exact .drop (hImp _ hOld) ih

/-- Instructions of a kind that is not edited stay the same in the same order. -/
theorem filter_eq (h : Edited touched listing edited) {kind : List UInt32 → Bool}
    (hKind : ∀ words, touched words = true → kind words = false) :
    edited.filter kind = listing.filter kind := by
  induction h with
  | nil => rfl
  | keep words _ ih => rw [List.filter_cons, List.filter_cons, ih]
  | change hOld hNew _ ih => simp [hKind _ hOld, hKind _ hNew, ih]
  | drop hOld _ ih => simp [hKind _ hOld, ih]

/-- A run of instructions that are not edited stays together. -/
theorem exists_split {before kept later : Listing}
    (h : Edited touched (before ++ kept ++ later) edited)
    (hKept : ∀ words ∈ kept, touched words = false) :
    ∃ before' later', edited = before' ++ kept ++ later' ∧ Edited touched before before' ∧
      Edited touched later later' := by
  induction before generalizing edited with
  | cons words before ih =>
      cases h with
      | keep _ hRest =>
          obtain ⟨before', later', rfl, hBefore, hLater⟩ := ih hRest
          exact ⟨words :: before', later', rfl, .keep words hBefore, hLater⟩
      | change hOld hNew hRest =>
          obtain ⟨before', later', rfl, hBefore, hLater⟩ := ih hRest
          exact ⟨_ :: before', later', rfl, .change hOld hNew hBefore, hLater⟩
      | drop hOld hRest =>
          obtain ⟨before', later', rfl, hBefore, hLater⟩ := ih hRest
          exact ⟨before', later', rfl, .drop hOld hBefore, hLater⟩
  | nil =>
      rw [List.nil_append] at h
      induction kept generalizing edited with
      | nil => exact ⟨[], edited, rfl, .nil, h⟩
      | cons words kept ih =>
          rw [List.forall_mem_cons] at hKept
          cases h with
          | keep _ hRest =>
              obtain ⟨before', later', hEdited, hBefore, hLater⟩ := ih hKept.2 hRest
              cases hBefore
              exact ⟨[], later', by simp [hEdited], .nil, hLater⟩
          | change hOld _ _ =>
              rw [hKept.1] at hOld
              cases hOld
          | drop hOld _ =>
              rw [hKept.1] at hOld
              cases hOld

end Edited

theorem opcode_withoutInterface (id : UInt32) (words : List UInt32) :
    (unplaced (withoutInterface id words)).opcode = (unplaced words).opcode := by
  by_cases hEntry : (unplaced words).is Op.entryPoint = true
  · rcases withoutInterface_cases id 0 words hEntry with ⟨-, hSame⟩ |
      ⟨opening, front, back, rfl, -, hShorter⟩
    · rw [hSame]
    · rw [hShorter]
      exact openingWord_and _ _
  · simp [withoutInterface, hEntry]

/-- Leaving out interface ids touches entry points only. -/
theorem edited_withoutInterface (id : UInt32) (listing : Listing) :
    Edited (fun words => (unplaced words).is Op.entryPoint) listing
      (listing.map (withoutInterface id)) := by
  induction listing with
  | nil => exact .nil
  | cons words rest ih =>
      by_cases hEntry : (unplaced words).is Op.entryPoint = true
      · refine .change hEntry ?_ ih
        rw [Instruction.is, opcode_withoutInterface]
        exact hEntry
      · have hSame : withoutInterface id words = words := by simp [withoutInterface, hEntry]
        rw [List.map_cons, hSame]
        exact .keep words ih

/-- Dropping a location touches decorations only. -/
theorem edited_eraseP_locates (id : UInt32) (listing : Listing) :
    Edited (fun words => (unplaced words).is Op.decorate) listing
      (listing.eraseP (locates id)) := by
  induction listing with
  | nil => exact .nil
  | cons words rest ih =>
      by_cases hLocates : locates id words = true
      · rw [List.eraseP_cons_of_pos hLocates]
        simp only [locates, Instruction.decorates, Bool.and_eq_true] at hLocates
        exact .drop hLocates.1.1 (.refl _ rest)
      · rw [List.eraseP_cons_of_neg hLocates]
        exact .keep words ih

theorem isAccessChain_set_one (words : List UInt32) (value : UInt32) :
    (unplaced (words.set 1 value)).isAccessChain = (unplaced words).isAccessChain := by
  cases words <;> rfl

/-- Giving new result types touches access chains only. -/
theorem edited_retype? {levels : List PrivateLevel} {id : UInt32} {lookup : UInt32 → Option Nat}
    {listing retyped : Listing} (h : listing.retype? levels id lookup = some retyped) :
    Edited (fun words => (unplaced words).isAccessChain) listing retyped := by
  have hChanges := retype?_forall₂ h
  clear h
  induction hChanges with
  | nil => exact .nil
  | cons hFirst _ ih =>
      rcases hFirst with rfl | ⟨hChain, pointer, rfl⟩
      · exact .keep _ ih
      · exact .change hChain ((isAccessChain_set_one _ pointer).trans hChain) ih

/-- Whether an instruction can be one that mentions a variable in an interface
or gives it a location. -/
def touchedByUnlisting (words : List UInt32) : Bool :=
  (unplaced words).is Op.entryPoint || (unplaced words).is Op.decorate

/-- Whether an edit behind the replacement can change or drop an instruction. -/
def touchedByRemoval (words : List UInt32) : Bool :=
  touchedByUnlisting words || (unplaced words).isAccessChain

theorem edited_unlisting (id : UInt32) (listing : Listing) :
    Edited touchedByUnlisting listing
      ((listing.map (withoutInterface id)).eraseP (locates id)) := by
  have hUnlisted : Edited touchedByUnlisting listing (listing.map (withoutInterface id)) :=
    (edited_withoutInterface id listing).mono (by simp +contextual [touchedByUnlisting])
  exact hUnlisted.trans
    ((edited_eraseP_locates id _).mono (by simp +contextual [touchedByUnlisting]))

/-- All edits behind the replacement of a variable together. -/
theorem edited_removal {levels : List PrivateLevel} {id : UInt32} {listing retyped : Listing}
    (h : Listing.retype? levels id (fun _ => none)
      ((listing.map (withoutInterface id)).eraseP (locates id)) = some retyped) :
    Edited touchedByRemoval listing retyped := by
  have hUnlisted : Edited touchedByRemoval listing
      ((listing.map (withoutInterface id)).eraseP (locates id)) :=
    (edited_unlisting id listing).mono (by simp +contextual [touchedByRemoval])
  exact hUnlisted.trans ((edited_retype? h).mono (by simp +contextual [touchedByRemoval]))

end ShaderBackend.Spirv
