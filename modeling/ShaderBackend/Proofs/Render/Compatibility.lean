import Mathlib.Data.List.Forall2
import ShaderBackend.Proofs.Render.Slots

/-! Passes of one format stand in for each other. Operations change neither the references nor what
an attachment is, and of the operations only those matter whose slot has an attachment. The
attachments and the dependencies look at the slots separately. Both see the defined ones and nothing
else. -/
namespace ShaderBackend.Render

/-- What operations leave alone in an attachment. -/
structure AttachmentDescription.Alike (a b : AttachmentDescription) : Prop where
  format : a.format = b.format
  samples : a.samples = b.samples
  store : a.store = b.store
  stencilStore : a.stencilStore = b.stencilStore

/-- Passes that can be used in each other's place: the same references, and attachments that differ
in how they are loaded and in their layouts outside the pass only. -/
structure PassPlan.Compatible (p q : PassPlan) : Prop where
  colorRefs : p.colorRefs = q.colorRefs
  depthRef : p.depthRef = q.depthRef
  attachments : List.Forall₂ AttachmentDescription.Alike p.attachments q.attachments

/-- Operations that are the same for every attachment of a format. -/
structure PassOps.AgreesOn (f : PassFormat) (ops other : PassOps) : Prop where
  color : ∀ slot, f.hasColor slot = true → ops.color[slot]? = other.color[slot]?
  depth : f.hasDepth = true → ops.depth = other.depth

/-- Only those places of the second list count at which the first one keeps its element. -/
theorem filter_zip_congr {α β : Type} {p : α → Bool} {as : List α} {bs cs : List β}
    (hLength : bs.length = cs.length)
    (hSame : ∀ (index : Nat) (a : α), as[index]? = some a → p a = true → bs[index]? = cs[index]?) :
    (as.zip bs).filter (fun pair => p pair.1) = (as.zip cs).filter (fun pair => p pair.1) := by
  induction as generalizing bs cs with
  | nil => rfl
  | cons a as ih =>
      cases bs with
      | nil =>
          have hNone : cs = [] := List.length_eq_zero_iff.1 hLength.symm
          rw [hNone]
      | cons b bs =>
          cases cs with
          | nil => cases hLength
          | cons c cs =>
              have hRest := ih (Nat.succ.inj hLength) fun index => hSame (index + 1)
              rw [List.zip_cons_cons, List.zip_cons_cons, List.filter_cons, List.filter_cons, hRest]
              cases hKept : p a with
              | false => rfl
              | true =>
                  have hHead : b = c := Option.some.inj (hSame 0 a rfl hKept)
                  rw [hHead]

section Slots

variable {f : PassFormat} {ops other : PassOps}

/-- The defined color slots in order, with their operations. -/
def definedColors (f : PassFormat) (ops : PassOps) : List (AttachmentFormat × ColorOps) :=
  (f.color.toList.zip ops.color.toList).filter (·.1.format.isDefined)

theorem colorAttachments_eq (f : PassFormat) (ops : PassOps) :
    colorAttachments f ops =
      (definedColors f ops).map fun pair => colorAttachment f.samples pair.1 pair.2 := rfl

theorem loadsColor_eq (f : PassFormat) (ops : PassOps) :
    loadsColor f ops = (definedColors f ops).any (·.2.load = .load) := by
  rw [definedColors, List.any_filter]
  rfl

/-- The format alone says which slots are defined. -/
theorem map_fst_definedColors (f : PassFormat) (ops : PassOps) :
    (definedColors f ops).map Prod.fst = f.color.toList.filter (·.format.isDefined) := by
  have hLength : f.color.toList.length ≤ ops.color.toList.length := by simp
  conv_rhs => rw [← List.map_fst_zip hLength, List.filter_map]
  rfl

/-- Operations of undefined slots are dropped before anything is described. -/
theorem definedColors_congr (h : ops.AgreesOn f other) :
    definedColors f ops = definedColors f other := by
  have hLength : ops.color.toList.length = other.color.toList.length := by simp
  refine filter_zip_congr (p := fun slot : AttachmentFormat => slot.format.isDefined) hLength ?_
  intro slot color hColor hDefined
  rw [f.getElem?_color] at hColor
  have hSame := h.color slot ((PassFormat.hasColor_eq hColor).trans hDefined)
  simpa using hSame

end Slots

section Attachments

variable {f : PassFormat} {ops other : PassOps}

theorem forall₂_colorAttachments (f : PassFormat) (ops other : PassOps) :
    List.Forall₂ AttachmentDescription.Alike (colorAttachments f ops)
      (colorAttachments f other) := by
  have hSlots : List.Forall₂ (fun first second : AttachmentFormat × ColorOps => first.1 = second.1)
      (definedColors f ops) (definedColors f other) := by
    have hFormats : List.Forall₂ (· = ·) ((definedColors f ops).map Prod.fst)
        ((definedColors f other).map Prod.fst) := by
      rw [map_fst_definedColors, map_fst_definedColors, List.forall₂_eq_eq_eq]
    exact List.forall₂_map_right_iff.1 (List.forall₂_map_left_iff.1 hFormats)
  rw [colorAttachments_eq, colorAttachments_eq, List.forall₂_map_left_iff,
    List.forall₂_map_right_iff]
  exact hSlots.imp fun first second hSame =>
    ⟨congrArg AttachmentFormat.format hSame, rfl, rfl, rfl⟩

/-- Slot by slot, only what compatibility ignores depends on the operations: the load and store
operations and the layouts. -/
theorem forall₂_attachments (f : PassFormat) (ops other : PassOps) :
    List.Forall₂ AttachmentDescription.Alike (PassPlan.build f ops).attachments
      (PassPlan.build f other).attachments := by
  refine List.rel_append (forall₂_colorAttachments f ops other) ?_
  cases f.hasDepth with
  | false => exact .nil
  | true => exact .cons ⟨rfl, rfl, rfl, rfl⟩ .nil

/-- Render passes of one format are compatible whatever their operations. -/
theorem compatible_build (f : PassFormat) (ops other : PassOps) :
    (PassPlan.build f ops).Compatible (.build f other) :=
  ⟨rfl, rfl, forall₂_attachments f ops other⟩

/-- Operations that agree on what the format defines give the same attachments. -/
theorem attachments_congr (h : ops.AgreesOn f other) :
    (PassPlan.build f ops).attachments = (PassPlan.build f other).attachments := by
  have hColors : colorAttachments f ops = colorAttachments f other := by
    rw [colorAttachments_eq, colorAttachments_eq, definedColors_congr h]
  rw [PassPlan.build, PassPlan.build, hColors]
  cases hDepth : f.hasDepth with
  | false => rfl
  | true => rw [h.depth hDepth]

/-- An attachment shows all of its operations. -/
theorem colorAttachment_injective (samples : SampleCount) (slot : AttachmentFormat) :
    Function.Injective (colorAttachment samples slot) := by
  rintro ⟨op, loadLayout, storeLayout⟩ ⟨op', loadLayout', storeLayout'⟩ hSame
  simp_all [colorAttachment]

theorem depthAttachment_injective (samples : SampleCount) (slot : AttachmentFormat) :
    Function.Injective (depthAttachment samples slot) := by
  rintro ⟨depth, stencil, loadLayout, storeLayout⟩ ⟨depth', stencil', loadLayout', storeLayout'⟩
    hSame
  simp_all [depthAttachment]

/-- The operations of every attachment can be read off the plan. -/
theorem agreesOn_of_attachments
    (h : (PassPlan.build f ops).attachments = (PassPlan.build f other).attachments) :
    ops.AgreesOn f other where
  color slot hSlot := by
    obtain ⟨color, hColor, hDefined⟩ := PassFormat.exists_color_of_hasColor hSlot
    have hInside : slot < colorSlots := (Vector.getElem?_eq_some_iff.1 hColor).1
    have hOp : ops.color[slot]? = some ops.color[slot] := Vector.getElem?_eq_getElem hInside
    have hOther : other.color[slot]? = some other.color[slot] := Vector.getElem?_eq_getElem hInside
    have hFirst := getElem?_attachments hColor hOp hDefined
    rw [h, getElem?_attachments hColor hOther hDefined, Option.some.injEq] at hFirst
    rw [hOp, hOther, colorAttachment_injective f.samples color hFirst]
  depth hDepth := by
    have hFirst : (PassPlan.build f ops).attachments[f.colorCount]? =
        some (depthAttachment f.samples f.depth ops.depth) := getElem?_attachments_colorCount hDepth
    rw [h, getElem?_attachments_colorCount hDepth, Option.some.injEq] at hFirst
    exact (depthAttachment_injective f.samples f.depth hFirst).symm

end Attachments

section Dependencies

variable {f : PassFormat} {ops other : PassOps}

/-- The accesses of a pass look at the same slots as its attachments. -/
theorem renderAccess_congr (h : ops.AgreesOn f other) :
    renderAccess f ops = renderAccess f other := by
  have hLoads : loadsColor f ops = loadsColor f other := by
    rw [loadsColor_eq, loadsColor_eq, definedColors_congr h]
  rw [renderAccess, renderAccess, hLoads]
  cases hDepth : f.hasDepth with
  | false => rfl
  | true => rw [h.depth hDepth]

theorem dependencies_congr (h : ops.AgreesOn f other) (hBarrier : ops.barrier = other.barrier) :
    dependencies f ops = dependencies f other := by
  rw [dependencies, dependencies, renderDependency, renderDependency, renderAccess_congr h,
    hBarrier]

end Dependencies

/-- Passes of one format are compatible whatever their operations. Their attachments are the same
exactly if the operations agree on the attachments of the format, and with the same barrier they are
then the same in every field. -/
theorem interchangeable_build (f : PassFormat) (ops other : PassOps) :
    (PassPlan.build f ops).Compatible (.build f other) ∧
    ((PassPlan.build f ops).attachments = (PassPlan.build f other).attachments ↔
      ops.AgreesOn f other) ∧
    (ops.AgreesOn f other → ops.barrier = other.barrier →
      PassPlan.build f ops = PassPlan.build f other) := by
  refine ⟨compatible_build f ops other, ⟨agreesOn_of_attachments, attachments_congr⟩, ?_⟩
  intro hAgrees hBarrier
  rw [PassPlan.mk.injEq]
  exact ⟨attachments_congr hAgrees, rfl, rfl, dependencies_congr hAgrees hBarrier⟩

/-- A pass without depth whose second color slot is unused. -/
def sparseFormat : PassFormat where
  color := #v[⟨.r8g8b8a8Unorm, .colorAttachment⟩, {}, ⟨.r8g8b8a8Unorm, .colorAttachment⟩, {}, {},
    {}, {}, {}]

/-- Operations that differ from the default ones where that pass has no attachment. -/
def idleOps : PassOps where
  depth := { loadDepth := .clear }
  color := (Vector.replicate colorSlots {}).set 1 { load := .clear }

theorem interchangeable_build_sparse :
    PassOps.AgreesOn sparseFormat {} idleOps ∧
    PassPlan.build sparseFormat {} = PassPlan.build sparseFormat idleOps := by
  have hAgrees : PassOps.AgreesOn sparseFormat {} idleOps := by
    refine ⟨fun slot hSlot => ?_, fun hDepth => absurd hDepth (by decide)⟩
    have hUsed : slot ≠ 1 := by
      rintro rfl
      exact absurd hSlot (by decide)
    simp [idleOps, Ne.symm hUsed]
  exact ⟨hAgrees, (interchangeable_build _ _ _).2.2 hAgrees rfl⟩

end ShaderBackend.Render
