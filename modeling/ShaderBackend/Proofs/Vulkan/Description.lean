import Mathlib.Data.List.DropRight
import Mathlib.Data.List.Nodup
import ShaderBackend.Proofs.Render.References
import ShaderBackend.Vulkan.PassDescription

/-! A render pass in Vulkan's numbers says what its plan says. Nothing is lost or reordered, and the
color references that are left keep the slots: each defined slot refers to its own attachment, and each
attachment is referred to once. -/
namespace ShaderBackend.Vulkan

open Render

/-- The subpass that a number stands for where `outside` stands for everything outside the pass;
`none` is the outside. -/
def subpass? (outside number : UInt32) : Option UInt32 :=
  if number = outside then none else some number

/-- The number of a subpass outside the pass is told apart from those of its own. -/
theorem subpass?_subpassNumber (number : UInt32) :
    subpass? subpassOutside (subpassNumber number) = subpass? subpassExternal number := by
  rw [subpassNumber]
  split
  · rename_i hOutside
    rw [hOutside]
    rfl
  · rfl

/-- The numbers say of a dependency what it says: the same subpasses and every bit. -/
structure DependencyNumbers.Says (n : DependencyNumbers) (d : SubpassDependency) : Prop where
  srcSubpass : subpass? subpassOutside n.srcSubpass = subpass? subpassExternal d.srcSubpass
  dstSubpass : subpass? subpassOutside n.dstSubpass = subpass? subpassExternal d.dstSubpass
  srcStages : n.srcStageMask = d.srcStages
  dstStages : n.dstStageMask = d.dstStages
  srcAccess : n.srcAccessMask = d.srcAccess
  dstAccess : n.dstAccessMask = d.dstAccess
  flags : n.dependencyFlags = d.flags

/-- The numbers of a dependency say what the dependency says. -/
theorem DependencyNumbers.says_ofDependency (d : SubpassDependency) :
    (DependencyNumbers.ofDependency d).Says d where
  srcSubpass := subpass?_subpassNumber d.srcSubpass
  dstSubpass := subpass?_subpassNumber d.dstSubpass
  srcStages := rfl
  dstStages := rfl
  srcAccess := rfl
  dstAccess := rfl
  flags := rfl

section Numbers

variable {α β : Type} {all : List α} {number : α → β}

/-- Numbers tell all members of a list apart if none of them stands there twice. -/
theorem injective_of_nodup (hAll : ∀ a, a ∈ all) (hNodup : (all.map number).Nodup) :
    Function.Injective number :=
  fun a b hSame => List.inj_on_of_nodup_map hNodup (hAll a) (hAll b) hSame

theorem formatNumber_injective : Function.Injective formatNumber :=
  injective_of_nodup (fun format => by cases format <;> decide) (show (Format.all.map _).Nodup by decide)

theorem layoutNumber_injective : Function.Injective layoutNumber :=
  injective_of_nodup (fun layout => by cases layout <;> decide)
    (show (ImageLayout.all.map _).Nodup by decide)

theorem sampleCountNumber_injective : Function.Injective sampleCountNumber :=
  injective_of_nodup (fun samples => by cases samples <;> decide)
    (show (SampleCount.all.map _).Nodup by decide)

theorem loadOpNumber_injective : Function.Injective loadOpNumber :=
  injective_of_nodup (fun op => by cases op <;> decide) (show (LoadOp.all.map _).Nodup by decide)

theorem storeOpNumber_injective : Function.Injective storeOpNumber :=
  injective_of_nodup (fun op => by cases op <;> decide) (show (StoreOp.all.map _).Nodup by decide)

end Numbers

/-- The numbers say of an attachment what it says, field by field. -/
structure AttachmentNumbers.Says (n : AttachmentNumbers) (a : AttachmentDescription) : Prop where
  flags : n.flags = 0
  format : n.format = formatNumber a.format
  samples : n.samples = sampleCountNumber a.samples
  loadOp : n.loadOp = loadOpNumber a.load
  storeOp : n.storeOp = storeOpNumber a.store
  stencilLoadOp : n.stencilLoadOp = loadOpNumber a.stencilLoad
  stencilStoreOp : n.stencilStoreOp = storeOpNumber a.stencilStore
  initialLayout : n.initialLayout = layoutNumber a.initialLayout
  finalLayout : n.finalLayout = layoutNumber a.finalLayout

namespace AttachmentNumbers

variable {n : AttachmentNumbers} {a b : AttachmentDescription}

/-- The numbers of an attachment say what its description says. -/
theorem says_ofDescription (a : AttachmentDescription) : (ofDescription a).Says a :=
  ⟨rfl, rfl, rfl, rfl, rfl, rfl, rfl, rfl, rfl⟩

/-- No two attachments have the same numbers. -/
theorem Says.unique (hFirst : n.Says a) (hSecond : n.Says b) : a = b := by
  cases a
  cases b
  rw [AttachmentDescription.mk.injEq]
  exact ⟨formatNumber_injective (hFirst.format.symm.trans hSecond.format),
    sampleCountNumber_injective (hFirst.samples.symm.trans hSecond.samples),
    loadOpNumber_injective (hFirst.loadOp.symm.trans hSecond.loadOp),
    storeOpNumber_injective (hFirst.storeOp.symm.trans hSecond.storeOp),
    loadOpNumber_injective (hFirst.stencilLoadOp.symm.trans hSecond.stencilLoadOp),
    storeOpNumber_injective (hFirst.stencilStoreOp.symm.trans hSecond.stencilStoreOp),
    layoutNumber_injective (hFirst.initialLayout.symm.trans hSecond.initialLayout),
    layoutNumber_injective (hFirst.finalLayout.symm.trans hSecond.finalLayout)⟩

end AttachmentNumbers

/-- The attachment of a color slot. It is always stored and has no stencil. -/
structure ServesColor (a : AttachmentDescription) (samples : SampleCount) (slot : AttachmentFormat)
    (ops : ColorOps) : Prop where
  carries : a.CarriesColor samples slot ops
  store : a.store = .store
  stencilLoad : a.stencilLoad = .dontCare
  stencilStore : a.stencilStore = .dontCare

/-- The attachment of depth, which is always stored with its stencil. -/
structure ServesDepth (a : AttachmentDescription) (samples : SampleCount) (slot : AttachmentFormat)
    (ops : DepthOps) : Prop where
  carries : a.CarriesDepth samples slot ops
  store : a.store = .store
  stencilStore : a.stencilStore = .store

/-- A list is cut behind the last element that is not dropped. -/
theorem lt_length_rdropWhile_iff {α : Type} {p : α → Bool} {as : List α} {index : Nat} :
    index < (as.rdropWhile p).length ↔ ∃ later a, index ≤ later ∧ as[later]? = some a ∧ p a = false := by
  induction as using List.reverseRecOn with
  | nil => simp
  | append_singleton as last ih =>
      cases hLast : p last with
      | true =>
          rw [List.rdropWhile_concat_pos _ _ _ hLast, ih]
          constructor
          · rintro ⟨later, a, hLater, hAt, hKept⟩
            have hInside := (List.getElem?_eq_some_iff.1 hAt).1
            exact ⟨later, a, hLater, (List.getElem?_append_left hInside).trans hAt, hKept⟩
          · rintro ⟨later, a, hLater, hAt, hKept⟩
            refine ⟨later, a, hLater, ?_, hKept⟩
            obtain hInside | hBehind := Nat.lt_or_ge later as.length
            · rwa [List.getElem?_append_left hInside] at hAt
            · rw [List.getElem?_append_right hBehind, List.getElem?_singleton] at hAt
              split at hAt
              · cases hAt
                rw [hLast] at hKept
                cases hKept
              · cases hAt
      | false =>
          rw [List.rdropWhile_concat_neg _ _ _ (by simp [hLast]), List.length_append]
          constructor
          · intro hIndex
            exact ⟨as.length, last, Nat.le_of_lt_succ hIndex, List.getElem?_concat_length, hLast⟩
          · rintro ⟨later, a, hLater, hAt, -⟩
            have hInside := (List.getElem?_eq_some_iff.1 hAt).1
            rw [List.length_append] at hInside
            exact Nat.lt_of_le_of_lt hLater hInside

namespace PassDescription

/-- The attachment with this number. -/
def HasAttachment (d : PassDescription) (number : Nat) (a : AttachmentDescription) : Prop :=
  ∃ n, d.attachments[number]? = some n ∧ n.Says a

/-- A reference is to this attachment, in this layout. -/
structure RefersTo (d : PassDescription) (r : ReferenceNumbers) (a : AttachmentDescription)
    (layout : ImageLayout) : Prop where
  attachment : d.HasAttachment r.attachment.toNat a
  layout : r.layout = layoutNumber layout

/-- All references that the subpass makes, colors first. -/
def references (d : PassDescription) : List ReferenceNumbers := d.trimmedColorRefs ++ d.depthRef.toList

/-- What a description says of the plan of a format and operations. -/
structure Faithful (f : PassFormat) (ops : PassOps) (d : PassDescription) : Prop where
  attachments_length : d.attachments.length = (PassPlan.build f ops).attachments.length
  attachments : ∀ (number : Nat) a, d.HasAttachment number a ↔
    (PassPlan.build f ops).attachments[number]? = some a
  dependencies_length : d.dependencies.length = (PassPlan.build f ops).dependencies.length
  dependencies : ∀ (number : Nat) dependency,
    (PassPlan.build f ops).dependencies[number]? = some dependency →
      ∃ n : DependencyNumbers, d.dependencies[number]? = some n ∧ n.Says dependency
  /-- There are references up to the last slot with an attachment. -/
  last : ∀ slot, f.hasColor slot = true → (∀ other, f.hasColor other = true → other ≤ slot) →
    d.trimmedColorRefs.length = slot + 1
  empty : (∀ slot, f.hasColor slot = false) → d.trimmedColorRefs = []
  /-- A defined slot refers to its own attachment. -/
  defined : ∀ slot, f.hasColor slot = true → ∃ color colorOps r a,
    f.color[slot]? = some color ∧ ops.color[slot]? = some colorOps ∧
      d.trimmedColorRefs[slot]? = some r ∧ r.attachment.toNat = f.rank slot ∧
      ServesColor a f.samples color colorOps ∧ d.RefersTo r a color.layout
  /-- An undefined slot refers to none. -/
  undefined : ∀ slot r, d.trimmedColorRefs[slot]? = some r → f.hasColor slot = false →
    r.attachment = attachmentUnused
  depth : f.hasDepth = true → ∃ r a, d.depthRef = some r ∧
    ServesDepth a f.samples f.depth ops.depth ∧ d.RefersTo r a f.depth.layout
  depthless : f.hasDepth = false → d.depthRef = none
  inside : ∀ r ∈ d.references, r.attachment = attachmentUnused ∨
    r.attachment.toNat < d.attachments.length
  once : ∀ number < d.attachments.length,
    (d.references.map (·.attachment.toNat)).count number = 1

section Plan

variable (f : PassFormat) (ops : PassOps) {slot : Nat} {r : ReferenceNumbers}

/-- The description of a plan. -/
def described : PassDescription := .ofPlan (.build f ops)

/-- A slot is referred to by its rank, and one without a format by no attachment. -/
theorem getElem?_colorRefs (slot : Nat) :
    (described f ops).colorRefs[slot]? = f.color[slot]?.map fun color =>
      if color.format.isDefined then ⟨UInt32.ofNat (f.rank slot), layoutNumber color.layout⟩
      else .unused := by
  have hRefs := Render.getElem?_colorRefs f ops slot
  rw [described, ofPlan, List.getElem?_map, hRefs, Option.map_map]
  refine Option.map_congr fun color _ => ?_
  rw [Function.comp_apply]
  split <;> rfl

theorem toNat_rank (hSlot : f.hasColor slot = true) :
    (UInt32.ofNat (f.rank slot)).toNat = f.rank slot :=
  PassFormat.toNat_ofNat_of_le (Nat.le_of_lt (PassFormat.rank_lt hSlot))

/-- No attachment is at the number that stands for none. -/
theorem succ_colorCount_lt : f.colorCount + 1 < attachmentUnused.toNat := by
  have hCount := f.colorCount_le
  rw [colorSlots] at hCount
  exact Nat.lt_of_le_of_lt (Nat.succ_le_succ hCount) (by decide)

theorem getElem?_colorRefs_of_hasColor (hSlot : f.hasColor slot = true) :
    ∃ color, f.color[slot]? = some color ∧ color.format.isDefined = true ∧
      (described f ops).colorRefs[slot]? =
        some ⟨UInt32.ofNat (f.rank slot), layoutNumber color.layout⟩ := by
  obtain ⟨color, hColor, hDefined⟩ := PassFormat.exists_color_of_hasColor hSlot
  refine ⟨color, hColor, hDefined, ?_⟩
  rw [getElem?_colorRefs, hColor, Option.map_some, if_pos hDefined]

/-- The number for no attachment is none that a slot counts to. -/
theorem unused_iff (hAt : (described f ops).colorRefs[slot]? = some r) :
    r.attachment = attachmentUnused ↔ f.hasColor slot = false := by
  cases hSlot : f.hasColor slot with
  | false =>
      rw [getElem?_colorRefs] at hAt
      obtain ⟨color, hColor, rfl⟩ := Option.map_eq_some_iff.1 hAt
      rw [PassFormat.hasColor_eq hColor] at hSlot
      simp [hSlot, ReferenceNumbers.unused]
  | true =>
      obtain ⟨color, -, -, hRef⟩ := getElem?_colorRefs_of_hasColor f ops hSlot
      cases hAt.symm.trans hRef
      have hRank := PassFormat.rank_lt hSlot
      have hCount := succ_colorCount_lt f
      simp only [Bool.true_eq_false, iff_false]
      intro hUnused
      have hToNat := congrArg UInt32.toNat hUnused
      rw [toNat_rank f hSlot] at hToNat
      omega

theorem trimmedColorRefs_eq (d : PassDescription) :
    d.trimmedColorRefs = d.colorRefs.rdropWhile (·.attachment = attachmentUnused) := rfl

theorem getElem?_trimmedColorRefs (hSlot : slot < (described f ops).trimmedColorRefs.length) :
    (described f ops).trimmedColorRefs[slot]? = (described f ops).colorRefs[slot]? := by
  rw [trimmedColorRefs_eq] at hSlot ⊢
  rw [List.prefix_iff_getElem?.1 (List.rdropWhile_prefix _ _) slot hSlot,
    List.getElem?_eq_getElem hSlot]

/-- The references end behind the last slot that has a format. -/
theorem lt_length_trimmedColorRefs_iff :
    slot < (described f ops).trimmedColorRefs.length ↔
      ∃ later, slot ≤ later ∧ f.hasColor later = true := by
  rw [trimmedColorRefs_eq, lt_length_rdropWhile_iff]
  constructor
  · rintro ⟨later, r, hLater, hAt, hUsed⟩
    refine ⟨later, hLater, Bool.of_not_eq_false fun hUndefined => ?_⟩
    exact of_decide_eq_false hUsed ((unused_iff f ops hAt).2 hUndefined)
  · rintro ⟨later, hLater, hDefined⟩
    obtain ⟨color, -, -, hAt⟩ := getElem?_colorRefs_of_hasColor f ops hDefined
    refine ⟨later, _, hLater, hAt, decide_eq_false fun hUnused => ?_⟩
    exact Bool.false_ne_true (((unused_iff f ops hAt).1 hUnused).symm.trans hDefined)

theorem length_trimmedColorRefs (hSlot : f.hasColor slot = true)
    (hLast : ∀ other, f.hasColor other = true → other ≤ slot) :
    (described f ops).trimmedColorRefs.length = slot + 1 := by
  have hInside := (lt_length_trimmedColorRefs_iff f ops).2 ⟨slot, Nat.le_refl _, hSlot⟩
  have hBehind : ¬ slot + 1 < (described f ops).trimmedColorRefs.length := by
    rw [lt_length_trimmedColorRefs_iff]
    rintro ⟨later, hLater, hDefined⟩
    exact absurd (hLast later hDefined) (Nat.not_le.2 hLater)
  omega

/-- Where no slot has a format, no reference is left. -/
theorem trimmedColorRefs_eq_nil (hNone : ∀ slot, f.hasColor slot = false) :
    (described f ops).trimmedColorRefs = [] := by
  refine List.eq_nil_of_length_eq_zero (Nat.eq_zero_of_not_pos fun hPositive => ?_)
  obtain ⟨later, -, hDefined⟩ := (lt_length_trimmedColorRefs_iff f ops).1 hPositive
  exact Bool.false_ne_true ((hNone later).symm.trans hDefined)

theorem length_attachments :
    (described f ops).attachments.length = f.colorCount + f.hasDepth.toNat := by
  rw [described, ofPlan, List.length_map, Render.length_attachments]

/-- What is said of an attachment by its numbers is said of the planned one. -/
theorem hasAttachment_iff {number : Nat} {a : AttachmentDescription} :
    (described f ops).HasAttachment number a ↔
      (PassPlan.build f ops).attachments[number]? = some a := by
  rw [HasAttachment, described, ofPlan]
  constructor
  · rintro ⟨n, hAt, hSays⟩
    rw [List.getElem?_map] at hAt
    obtain ⟨other, hOther, rfl⟩ := Option.map_eq_some_iff.1 hAt
    rwa [hSays.unique (AttachmentNumbers.says_ofDescription other)]
  · intro hAt
    exact ⟨_, by rw [List.getElem?_map, hAt]; rfl, AttachmentNumbers.says_ofDescription a⟩

/-- Depth refers to the attachment behind the colors. -/
theorem depthRef_eq : (described f ops).depthRef =
    if f.hasDepth then some ⟨UInt32.ofNat f.colorCount, layoutNumber f.depth.layout⟩ else none := by
  rw [described, ofPlan, PassPlan.build]
  cases f.hasDepth <;> rfl

theorem toNat_colorCount : (UInt32.ofNat f.colorCount).toNat = f.colorCount :=
  PassFormat.toNat_ofNat_of_le (Nat.le_refl _)

end Plan

/-- Numbers of the attachments that references are to. -/
def used (rs : List ReferenceNumbers) : List Nat :=
  (rs.map (·.attachment.toNat)).filter (· ≠ attachmentUnused.toNat)

theorem used_append (rs others : List ReferenceNumbers) :
    used (rs ++ others) = used rs ++ used others := by
  rw [used, List.map_append, List.filter_append, used, used]

/-- What is left out at the end is no reference to an attachment. -/
theorem used_trimmedColorRefs (d : PassDescription) : used d.trimmedColorRefs = used d.colorRefs := by
  have hDropped : used (d.colorRefs.rtakeWhile (·.attachment = attachmentUnused)) = [] := by
    rw [used, List.filter_eq_nil_iff]
    intro number hNumber
    obtain ⟨r, hr, rfl⟩ := List.mem_map.1 hNumber
    have hUnused := List.mem_rtakeWhile_imp hr
    simp_all
  have hSplit := used_append (d.colorRefs.rdropWhile (·.attachment = attachmentUnused))
    (d.colorRefs.rtakeWhile (·.attachment = attachmentUnused))
  rw [List.rdropWhile_append_rtakeWhile, hDropped, List.append_nil] at hSplit
  exact hSplit.symm

/-- An unused reference refers to no attachment, and every other one to its own. -/
theorem used_map_getD {rs : List (Option AttachmentReference)}
    (hUsed : ∀ r ∈ rs.reduceOption, r.attachment.toNat ≠ attachmentUnused.toNat) :
    used (rs.map fun r => (r.map .ofReference).getD .unused) =
      rs.reduceOption.map (·.attachment.toNat) := by
  induction rs with
  | nil => rfl
  | cons r rs ih =>
      cases r with
      | none =>
          rw [List.reduceOption_cons_of_none] at hUsed ⊢
          rw [← ih hUsed]
          rfl
      | some r =>
          rw [List.reduceOption_cons_of_some] at hUsed ⊢
          have hFirst := hUsed r List.mem_cons_self
          have hRest := ih fun other hOther => hUsed other (List.mem_cons_of_mem _ hOther)
          rw [List.map_cons, List.map_cons, ← hRest]
          exact List.filter_cons_of_pos (decide_eq_true hFirst)

section Plan

variable (f : PassFormat) (ops : PassOps)

/-- The color references together refer to every color attachment in turn. -/
theorem used_colorRefs : used (described f ops).colorRefs = List.range f.colorCount := by
  rw [← reduceOption_colorRefs f ops]
  refine used_map_getD fun r hr => ?_
  have hNumber := List.mem_map_of_mem (f := fun r : AttachmentReference => r.attachment.toNat) hr
  rw [reduceOption_colorRefs, List.mem_range] at hNumber
  have hCount := succ_colorCount_lt f
  omega

/-- The depth reference refers to the attachment behind those of the colors. -/
theorem used_depthRef :
    used (described f ops).depthRef.toList = if f.hasDepth then [f.colorCount] else [] := by
  rw [depthRef_eq]
  cases f.hasDepth with
  | false => rfl
  | true =>
      have hOther : f.colorCount ≠ attachmentUnused.toNat :=
        Nat.ne_of_lt (Nat.lt_of_succ_lt (succ_colorCount_lt f))
      rw [if_pos rfl, if_pos rfl, Option.toList_some, used, List.map_singleton, toNat_colorCount,
        List.filter_singleton, decide_eq_true hOther]
      rfl

/-- The references are to the attachments one after the other. -/
theorem used_references :
    used (described f ops).references = List.range (described f ops).attachments.length := by
  rw [references, used_append, used_trimmedColorRefs, used_colorRefs, used_depthRef,
    length_attachments]
  cases f.hasDepth with
  | false => exact List.append_nil _
  | true => exact List.range_succ.symm

/-- There are far too few attachments for one to have the number that stands for none. -/
theorem length_attachments_lt : (described f ops).attachments.length < attachmentUnused.toNat := by
  rw [length_attachments]
  exact Nat.lt_of_le_of_lt (Nat.add_le_add_left (Bool.toNat_le _) _) (succ_colorCount_lt f)

/-- A defined slot is among the references that are left, and they refer to its attachment. -/
theorem exists_refersTo_of_hasColor {slot : Nat} (hSlot : f.hasColor slot = true) :
    ∃ color colorOps r a, f.color[slot]? = some color ∧ ops.color[slot]? = some colorOps ∧
      (described f ops).trimmedColorRefs[slot]? = some r ∧ r.attachment.toNat = f.rank slot ∧
      ServesColor a f.samples color colorOps ∧ (described f ops).RefersTo r a color.layout := by
  obtain ⟨color, hColor, hDefined, hRef⟩ := getElem?_colorRefs_of_hasColor f ops hSlot
  have hInside := (lt_length_trimmedColorRefs_iff f ops).2 ⟨slot, Nat.le_refl _, hSlot⟩
  have hSlots : slot < ops.color.size := by
    simpa using (Vector.getElem?_eq_some_iff.1 hColor).1
  have hOps : ops.color[slot]? = some ops.color[slot] := Vector.getElem?_eq_getElem hSlots
  refine ⟨color, ops.color[slot], _, colorAttachment f.samples color ops.color[slot], hColor, hOps,
    (getElem?_trimmedColorRefs f ops hInside).trans hRef, toNat_rank f hSlot,
    ⟨⟨rfl, rfl, rfl, rfl, rfl⟩, rfl, rfl, rfl⟩, ?_, rfl⟩
  rw [toNat_rank f hSlot]
  exact (hasAttachment_iff f ops).2 (getElem?_attachments hColor hOps hDefined)

/-- A depth attachment is referred to with the layout of its format. -/
theorem exists_refersTo_of_hasDepth (hDepth : f.hasDepth = true) :
    ∃ r a, (described f ops).depthRef = some r ∧ ServesDepth a f.samples f.depth ops.depth ∧
      (described f ops).RefersTo r a f.depth.layout := by
  have hRef := depthRef_eq f ops
  rw [if_pos hDepth] at hRef
  refine ⟨_, depthAttachment f.samples f.depth ops.depth, hRef,
    ⟨⟨rfl, rfl, rfl, rfl, rfl, rfl⟩, rfl, rfl⟩, ?_, rfl⟩
  rw [toNat_colorCount]
  exact (hasAttachment_iff f ops).2 (getElem?_attachments_colorCount hDepth)

/-- No reference leads past the attachments. -/
theorem unused_or_lt_of_mem_references {r : ReferenceNumbers}
    (hr : r ∈ (described f ops).references) :
    r.attachment = attachmentUnused ∨
      r.attachment.toNat < (described f ops).attachments.length := by
  by_cases hUnused : r.attachment = attachmentUnused
  · exact .inl hUnused
  · have hUsed : r.attachment.toNat ∈ used (described f ops).references := by
      rw [used, List.mem_filter]
      exact ⟨List.mem_map_of_mem hr, by simpa [UInt32.toNat_inj] using hUnused⟩
    rw [used_references, List.mem_range] at hUsed
    exact .inr hUsed

/-- Each attachment is referred to once. -/
theorem count_references {number : Nat} (hNumber : number < (described f ops).attachments.length) :
    ((described f ops).references.map (·.attachment.toNat)).count number = 1 := by
  have hOther : number ≠ attachmentUnused.toNat :=
    Nat.ne_of_lt (Nat.lt_trans hNumber (length_attachments_lt f ops))
  have hUsed : (used (described f ops).references).count number = 1 := by
    rw [used_references]
    exact List.count_eq_one_of_mem List.nodup_range (List.mem_range.2 hNumber)
  rwa [used, List.count_filter (p := (· ≠ attachmentUnused.toNat)) (decide_eq_true hOther)] at hUsed

/-- A description in numbers says what the format and the operations do. -/
theorem faithful_ofPlan : Faithful f ops (.ofPlan (.build f ops)) where
  attachments_length := List.length_map _
  attachments number a := hasAttachment_iff f ops
  dependencies_length := List.length_map _
  dependencies number dependency hAt := by
    refine ⟨.ofDependency dependency, ?_, DependencyNumbers.says_ofDependency dependency⟩
    rw [ofPlan, List.getElem?_map, hAt]
    rfl
  last slot hSlot hLast := length_trimmedColorRefs f ops hSlot hLast
  empty hNone := trimmedColorRefs_eq_nil f ops hNone
  defined slot hSlot := exists_refersTo_of_hasColor f ops hSlot
  undefined slot r hAt hSlot := by
    have hInside := (List.getElem?_eq_some_iff.1 hAt).1
    rw [← described, getElem?_trimmedColorRefs f ops hInside] at hAt
    exact (unused_iff f ops hAt).2 hSlot
  depth hDepth := exists_refersTo_of_hasDepth f ops hDepth
  depthless hDepth := by
    have hRef := depthRef_eq f ops
    rwa [hDepth] at hRef
  inside r hr := unused_or_lt_of_mem_references f ops hr
  once number hNumber := count_references f ops hNumber

end Plan

end PassDescription

end ShaderBackend.Vulkan
