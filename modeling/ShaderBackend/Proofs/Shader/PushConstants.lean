import ShaderBackend.Proofs.Shader.SlotHistory

/-! Push constants of a pipeline. From the second declaration on, the stored range is the hull of all
declared ranges, cut off where the address space ends. The range has no field for its end, so that
every declaration works it out anew from offset and size, but no order makes a difference. -/
namespace ShaderBackend.Shader

/-- A clamped sum is the sum over the whole numbers, or the largest number if that is less. -/
theorem toNat_clampedAdd (a b : UInt32) :
    (clampedAdd a b).toNat = min (UInt32.size - 1) (a.toNat + b.toNat) := by
  have hLast : (0xffffffff : UInt32).toNat = UInt32.size - 1 := rfl
  rw [clampedAdd]
  split
  · rename_i hFits
    rw [UInt32.toNat_add, Nat.mod_eq_of_lt hFits]
    omega
  · rw [hLast]
    omega

namespace PushConstRange

/-- End of the range, even if it is past the end of the address space. -/
def reach (r : PushConstRange) : Nat := r.offset.toNat + r.size.toNat

/-- The hull if its end does not lie in front of its start, so that its size can be taken. -/
def hullChecked (r s : PushConstRange) : Except Failure PushConstRange :=
  let start := min r.offset s.offset
  let stop := max r.stop s.stop
  if start ≤ stop then .ok { offset := start, size := stop - start, stages := r.stages ||| s.stages }
  else .error .abort

/-- What a declaration makes of the range that is stored so far. -/
def merge (known : Option PushConstRange) (range : PushConstRange) : Option PushConstRange :=
  some (known.elim range (·.hull range))

def mergeChecked (known : Option PushConstRange) (range : PushConstRange) :
    Except Failure (Option PushConstRange) :=
  match known with
  | none => .ok (some range)
  | some known => (known.hullChecked range).map some

/-- The range from the least offset of some ranges to their greatest end, or to the end of the
address space if that comes first, for the stages of all of them. -/
structure ClampedHull (ranges : List PushConstRange) (r : PushConstRange) : Prop where
  offset : (ranges.map (·.offset.toNat)).min? = some r.offset.toNat
  reach : (ranges.map reach).max?.map (min (UInt32.size - 1)) = some r.reach
  stages : r.stages = ranges.foldl (fun set range => set ||| range.stages) 0

/-- The offset and the end decide the size. -/
theorem eq_of_reach_eq {r s : PushConstRange} (hOffset : r.offset.toNat = s.offset.toNat)
    (hReach : r.reach = s.reach) (hStages : r.stages = s.stages) : r = s := by
  have hSize : r.size.toNat = s.size.toNat := by
    rw [reach, reach] at hReach
    omega
  cases r
  cases s
  rw [mk.injEq]
  exact ⟨UInt32.toNat_inj.1 hOffset, UInt32.toNat_inj.1 hSize, hStages⟩

section Step

variable (r s : PushConstRange)

theorem toNat_stop : r.stop.toNat = min (UInt32.size - 1) r.reach := toNat_clampedAdd _ _

/-- A range does not stop in front of its own start, however large its size. -/
theorem offset_le_stop : r.offset ≤ r.stop := by
  have hOffset := r.offset.toNat_lt
  rw [UInt32.le_iff_toNat_le, toNat_stop, reach, UInt32.size]
  omega

/-- Nor do two ranges together, so the difference that gives the size of their hull is never below
zero. -/
theorem hull_start_le_stop : min r.offset s.offset ≤ max r.stop s.stop := by
  have hOwn := UInt32.le_iff_toNat_le.1 r.offset_le_stop
  rw [UInt32.le_iff_toNat_le, UInt32.toNat_min, UInt32.toNat_max]
  omega

theorem hullChecked_eq : r.hullChecked s = .ok (r.hull s) := if_pos (hull_start_le_stop r s)

theorem toNat_offset_hull : (r.hull s).offset.toNat = min r.offset.toNat s.offset.toNat :=
  UInt32.toNat_min _ _

/-- A hull reaches to the later of the two stops. -/
theorem reach_hull : (r.hull s).reach = max r.stop.toNat s.stop.toNat := by
  have hInside := UInt32.le_iff_toNat_le.1 (hull_start_le_stop r s)
  rw [reach, hull, UInt32.toNat_sub_of_le _ _ (hull_start_le_stop r s), Nat.add_sub_cancel' hInside,
    UInt32.toNat_max]

/-- A hull never runs past the end of the address space, so its end is not clamped again. -/
theorem toNat_stop_hull : (r.hull s).stop.toNat = (r.hull s).reach := by
  have hFirst := r.stop.toNat_lt
  have hSecond := s.stop.toNat_lt
  rw [toNat_stop, reach_hull, UInt32.size]
  omega

end Step

section Fold

variable {first : PushConstRange} {rest : List PushConstRange}

/-- The least offset of all ranges is where their hull starts. -/
theorem toNat_offset_foldl_hull (first : PushConstRange) (rest : List PushConstRange) :
    (rest.foldl hull first).offset.toNat =
      rest.foldl (fun least r => min least r.offset.toNat) first.offset.toNat :=
  (List.foldl_hom (fun r : PushConstRange => r.offset.toNat) fun r s =>
    (toNat_offset_hull r s).symm).symm

/-- The greatest stop of all ranges is where it stops. -/
theorem toNat_stop_foldl_hull (first : PushConstRange) (rest : List PushConstRange) :
    (rest.foldl hull first).stop.toNat =
      rest.foldl (fun greatest r => max greatest r.stop.toNat) first.stop.toNat :=
  (List.foldl_hom (fun r : PushConstRange => r.stop.toNat) fun r s => by
    rw [toNat_stop_hull, reach_hull]).symm

/-- A hull is seen by every stage that sees one of its ranges. -/
theorem stages_foldl_hull (first : PushConstRange) (rest : List PushConstRange) :
    (rest.foldl hull first).stages =
      rest.foldl (fun set range => set ||| range.stages) first.stages :=
  (List.foldl_hom (fun r : PushConstRange => r.stages) fun _ _ => rfl).symm

/-- Clamping every end and taking the greatest is clamping the greatest. -/
theorem foldl_max_toNat_stop (first : PushConstRange) (rest : List PushConstRange) :
    rest.foldl (fun greatest r => max greatest r.stop.toNat) first.stop.toNat =
      min (UInt32.size - 1) (rest.foldl (fun greatest r => max greatest r.reach) first.reach) := by
  rw [toNat_stop]
  refine List.foldl_hom (min (UInt32.size - 1)) fun greatest r => ?_
  rw [toNat_stop, ← Nat.min_max_distrib_left]

/-- The end of the stored range is that of a hull as soon as there are two ranges. The first range
on its own may run past the end of the address space. -/
theorem reach_foldl_hull (hRest : rest ≠ []) :
    (rest.foldl hull first).reach = (rest.foldl hull first).stop.toNat := by
  obtain ⟨front, last, rfl⟩ := List.eq_nil_or_concat rest |>.resolve_left hRest
  rw [List.concat_eq_append, List.foldl_concat, toNat_stop_hull]

/-- Two ranges or more come to their clamped hull, in whichever order they are merged. -/
theorem clampedHull_foldl_hull (hRest : rest ≠ []) :
    (rest.foldl hull first).ClampedHull (first :: rest) where
  offset := by
    rw [List.map_cons, List.min?_cons', List.foldl_map, toNat_offset_foldl_hull]
  reach := by
    rw [List.map_cons, List.max?_cons', List.foldl_map, Option.map_some, reach_foldl_hull hRest,
      toNat_stop_foldl_hull, foldl_max_toNat_stop]
  stages := by
    rw [List.foldl_cons, UInt32.zero_or, stages_foldl_hull]

end Fold

namespace ClampedHull

variable {ranges other : List PushConstRange} {r s : PushConstRange}

/-- There is one clamped hull only. -/
theorem unique (hFirst : r.ClampedHull ranges) (hSecond : s.ClampedHull ranges) : r = s :=
  eq_of_reach_eq (Option.some.inj (hFirst.offset.symm.trans hSecond.offset))
    (Option.some.inj (hFirst.reach.symm.trans hSecond.reach))
    (hFirst.stages.trans hSecond.stages.symm)

/-- Least, greatest and union do not depend on an order. -/
theorem perm (h : r.ClampedHull ranges) (hPerm : ranges.Perm other) : r.ClampedHull other where
  offset := by
    obtain ⟨hMem, hLeast⟩ := List.min?_eq_some_iff.1 h.offset
    have hOffsets := hPerm.map (·.offset.toNat)
    exact List.min?_eq_some_iff.2 ⟨hOffsets.mem_iff.1 hMem, fun n hn =>
      hLeast n (hOffsets.mem_iff.2 hn)⟩
  reach := by
    obtain ⟨greatest, hGreatest, hReach⟩ := Option.map_eq_some_iff.1 h.reach
    obtain ⟨hMem, hBound⟩ := List.max?_eq_some_iff.1 hGreatest
    have hReaches := hPerm.map PushConstRange.reach
    exact Option.map_eq_some_iff.2 ⟨greatest, List.max?_eq_some_iff.2 ⟨hReaches.mem_iff.1 hMem,
      fun n hn => hBound n (hReaches.mem_iff.2 hn)⟩, hReach⟩
  stages := h.stages.trans (History.foldl_or_perm (fun r : PushConstRange => r.stages) hPerm)

end ClampedHull

/-- No merge of ranges fails. -/
theorem mergeChecked_eq (known : Option PushConstRange) (range : PushConstRange) :
    mergeChecked known range = .ok (merge known range) := by
  cases known with
  | none => rfl
  | some known => rw [mergeChecked, hullChecked_eq]; rfl

theorem foldlM_mergeChecked (known : Option PushConstRange) (ranges : List PushConstRange) :
    ranges.foldlM mergeChecked known = .ok (ranges.foldl merge known) := by
  induction ranges generalizing known with
  | nil => rfl
  | cons range rest ih =>
      rw [List.foldlM_cons, mergeChecked_eq]
      exact ih _

theorem foldl_merge_some (first : PushConstRange) (rest : List PushConstRange) :
    rest.foldl merge (some first) = some (rest.foldl hull first) :=
  List.foldl_hom some fun _ _ => rfl

/-- Merging two ranges or more into nothing gives their clamped hull. -/
theorem exists_clampedHull {ranges : List PushConstRange} (hTwo : 2 ≤ ranges.length) :
    ∃ r, ranges.foldl merge none = some r ∧ r.ClampedHull ranges := by
  match ranges, hTwo with
  | first :: second :: rest, _ =>
    exact ⟨_, foldl_merge_some first (second :: rest),
      clampedHull_foldl_hull (List.cons_ne_nil second rest)⟩

end PushConstRange

/-- One call that changes a mapping. -/
inductive Call where
  | register (call : Registration)
  /-- Push constants of a stage apart from any shader. -/
  | pushConst (stage : Stage) (offset size : UInt32)

/-- The push constants that a call declares, if it declares any. -/
def Call.range? : Call → Option PushConstRange
  | .register (.slot _ _) => none
  | .register (.shader s) =>
    if s.interface.pushConstSize = 0 then none
    else some ⟨s.interface.pushConstOffset, s.interface.pushConstSize, s.stage.flag⟩
  | .pushConst stage offset size => some ⟨offset, size, stage.flag⟩

/-- The ranges that are declared by a run of calls. -/
def declaredRanges (calls : List Call) : List PushConstRange := calls.filterMap Call.range?

namespace DescriptorMapping

def call (m : DescriptorMapping) : Call → DescriptorMapping
  | .register call => m.register call
  | .pushConst stage offset size => m.declarePushConst stage offset size

/-- The mapping that a run of calls of any kind makes of an empty one. -/
def ofRun (calls : List Call) : DescriptorMapping := calls.foldl call {}

theorem pushConst_declarePushConst (m : DescriptorMapping) (stage : Stage) (offset size : UInt32) :
    (m.declarePushConst stage offset size).pushConst =
      PushConstRange.merge m.pushConst ⟨offset, size, stage.flag⟩ := by
  rw [declarePushConst]
  cases m.pushConst <;> rfl

/-- Declared slots leave the range alone. -/
theorem pushConst_foldl_declare (m : DescriptorMapping) (stage : Stage)
    (decls : List ResourceSlot) :
    (decls.foldl (fun m decl => m.declare stage decl) m).pushConst = m.pushConst := by
  induction decls generalizing m with
  | nil => rfl
  | cons decl rest ih => exact ih (m.declare stage decl)

/-- A shader without push constants leaves it alone too, and any other merges its own range. -/
theorem pushConst_declareSlots (s : Shader) (m : DescriptorMapping) :
    (s.declareSlots m).pushConst =
      if s.interface.pushConstSize = 0 then m.pushConst
      else PushConstRange.merge m.pushConst
        ⟨s.interface.pushConstOffset, s.interface.pushConstSize, s.stage.flag⟩ := by
  rw [Shader.declareSlots]
  split
  · exact pushConst_foldl_declare m s.stage s.slots
  · rw [pushConst_declarePushConst, pushConst_foldl_declare]

theorem pushConst_call (m : DescriptorMapping) (c : Call) :
    (m.call c).pushConst = (c.range?.map (PushConstRange.merge m.pushConst)).getD m.pushConst := by
  match c with
  | .register (.slot _ _) => rfl
  | .register (.shader s) =>
    rw [Call.range?, call, register, pushConst_declareSlots]
    split <;> rfl
  | .pushConst stage offset size => exact pushConst_declarePushConst m stage offset size

/-- The range of a mapping is that of all declared ranges, merged in the order of the calls. -/
theorem pushConst_ofRun (calls : List Call) :
    (ofRun calls).pushConst = (declaredRanges calls).foldl PushConstRange.merge none := by
  induction calls using List.reverseRecOn with
  | nil => rfl
  | append_singleton calls c ih =>
      rw [ofRun, List.foldl_concat, ← ofRun, pushConst_call, declaredRanges, List.filterMap_append,
        List.foldl_append, ← declaredRanges, ← ih]
      cases hRange : c.range? <;> simp [hRange]

/-- Two or more declared ranges are merged into their clamped hull, whichever calls come between
them. No size is taken of a range whose end lies in front of its start, and calls that declare the
same ranges in another order store the same. -/
theorem pushConst_clampedHull (calls : List Call) (hTwo : 2 ≤ (declaredRanges calls).length) :
    ∃ r, (ofRun calls).pushConst = some r ∧ r.ClampedHull (declaredRanges calls) ∧
      (declaredRanges calls).foldlM PushConstRange.mergeChecked none = .ok (some r) ∧
      ∀ other : List Call, (declaredRanges calls).Perm (declaredRanges other) →
        (ofRun other).pushConst = some r := by
  obtain ⟨r, hFold, hHull⟩ := PushConstRange.exists_clampedHull hTwo
  refine ⟨r, (pushConst_ofRun calls).trans hFold, hHull, ?_, fun other hPerm => ?_⟩
  · rw [PushConstRange.foldlM_mergeChecked, hFold]
  · obtain ⟨s, hOther, hOtherHull⟩ := PushConstRange.exists_clampedHull (hPerm.length_eq ▸ hTwo)
    rw [pushConst_ofRun, hOther, (hHull.perm hPerm).unique hOtherHull]

/-- The first range runs past the end of the address space, and so does the second one. -/
def farCalls : List Call :=
  [.pushConst .vertex 0xfffffffb 16,
   .register (.slot .vertex { slot := 3, descriptorType := .sampler }),
   .pushConst .fragment 8 0xffffffff]

/-- A range that ends past the largest number is clamped, whichever call comes first. -/
theorem pushConst_clampedHull_farCalls :
    2 ≤ (declaredRanges farCalls).length ∧
      (ofRun farCalls).pushConst = some ⟨8, 0xfffffff7, 0x11⟩ ∧
      (ofRun farCalls.reverse).pushConst = some ⟨8, 0xfffffff7, 0x11⟩ := by
  have hTwo : 2 ≤ (declaredRanges farCalls).length := by decide
  have hStored : (ofRun farCalls).pushConst = some ⟨8, 0xfffffff7, 0x11⟩ := by decide
  obtain ⟨r, hSome, -, -, hOrder⟩ := pushConst_clampedHull farCalls hTwo
  have hReversed : (declaredRanges farCalls).Perm (declaredRanges farCalls.reverse) :=
    (List.reverse_perm farCalls).symm.filterMap _
  exact ⟨hTwo, hStored, (hOrder _ hReversed).trans (hSome.symm.trans hStored)⟩

end DescriptorMapping

end ShaderBackend.Shader
