import ShaderBackend.Proofs.Encoding
import ShaderBackend.Proofs.Signature.Grammar

/-! Reading a chunk, from outside. It succeeds for the chunks of the grammar and for no others, and it
looks only at some of the bytes: the reserved word, the precision words and what a mask holds above its
four components are passed over, unless a name lies there. -/
namespace ShaderBackend.Signature

variable {tag : Tag} {data other : List UInt8} {position index place : Nat}

/-- The low four bits of a word are in its first byte. -/
theorem wordOfBytes_mod_sixteen (a b c d : UInt8) :
    (Spirv.wordOfBytes a b c d).toNat % 16 = a.toNat % 16 := by
  rw [Spirv.toNat_wordOfBytes]
  omega

/-- A word depends on its four bytes only. -/
theorem wordAt_congr (h : ∀ offset < 4, other[place + offset]? = data[place + offset]?) :
    wordAt other place = wordAt data place := by
  have hByte (offset : Nat) (hOffset : offset < 4) :
      other.getD (place + offset) 0 = data.getD (place + offset) 0 := by
    rw [List.getD_eq_getElem?_getD, List.getD_eq_getElem?_getD, h offset hOffset]
  rw [wordAt, wordAt, hByte 1 (by omega), hByte 2 (by omega), hByte 3 (by omega),
    show other.getD place 0 = _ from hByte 0 (by omega)]
  rfl

/-- Bytes that say nothing of the elements: the reserved word and, in every record, what stands behind
the lowest byte of the mask. -/
def IsSpare (tag : Tag) (data : List UInt8) (position place : Nat) : Prop :=
  (position + 4 ≤ place ∧ place < position + 8) ∨
    ∃ index < elementCount data position,
      tag.place (tag.recordStart position index) .mask < place ∧
        place < tag.recordStart position index + tag.stride

/-- The lowest bytes of the masks. -/
def IsMask (tag : Tag) (data : List UInt8) (position place : Nat) : Prop :=
  ∃ index < elementCount data position, place = tag.place (tag.recordStart position index) .mask

/-- The chunks are alike but for spare bytes and spare bits of the masks, and the same names are found
in both. -/
structure SameButSpare (tag : Tag) (data other : List UInt8) (position : Nat) : Prop where
  length : other.length = data.length
  bytes : ∀ place, ¬ IsSpare tag data position place → ¬ IsMask tag data position place →
    other[place]? = data[place]?
  masks : ∀ place, IsMask tag data position place →
    (other.getD place 0).toNat % 16 = (data.getD place 0).toNat % 16
  names : ∀ index < elementCount data position, ∀ name,
    let offset := (fieldAt tag data (tag.recordStart position index) .nameOffset).toNat
    NameAt other offset name ↔ NameAt data offset name

/-- Records stand one behind the other. -/
theorem recordStart_le (tag : Tag) (position : Nat) {first second : Nat} (h : first < second) :
    tag.recordStart position first + tag.stride ≤ tag.recordStart position second := by
  have hProduct := Nat.mul_le_mul_right tag.stride (Nat.succ_le_of_lt h)
  rw [Nat.succ_mul] at hProduct
  simp only [Tag.recordStart]
  omega

/-- The mask is the last thing that is read in a record. -/
theorem mask_lt_stride (tag : Tag) (start : Nat) : tag.place start .mask + 4 ≤ start + tag.stride := by
  simp only [Tag.place, Tag.stride, Tag.recordLength, Field.index]
  omega

/-- In front of its mask, a record has no spare bytes. -/
theorem not_spare_of_record (hFrom : tag.recordStart position index ≤ place)
    (hTo : place < tag.place (tag.recordStart position index) .mask) :
    ¬ IsSpare tag data position place ∧ ¬ IsMask tag data position place := by
  have hStride := mask_lt_stride tag (tag.recordStart position index)
  -- The place lies in one record, so that it is not behind the mask of another.
  have hApart (number : Nat) (hMask : tag.place (tag.recordStart position number) .mask ≤ place) :
      tag.recordStart position number + tag.stride ≤ place := by
    obtain hBefore | rfl | hBehind := Nat.lt_trichotomy number index
    · have hEnd := recordStart_le tag position hBefore
      omega
    · omega
    · have hEnd := recordStart_le tag position hBehind
      simp only [Tag.place] at hMask
      omega
  constructor
  · rintro (⟨hReserved, hEnd⟩ | ⟨number, -, hMask, hEnd⟩)
    · simp only [Tag.recordStart] at hFrom
      omega
    · have hOutside := hApart number (by omega)
      omega
  · rintro ⟨number, -, rfl⟩
    have hOutside := hApart number (Nat.le_refl _)
    have hInside := mask_lt_stride tag (tag.recordStart position number)
    omega

namespace SameButSpare

variable (h : SameButSpare tag data other position)
include h

theorem elementCount_eq : elementCount other position = elementCount data position := by
  refine congrArg UInt32.toNat (wordAt_congr fun offset hOffset => h.bytes _ ?_ ?_)
  · rintro (⟨hReserved, -⟩ | ⟨index, -, hMask, -⟩)
    · omega
    · simp only [Tag.place, Tag.recordStart] at hMask
      omega
  · rintro ⟨index, -, hMask⟩
    simp only [Tag.place, Tag.recordStart] at hMask
    omega

theorem wordAt_eq (hFrom : tag.recordStart position index ≤ place)
    (hTo : place + 4 ≤ tag.place (tag.recordStart position index) .mask) :
    wordAt other place = wordAt data place := by
  refine wordAt_congr fun offset hOffset => ?_
  have hBegin : tag.recordStart position index ≤ place + offset := by omega
  have hPlace : ¬ IsSpare tag data position (place + offset) ∧
      ¬ IsMask tag data position (place + offset) := not_spare_of_record hBegin (by omega)
  exact h.bytes _ hPlace.1 hPlace.2

/-- Every field but the mask lies outside the spare bytes, so both chunks have it in common. -/
theorem fieldAt_eq {field : Field} (hField : field ≠ .mask) :
    fieldAt tag other (tag.recordStart position index) field =
      fieldAt tag data (tag.recordStart position index) field := by
  have hIndex : field.index < 5 := by cases field <;> simp_all [Field.index]
  have hFrom : tag.recordStart position index ≤
      tag.place (tag.recordStart position index) field := by
    simp only [Tag.place]
    omega
  refine h.wordAt_eq hFrom ?_
  simp only [Tag.place, Field.index] at hIndex ⊢
  omega

theorem stream_eq (hStream : tag.hasStream = true) :
    wordAt other (tag.recordStart position index) = wordAt data (tag.recordStart position index) := by
  refine h.wordAt_eq (Nat.le_refl _) ?_
  simp only [Tag.place, Field.index, hStream, Bool.toNat_true]
  omega

theorem mask_eq (hIndex : index < elementCount data position) :
    Components.ofNat (fieldAt tag other (tag.recordStart position index) .mask).toNat =
      .ofNat (fieldAt tag data (tag.recordStart position index) .mask).toNat := by
  have hLow := h.masks _ ⟨index, hIndex, rfl⟩
  refine congrArg Components.mk (BitVec.eq_of_toNat_eq ?_)
  rw [BitVec.toNat_ofNat, BitVec.toNat_ofNat, fieldAt, fieldAt, wordAt, wordAt, wordOfBytes_mod_sixteen,
    wordOfBytes_mod_sixteen, hLow]

/-- Records of chunks that differ in spare bytes only decode to the same entries. -/
theorem decodes_iff {entry : Entry} (hIndex : index < elementCount data position) :
    Decodes tag other (tag.recordStart position index) entry ↔
      Decodes tag data (tag.recordStart position index) entry := by
  have hStream : (if tag.hasStream then wordAt other (tag.recordStart position index) else 0) =
      if tag.hasStream then wordAt data (tag.recordStart position index) else 0 := by
    split
    · exact h.stream_eq ‹_›
    · rfl
  have hName := h.names index hIndex entry.semanticName
  rw [Signature.decodes_iff, Signature.decodes_iff, h.length, hStream, h.fieldAt_eq (by decide),
    h.fieldAt_eq (by decide), h.fieldAt_eq (by decide), h.fieldAt_eq (by decide),
    h.fieldAt_eq (by decide), h.mask_eq hIndex]
  exact and_congr_right fun _ => and_congr_right fun _ => and_congr_left fun _ => hName

theorem reads_iff {table : Table} : Reads tag other position table ↔ Reads tag data position table := by
  rw [Signature.reads_iff, Signature.reads_iff, h.length, h.elementCount_eq]
  refine and_congr_right fun _ => and_congr_right fun hLength => ?_
  refine forall_congr' fun index => forall_congr' fun entry => imp_congr_right fun hAt => ?_
  exact h.decodes_iff (hLength ▸ (List.getElem?_eq_some_iff.1 hAt).1)

end SameButSpare

/-- Where all names stand behind the records, spare bytes and bits make no difference. -/
theorem SameButSpare.of_names_behind (hLength : other.length = data.length)
    (hBytes : ∀ place, ¬ IsSpare tag data position place → ¬ IsMask tag data position place →
      other[place]? = data[place]?)
    (hMasks : ∀ place, IsMask tag data position place →
      (other.getD place 0).toNat % 16 = (data.getD place 0).toNat % 16)
    (hBehind : ∀ index < elementCount data position,
      tag.recordStart position (elementCount data position) ≤
        (fieldAt tag data (tag.recordStart position index) .nameOffset).toNat) :
    SameButSpare tag data other position where
  length := hLength
  bytes := hBytes
  masks := hMasks
  names := fun index hIndex name => by
    have hEnd {place number : Nat} (hNumber : number < elementCount data position)
        (hPlace : tag.recordStart position (elementCount data position) ≤ place) :
        tag.recordStart position number + tag.stride ≤ place :=
      (recordStart_le tag position hNumber).trans hPlace
    have hSame : other.drop (fieldAt tag data (tag.recordStart position index) .nameOffset).toNat =
        data.drop (fieldAt tag data (tag.recordStart position index) .nameOffset).toNat := by
      refine List.ext_getElem? fun offset => ?_
      rw [List.getElem?_drop, List.getElem?_drop]
      have hPlace := (hBehind index hIndex).trans (Nat.le_add_right _ offset)
      refine hBytes _ ?_ ?_
      · have hHeader : position + 8 ≤ tag.recordStart position (elementCount data position) :=
          Nat.le_add_right _ _
        rintro (⟨-, hReserved⟩ | ⟨number, hNumber, -, hInside⟩)
        · omega
        · have hBeyond := hEnd hNumber hPlace
          omega
      · rintro ⟨number, hNumber, hMask⟩
        have hBeyond := hEnd hNumber hPlace
        have hInside := mask_lt_stride tag (tag.recordStart position number)
        omega
    show NameAt other _ name ↔ NameAt data _ name
    simp only [NameAt, hSame]

/-- The table, or the kind of the fault. -/
def outcome (result : Except ChunkError Table) : Except String Table :=
  result.mapError (·.fault.kind)

/-- All faults of chunks are of one kind, so that the tables tell the outcomes apart. -/
theorem outcome_eq {first second : Except ChunkError Table}
    (h : ∀ table, first = .ok table ↔ second = .ok table) : outcome first = outcome second := by
  cases first with
  | ok table => rw [(h table).1 rfl]
  | error cause =>
      cases second with
      | ok table => exact absurd ((h table).2 rfl) nofun
      | error other => rfl

/-- What reading a chunk comes to. -/
structure ParsesExactly (r : Cursor) (tag : Tag) : Prop where
  /-- The chunks that are read are those of the grammar. -/
  accepts : (∃ table, Table.parse r tag = .ok table) ↔ WellFormed tag r.data r.position
  /-- Any other is malformed. -/
  rejects : ¬ WellFormed tag r.data r.position →
    ∃ cause, Table.parse r tag = .error cause ∧ cause.fault = .decode cause.message
  /-- A table has as many elements as announced, each of them what its record says. -/
  decodes : ∀ table, Table.parse r tag = .ok table →
    table.entries.length = elementCount r.data r.position ∧
      ∀ index < elementCount r.data r.position, ∀ entry, table.entries[index]? = some entry ↔
        Decodes tag r.data (tag.recordStart r.position index) entry
  /-- Nothing comes of comparing count and length first. -/
  unchecked : outcome (Table.parseUnchecked r tag) = outcome (Table.parse r tag)
  /-- Nothing comes of spare bytes and bits as long as the names are the same. -/
  blind : ∀ other, SameButSpare tag r.data other r.position →
    outcome (Table.parse { r with data := other } tag) = outcome (Table.parse r tag)

/-- A chunk is read if and only if it is of the grammar, and is read as its records say. -/
theorem parse_exact (r : Cursor) (tag : Tag) : ParsesExactly r tag where
  accepts := by
    rw [← exists_reads_iff]
    exact exists_congr fun _ => parse_eq_ok_iff
  rejects := fun hMalformed => by
    cases hParse : Table.parse r tag with
    | error cause => exact ⟨cause, rfl, rfl⟩
    | ok table => exact absurd (exists_reads_iff.1 ⟨table, parse_eq_ok_iff.1 hParse⟩) hMalformed
  decodes := fun table hParse => by
    have hReads := parse_eq_ok_iff.1 hParse
    refine ⟨hReads.count, fun index hIndex entry => ⟨hReads.decodes index entry, fun hEntry => ?_⟩⟩
    rw [← hReads.count] at hIndex
    have hAt := List.getElem?_eq_getElem hIndex
    rw [hAt, (hReads.decodes index _ hAt).unique hEntry]
  unchecked := outcome_eq fun _ => parseUnchecked_eq_ok_iff.trans parse_eq_ok_iff.symm
  blind := fun _ hSame => outcome_eq fun _ =>
    parse_eq_ok_iff.trans (hSame.reads_iff.trans parse_eq_ok_iff.symm)

/-- A record whose name stands in the place of the reserved word. -/
def namedInHeader : List UInt8 :=
  [4, 0, 0, 0, 0, 0, 0, 0, 0, 0, 0, 0, 3, 0, 0, 0, 0, 0, 0, 0, 15, 0, 0, 0]

/-- The reserved word shows in the table if a name stands there. -/
theorem reserved_word_read :
    ¬ ∀ (count reserved other rest : List UInt8) (tag : Tag), count.length = 4 →
      reserved.length = 4 → other.length = 4 →
        outcome (Table.parse { data := count ++ reserved ++ rest } tag) =
          outcome (Table.parse { data := count ++ other ++ rest } tag) := by
  intro hBlind
  have hTables := hBlind [1, 0, 0, 0] [0x41, 0, 0, 0] [0, 0, 0, 0] namedInHeader .isgn rfl rfl rfl
  revert hTables
  decide

end ShaderBackend.Signature
