import ShaderBackend.Proofs.Signature.Reading
import Mathlib.Tactic.Choose
import Mathlib.Tactic.MkIffOfInductiveProp

/-! The grammar of signature chunks. A chunk is accepted if and only if its records are inside the bytes,
their names are, and their component types exist; and what is read are the words of the records. -/
namespace ShaderBackend.Signature

variable {tag : Tag} {data : List UInt8} {start : Nat} {entry : Entry} {r next : Cursor}

/-- Bytes of a record. -/
def Tag.stride (tag : Tag) : Nat := 4 * tag.recordLength

/-- The words that every record has. -/
inductive Field where
  | nameOffset
  | semanticIndex
  | systemValue
  | componentType
  | register
  | mask
  deriving DecidableEq, Repr

/-- Place among these words. -/
def Field.index : Field → Nat
  | nameOffset => 0
  | semanticIndex => 1
  | systemValue => 2
  | componentType => 3
  | register => 4
  | mask => 5

/-- Where a word of a record stands. The stream word, if there is one, stands in front of all. -/
def Tag.place (tag : Tag) (start : Nat) (field : Field) : Nat :=
  start + 4 * tag.hasStream.toNat + 4 * field.index

/-- A word of the record that starts here. -/
def fieldAt (tag : Tag) (data : List UInt8) (start : Nat) (field : Field) : UInt32 :=
  wordAt data (tag.place start field)

/-- The record that starts here lies inside the bytes and reads as this element. -/
@[mk_iff]
structure Decodes (tag : Tag) (data : List UInt8) (start : Nat) (entry : Entry) : Prop where
  inside : start + tag.stride ≤ data.length
  stream : entry.stream = if tag.hasStream then wordAt data start else 0
  semanticName : NameAt data (fieldAt tag data start .nameOffset).toNat entry.semanticName
  semanticIndex : entry.semanticIndex = fieldAt tag data start .semanticIndex
  systemValue : entry.systemValue = fieldAt tag data start .systemValue
  componentType :
    ComponentType.ofIndex? (fieldAt tag data start .componentType) = some entry.componentType
  register : entry.register = fieldAt tag data start .register
  mask : entry.mask = .ofNat (fieldAt tag data start .mask).toNat

/-- Reads what follows the component type of a record. -/
def readTail (tag : Tag) (element : UInt32 → UInt32 → Entry) (r : Cursor) :
    Except RecordError (Entry × Cursor) := do
  let (register, r) ← reading r.word
  let (mask, r) ← reading r.word
  let r ← if tag.hasPrecision then (·.2) <$> reading r.word else pure r
  return (element register mask, r)

/-- Reads what follows the stream word of a record. -/
def readFields (tag : Tag) (stream : UInt32) (r : Cursor) : Except RecordError (Entry × Cursor) := do
  let (nameOffset, r) ← reading r.word
  let names ← reading (r.seek nameOffset.toNat)
  let (semanticName, _) ← reading names.string
  let (semanticIndex, r) ← reading r.word
  let (systemValue, r) ← reading r.word
  let (typeIndex, r) ← reading r.word
  match ComponentType.ofIndex? typeIndex with
  | some componentType =>
    readTail tag (fun register mask =>
      { semanticName, semanticIndex, systemValue, componentType, register,
        mask := .ofNat mask.toNat, stream }) r
  | none => throw (.componentTypeOutOfRange typeIndex)

theorem readRecord_eq (tag : Tag) (r : Cursor) :
    readRecord tag r = (if tag.hasStream then reading r.word else pure (0, r)) >>=
      fun (stream, r) => readFields tag stream r := by
  unfold readRecord readFields readTail
  cases tag.hasStream <;> rfl

/-- A precision word is passed over. -/
theorem precision_eq_ok_iff (hInside : r.position ≤ r.data.length) :
    (if tag.hasPrecision then (·.2) <$> reading r.word else pure r) = .ok next ↔
      r.position + 4 * tag.hasPrecision.toNat ≤ r.data.length ∧
        next = r.advance (4 * tag.hasPrecision.toNat) := by
  cases tag.hasPrecision with
  | false => simpa [hInside, Cursor.advance, pure, Except.pure] using eq_comm
  | true => simp [map_eq_ok_iff, reading_eq_ok_iff, Cursor.word_eq_ok_iff]

theorem readTail_eq_ok_iff {element : UInt32 → UInt32 → Entry} :
    readTail tag element r = .ok (entry, next) ↔
      r.position + 4 * (2 + tag.hasPrecision.toNat) ≤ r.data.length ∧
        entry = element (wordAt r.data r.position) (wordAt r.data (r.position + 4)) ∧
        next = r.advance (4 * (2 + tag.hasPrecision.toNat)) := by
  have hTail : readTail tag element r = reading r.word >>= fun (register, r) =>
      reading r.word >>= fun (mask, r) =>
        (if tag.hasPrecision then (·.2) <$> reading r.word else pure r) >>= fun r =>
          pure (element register mask, r) := by
    unfold readTail
    cases tag.hasPrecision <;> rfl
  simp only [hTail, bind_eq_ok_iff, Prod.exists, reading_eq_ok_iff, Cursor.word_eq_ok_iff]
  constructor
  · rintro ⟨register, afterRegister, ⟨hRegister, rfl, rfl⟩, mask, afterMask, ⟨hMask, rfl, rfl⟩,
      last, hPrecision, h⟩
    cases h
    obtain ⟨hInside, rfl⟩ := (precision_eq_ok_iff (by simpa using hMask)).1 hPrecision
    simp only [Cursor.advance_advance, Cursor.data_advance, Cursor.position_advance] at hInside
    refine ⟨by omega, rfl, ?_⟩
    rw [Cursor.advance_advance, Cursor.advance_advance]
    congr 1
    omega
  · rintro ⟨hInside, rfl, rfl⟩
    have hMask : ((r.advance 4).advance 4).position ≤ ((r.advance 4).advance 4).data.length := by
      simp only [Cursor.advance_advance, Cursor.data_advance, Cursor.position_advance]
      omega
    refine ⟨_, _, ⟨by omega, rfl, rfl⟩, _, _, ⟨by simpa using hMask, rfl, rfl⟩, _,
      (precision_eq_ok_iff hMask).2 ⟨?_, rfl⟩, ?_⟩
    · simp only [Cursor.advance_advance, Cursor.data_advance, Cursor.position_advance]
      omega
    · rw [Cursor.advance_advance, Cursor.advance_advance]
      congr 3
      omega

theorem readFields_eq_ok_iff {stream : UInt32} :
    readFields tag stream r = .ok (entry, next) ↔
      (r.position + 4 * (6 + tag.hasPrecision.toNat) ≤ r.data.length ∧
        NameAt r.data (wordAt r.data r.position).toNat entry.semanticName ∧
        entry.semanticIndex = wordAt r.data (r.position + 4) ∧
        entry.systemValue = wordAt r.data (r.position + 8) ∧
        ComponentType.ofIndex? (wordAt r.data (r.position + 12)) = some entry.componentType ∧
        entry.register = wordAt r.data (r.position + 16) ∧
        entry.mask = .ofNat (wordAt r.data (r.position + 20)).toNat ∧ entry.stream = stream) ∧
      next = r.advance (4 * (6 + tag.hasPrecision.toNat)) := by
  simp only [readFields, bind_eq_ok_iff, Prod.exists, reading_eq_ok_iff, Cursor.word_eq_ok_iff]
  constructor
  · rintro ⟨nameOffset, afterName, ⟨hName, rfl, rfl⟩, names, hSeek, name, rest, hString,
      index, afterIndex, ⟨hIndex, rfl, rfl⟩, value, afterValue, ⟨hValue, rfl, rfl⟩,
      typeIndex, afterType, ⟨hType, rfl, rfl⟩, h⟩
    split at h
    · rename_i type hSome
      obtain ⟨hInside, rfl, rfl⟩ := readTail_eq_ok_iff.1 h
      have hNameAt := Cursor.seek_string_iff.1 ⟨names, hSeek, rest, hString⟩
      simp only [Cursor.advance_advance, Cursor.data_advance, Cursor.position_advance]
        at hInside hSome hNameAt
      refine ⟨⟨by omega, hNameAt, rfl, rfl, hSome, rfl, rfl, rfl⟩, ?_⟩
      simp only [Cursor.advance_advance]
      congr 1
      omega
    · cases h
  · rintro ⟨⟨hInside, hName, hIndex, hValue, hType, hRegister, hMask, hStream⟩, rfl⟩
    obtain ⟨names, hSeek, rest, hString⟩ := Cursor.seek_string_iff.2 hName
    refine ⟨_, _, ⟨by omega, rfl, rfl⟩, names, hSeek, _, rest, hString, _, _, ⟨?_, rfl, rfl⟩,
      _, _, ⟨?_, rfl, rfl⟩, _, _, ⟨?_, rfl, rfl⟩, ?_⟩
    all_goals simp only [Cursor.advance_advance, Cursor.data_advance, Cursor.position_advance]
    · omega
    · omega
    · omega
    · rw [hType]
      refine readTail_eq_ok_iff.2 ⟨?_, ?_, ?_⟩
      · simp only [Cursor.data_advance, Cursor.position_advance]
        omega
      · obtain ⟨name, index, value, type, register, mask, stream⟩ := entry
        simp only at hIndex hValue hRegister hMask hStream
        simp [hIndex, hValue, hRegister, hMask, hStream]
      · rw [Cursor.advance_advance]
        congr 1
        omega

theorem stream_eq_ok_iff {stream : UInt32} :
    (if tag.hasStream then reading r.word else pure (0, r)) = .ok (stream, next) ↔
      (tag.hasStream = true → r.position + 4 ≤ r.data.length) ∧
        stream = (if tag.hasStream then wordAt r.data r.position else 0) ∧
        next = r.advance (4 * tag.hasStream.toNat) := by
  cases tag.hasStream with
  | false =>
      simp only [Bool.false_eq_true, ↓reduceIte, pure, Except.pure, Except.ok.injEq, Prod.mk.injEq,
        false_implies, true_and]
      exact and_congr eq_comm eq_comm
  | true => simp [reading_eq_ok_iff, Cursor.word_eq_ok_iff]

/-- A record is read if and only if it lies inside the bytes and reads as an element. -/
theorem readRecord_eq_ok_iff :
    readRecord tag r = .ok (entry, next) ↔
      Decodes tag r.data r.position entry ∧ next = r.advance tag.stride := by
  have hStride : tag.stride = 4 * tag.hasStream.toNat + 4 * (6 + tag.hasPrecision.toNat) := by
    simp only [Tag.stride, Tag.recordLength]
    omega
  simp only [readRecord_eq, bind_eq_ok_iff, Prod.exists, stream_eq_ok_iff, hStride]
  constructor
  · rintro ⟨stream, after, ⟨-, rfl, rfl⟩, h⟩
    obtain ⟨⟨hInside, hName, hIndex, hValue, hType, hRegister, hMask, hStream⟩, rfl⟩ :=
      readFields_eq_ok_iff.1 h
    refine ⟨⟨?_, hStream, hName, hIndex, hValue, hType, hRegister, hMask⟩, Cursor.advance_advance _ _⟩
    simp only [Cursor.data_advance, Cursor.position_advance] at hInside
    omega
  · rintro ⟨h, rfl⟩
    have hInside := h.inside
    refine ⟨_, _, ⟨fun hStream => ?_, rfl, rfl⟩, readFields_eq_ok_iff.2 ⟨⟨?_, h.semanticName,
      h.semanticIndex, h.systemValue, h.componentType, h.register, h.mask, h.stream⟩, ?_⟩⟩
    · rw [hStride, hStream, Bool.toNat_true] at hInside
      omega
    · simp only [Cursor.data_advance, Cursor.position_advance]
      omega
    · rw [Cursor.advance_advance]

/-- A place holds an element if and only if its record lies inside the bytes, with a name that does and
a component type that there is. -/
theorem exists_decodes_iff :
    (∃ entry, Decodes tag data start entry) ↔
      start + tag.stride ≤ data.length ∧
        (∃ name, NameAt data (fieldAt tag data start .nameOffset).toNat name) ∧
        fieldAt tag data start .componentType < 4 := by
  constructor
  · rintro ⟨entry, h⟩
    obtain ⟨hInside, -⟩ := List.getElem?_eq_some_iff.1 h.componentType
    exact ⟨h.inside, ⟨_, h.semanticName⟩, UInt32.lt_iff_toNat_lt.2 hInside⟩
  · rintro ⟨hInside, ⟨name, hName⟩, hType⟩
    have hIndex : (fieldAt tag data start .componentType).toNat < ComponentType.all.length :=
      UInt32.lt_iff_toNat_lt.1 hType
    exact ⟨{ semanticName := name
             semanticIndex := fieldAt tag data start .semanticIndex
             systemValue := fieldAt tag data start .systemValue
             componentType := ComponentType.all[(fieldAt tag data start .componentType).toNat]
             register := fieldAt tag data start .register
             mask := .ofNat (fieldAt tag data start .mask).toNat
             stream := if tag.hasStream then wordAt data start else 0 },
      hInside, rfl, hName, rfl, rfl, List.getElem?_eq_getElem hIndex, rfl, rfl⟩

/-- Records are read one after the other. -/
theorem readRecords_eq_ok_iff {count index : Nat} {entries : List Entry} :
    readRecords tag count index r = .ok entries ↔ entries.length = count ∧
      ∀ i entry, entries[i]? = some entry → Decodes tag r.data (r.position + i * tag.stride) entry := by
  induction count generalizing index r entries with
  | zero =>
      rw [readRecords, Except.ok.injEq, List.length_eq_zero_iff]
      constructor
      · rintro rfl
        exact ⟨rfl, fun _ _ hAt => nomatch hAt⟩
      · rintro ⟨rfl, -⟩
        rfl
  | succ count ih =>
      simp only [readRecords, bind_eq_ok_iff, mapError_eq_ok_iff, Prod.exists, readRecord_eq_ok_iff, ih]
      constructor
      · rintro ⟨first, after, ⟨hFirst, rfl⟩, rest, ⟨hLength, hRest⟩, h⟩
        cases h
        refine ⟨congrArg (· + 1) hLength, fun i entry hAt => ?_⟩
        cases i with
        | zero =>
            cases hAt
            rwa [Nat.zero_mul, Nat.add_zero]
        | succ i =>
            have hLater := hRest i entry hAt
            rw [Cursor.data_advance, Cursor.position_advance] at hLater
            rwa [Nat.succ_mul, Nat.add_comm (i * tag.stride), ← Nat.add_assoc]
      · rintro ⟨hLength, hEach⟩
        obtain ⟨first, rest, rfl⟩ := List.exists_cons_of_length_eq_add_one hLength
        have hFirst := hEach 0 first rfl
        rw [Nat.zero_mul, Nat.add_zero] at hFirst
        refine ⟨first, _, ⟨hFirst, rfl⟩, rest, ⟨Nat.succ.inj hLength, fun i entry hAt => ?_⟩, rfl⟩
        have hLater := hEach (i + 1) entry hAt
        rw [Cursor.data_advance, Cursor.position_advance]
        rwa [Nat.succ_mul, Nat.add_comm (i * tag.stride), ← Nat.add_assoc] at hLater

/-- Number of elements that a chunk announces. -/
def elementCount (data : List UInt8) (position : Nat) : Nat := (wordAt data position).toNat

/-- Where a record of a chunk begins. -/
def Tag.recordStart (tag : Tag) (position index : Nat) : Nat := position + 8 + index * tag.stride

/-- A chunk of the grammar: count and reserved word, then records that lie inside the bytes, with names
that do and component types that there are. -/
structure WellFormed (tag : Tag) (data : List UInt8) (position : Nat) : Prop where
  header : position + 8 ≤ data.length
  inside : ∀ index < elementCount data position,
    tag.recordStart position index + tag.stride ≤ data.length
  named : ∀ index < elementCount data position, ∃ name,
    NameAt data (fieldAt tag data (tag.recordStart position index) .nameOffset).toNat name
  typed : ∀ index < elementCount data position,
    fieldAt tag data (tag.recordStart position index) .componentType < 4

/-- The chunk is read as these elements. -/
@[mk_iff]
structure Reads (tag : Tag) (data : List UInt8) (position : Nat) (table : Table) : Prop where
  header : position + 8 ≤ data.length
  count : table.entries.length = elementCount data position
  decodes : ∀ index entry, table.entries[index]? = some entry →
    Decodes tag data (tag.recordStart position index) entry

/-- A place holds one element at most. -/
theorem Decodes.unique {other : Entry} (h : Decodes tag data start entry)
    (hOther : Decodes tag data start other) : entry = other := by
  obtain ⟨name, index, value, type, register, mask, stream⟩ := entry
  obtain ⟨-, hStream, hName, hIndex, hValue, hType, hRegister, hMask⟩ := h
  obtain ⟨-, hStreamOther, hNameOther, hIndexOther, hValueOther, hTypeOther, hRegisterOther,
    hMaskOther⟩ := hOther
  simp only at hStream hName hIndex hValue hType hRegister hMask
  rw [hName.unique hNameOther, hIndex, hValue, hRegister, hMask, hStream, ← hIndexOther,
    ← hValueOther, ← hRegisterOther, ← hMaskOther, ← hStreamOther,
    Option.some.inj (hType.symm.trans hTypeOther)]

theorem exists_reads_iff {position : Nat} :
    (∃ table, Reads tag data position table) ↔ WellFormed tag data position := by
  constructor
  · rintro ⟨table, h⟩
    have hRecord : ∀ index < elementCount data position, ∃ entry,
        Decodes tag data (tag.recordStart position index) entry := by
      intro index hIndex
      rw [← h.count] at hIndex
      exact ⟨_, h.decodes index _ (List.getElem?_eq_getElem hIndex)⟩
    exact
      { header := h.header
        inside := fun index hIndex => (exists_decodes_iff.1 (hRecord index hIndex)).1
        named := fun index hIndex => (exists_decodes_iff.1 (hRecord index hIndex)).2.1
        typed := fun index hIndex => (exists_decodes_iff.1 (hRecord index hIndex)).2.2 }
  · intro h
    have hRecord (index : Fin (elementCount data position)) : ∃ entry,
        Decodes tag data (tag.recordStart position index) entry :=
      exists_decodes_iff.2 ⟨h.inside index index.2, h.named index index.2, h.typed index index.2⟩
    choose element hElement using hRecord
    refine ⟨⟨List.ofFn element⟩, h.header, List.length_ofFn, fun index entry hAt => ?_⟩
    obtain ⟨hIndex, rfl⟩ := List.getElem?_eq_some_iff.1 hAt
    rw [List.getElem_ofFn]
    exact hElement ⟨index, by simpa using hIndex⟩

/-- Records that lie inside the bytes pass the comparison of count and length. -/
theorem Reads.fits {position : Nat} {table : Table} (h : Reads tag data position table) :
    elementCount data position * shortestRecord ≤ data.length - (position + 8) := by
  have hStride : shortestRecord ≤ tag.stride := by
    simp only [shortestRecord, Tag.stride, Tag.recordLength]
    omega
  cases hCount : elementCount data position with
  | zero => simp
  | succ last =>
      have hLast := (exists_reads_iff.1 ⟨table, h⟩).inside last (by omega)
      have hProduct := Nat.mul_le_mul_left (last + 1) hStride
      rw [Tag.recordStart] at hLast
      rw [Nat.succ_mul last tag.stride] at hProduct
      omega

/-- Reads a chunk without comparing its count with its length. -/
def Table.parseUnchecked (r : Cursor) (tag : Tag) : Except ChunkError Table := do
  let (count, r) ← (reading r.word).mapError (.inPart tag .elementCount)
  let r ← (reading (r.skip 4)).mapError (.inPart tag .reservedWord)
  let entries ← readRecords tag count.toNat 0 r
  return ⟨entries⟩

theorem parseUnchecked_eq_ok_iff {table : Table} :
    Table.parseUnchecked r tag = .ok table ↔ Reads tag r.data r.position table := by
  simp only [Table.parseUnchecked, bind_eq_ok_iff, mapError_eq_ok_iff, reading_eq_ok_iff, Prod.exists,
    Cursor.word_eq_ok_iff, Cursor.skip_eq_ok_iff, readRecords_eq_ok_iff]
  constructor
  · rintro ⟨count, afterCount, ⟨hCount, rfl, rfl⟩, afterHeader, ⟨hHeader, rfl⟩, entries,
      ⟨hLength, hEach⟩, h⟩
    cases h
    simp only [Cursor.advance_advance, Cursor.data_advance, Cursor.position_advance] at hHeader hEach
    exact ⟨by omega, hLength, hEach⟩
  · intro h
    have hHeader := h.header
    refine ⟨_, _, ⟨by omega, rfl, rfl⟩, _, ⟨?_, rfl⟩, table.entries, ⟨h.count, ?_⟩, rfl⟩
    · simp only [Cursor.data_advance, Cursor.position_advance]
      omega
    · simp only [Cursor.advance_advance, Cursor.data_advance, Cursor.position_advance]
      exact h.decodes

/-- The comparison of count and length keeps out nothing that would be read. -/
theorem parse_eq_ok_iff {table : Table} :
    Table.parse r tag = .ok table ↔ Reads tag r.data r.position table := by
  constructor
  · intro h
    rw [← parseUnchecked_eq_ok_iff]
    simp only [Table.parse, Table.parseUnchecked, bind_eq_ok_iff] at h ⊢
    obtain ⟨first, hCount, after, hHeader, h⟩ := h
    split at h
    · cases h
    · exact ⟨first, hCount, after, hHeader, bind_eq_ok_iff.1 h⟩
  · intro h
    have hUnchecked := parseUnchecked_eq_ok_iff.2 h
    have hFits := h.fits
    simp only [Table.parse, Table.parseUnchecked, bind_eq_ok_iff] at hUnchecked ⊢
    obtain ⟨⟨count, after⟩, hCount, afterHeader, hHeader, hRest⟩ := hUnchecked
    refine ⟨(count, after), hCount, afterHeader, hHeader, ?_⟩
    obtain ⟨-, rfl, rfl⟩ := Cursor.word_eq_ok_iff.1 (reading_eq_ok_iff.1 (mapError_eq_ok_iff.1 hCount))
    obtain ⟨-, rfl⟩ := Cursor.skip_eq_ok_iff.1 (reading_eq_ok_iff.1 (mapError_eq_ok_iff.1 hHeader))
    exact (if_neg (Nat.not_lt.2 hFits)).trans (bind_eq_ok_iff.2 hRest)

end ShaderBackend.Signature
