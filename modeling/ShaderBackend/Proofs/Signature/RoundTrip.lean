import ShaderBackend.Proofs.Encoding
import ShaderBackend.Proofs.Signature.Grammar

/-! A chunk that was laid out is read back. Each record stands where the stride of the tag puts it, each
name where the names in front of it end, and what is written there is what is read. -/
namespace ShaderBackend.Signature

variable {tag : Tag} {reserved nameOffset : UInt32} {record : Record} {front back : List UInt8}

/-- A word that was written is read back at its offset. -/
theorem wordAt_bytesOfWord (word : UInt32) :
    wordAt (front ++ (Spirv.bytesOfWord word ++ back)) front.length = word := by
  have hByte (offset : Nat) :
      (front ++ (Spirv.bytesOfWord word ++ back)).getD (front.length + offset) 0 =
        (Spirv.bytesOfWord word ++ back).getD offset 0 := by
    rw [List.getD_eq_getElem?_getD, List.getElem?_append_right (Nat.le_add_right ..),
      Nat.add_sub_cancel_left, List.getD_eq_getElem?_getD]
  have hFirst := hByte 0
  rw [Nat.add_zero] at hFirst
  rw [wordAt, hFirst, hByte, hByte, hByte]
  exact Spirv.wordOfBytes_bytesOfWord word

/-- A word that was written is read where it stands. -/
theorem wordAt_bytesOfWords {words : List UInt32} {index : Nat} {word : UInt32}
    (hWord : words[index]? = some word) :
    wordAt (front ++ (Spirv.bytesOfWords words ++ back)) (front.length + 4 * index) = word := by
  induction words generalizing front index with
  | nil => cases hWord
  | cons head words ih =>
      have hBytes : Spirv.bytesOfWords (head :: words) ++ back =
          Spirv.bytesOfWord head ++ (Spirv.bytesOfWords words ++ back) := List.append_assoc ..
      rw [hBytes]
      cases index with
      | zero =>
          cases hWord
          rw [Nat.mul_zero, Nat.add_zero]
          exact wordAt_bytesOfWord _
      | succ index =>
          have hPlace : front.length + 4 * (index + 1) =
              (front ++ Spirv.bytesOfWord head).length + 4 * index := by
            rw [List.length_append, show (Spirv.bytesOfWord head).length = 4 from rfl]
            omega
          rw [hPlace, ← List.append_assoc]
          exact ih hWord

/-- A name that was written is found where it stands. -/
theorem nameAt_name (hText : '\x00' ∉ record.semanticName.toList) :
    NameAt (front ++ (record.name ++ back)) front.length record.semanticName := by
  refine ⟨Text.utf8 record.semanticName, back, ?_, ?_, Text.decode?_utf8 _⟩
  · rw [List.drop_left, Record.name, List.append_assoc]
    rfl
  · rwa [Text.zero_mem_utf8_iff]

/-- What a word of the record says. -/
def Record.field (record : Record) (nameOffset : UInt32) : Field → UInt32
  | .nameOffset => nameOffset
  | .semanticIndex => record.semanticIndex
  | .systemValue => record.systemValue
  | .componentType => record.componentType.index
  | .register => record.register
  | .mask => record.mask

/-- The fields of a record follow each other, behind its stream if it has one. -/
theorem Record.words_getElem? (field : Field) :
    (record.words tag nameOffset)[tag.hasStream.toNat + field.index]? =
      some (record.field nameOffset field) := by
  cases hStream : tag.hasStream <;> cases field <;> simp [words, Record.field, Field.index, hStream]

theorem Record.words_getElem?_zero (hStream : tag.hasStream = true) :
    (record.words tag nameOffset)[0]? = some record.stream := by
  simp [words, hStream]

/-- A field is read back by its place in the layout of the tag. -/
theorem fieldAt_words (field : Field) :
    fieldAt tag (front ++ (Spirv.bytesOfWords (record.words tag nameOffset) ++ back)) front.length field =
      record.field nameOffset field := by
  have hPlace : tag.place front.length field =
      front.length + 4 * (tag.hasStream.toNat + field.index) := by
    rw [Tag.place]
    omega
  rw [fieldAt, hPlace]
  exact wordAt_bytesOfWords (Record.words_getElem? field)

/-- A record that was written decodes as its element, if its name is where it says. -/
theorem decodes_words
    (hName : NameAt (front ++ (Spirv.bytesOfWords (record.words tag nameOffset) ++ back))
      nameOffset.toNat record.semanticName) :
    Decodes tag (front ++ (Spirv.bytesOfWords (record.words tag nameOffset) ++ back)) front.length
      (record.entry tag) where
  inside := by
    simp only [List.length_append, Spirv.length_bytesOfWords, Record.length_words, Tag.stride]
    omega
  stream := by
    rw [Record.entry]
    split
    · rename_i hStream
      exact (wordAt_bytesOfWords (Record.words_getElem?_zero hStream)).symm
    · rfl
  semanticName := by
    rw [fieldAt_words]
    exact hName
  semanticIndex := (fieldAt_words .semanticIndex).symm
  systemValue := (fieldAt_words .systemValue).symm
  componentType := by
    rw [fieldAt_words]
    exact record.componentType.ofIndex?_index
  register := (fieldAt_words .register).symm
  mask := by
    rw [fieldAt_words]
    rfl

/-- The bytes of names, one behind the other. -/
def nameBytes (records : List Record) : List UInt8 := records.flatMap Record.name

theorem recordWords_append (first second : List Record) (offset : Nat) :
    recordWords tag offset (first ++ second) =
      recordWords tag offset first ++ recordWords tag (offset + (nameBytes first).length) second := by
  induction first generalizing offset with
  | nil => rfl
  | cons record first ih =>
      rw [List.cons_append, recordWords, recordWords, ih, List.append_assoc, Nat.add_assoc]
      simp only [nameBytes, List.flatMap_cons, List.length_append]

/-- The bytes in front of the names: count, reserved word and records. -/
def headBytes (tag : Tag) (reserved : UInt32) (records : List Record) : List UInt8 :=
  Spirv.bytesOfWords (UInt32.ofNat records.length :: reserved ::
    recordWords tag (namesOffset tag records.length) records)

theorem chunk_eq (records : List Record) :
    chunk tag reserved records = headBytes tag reserved records ++ nameBytes records := rfl

/-- The records fill the space in front of the names. -/
theorem length_headBytes (records : List Record) :
    (headBytes tag reserved records).length = namesOffset tag records.length := by
  rw [headBytes, Spirv.length_bytesOfWords, List.length_cons, List.length_cons, length_recordWords,
    namesOffset]
  omega

theorem length_chunk (records : List Record) :
    (chunk tag reserved records).length =
      namesOffset tag records.length + (nameBytes records).length := by
  rw [chunk_eq, List.length_append, length_headBytes]

section Split

variable (tag reserved record) (first rest : List Record)

/-- The names in front of a record end where its own begins. -/
theorem nameAt_chunk (hText : '\x00' ∉ record.semanticName.toList) :
    NameAt (chunk tag reserved (first ++ record :: rest))
      (namesOffset tag (first ++ record :: rest).length + (nameBytes first).length)
      record.semanticName := by
  have hSplit : chunk tag reserved (first ++ record :: rest) =
      (headBytes tag reserved (first ++ record :: rest) ++ nameBytes first) ++
        (record.name ++ nameBytes rest) := by
    simp only [chunk_eq, nameBytes, List.flatMap_append, List.flatMap_cons, List.append_assoc]
  have hLength : (headBytes tag reserved (first ++ record :: rest) ++ nameBytes first).length =
      namesOffset tag (first ++ record :: rest).length + (nameBytes first).length := by
    rw [List.length_append, length_headBytes]
  rw [hSplit, ← hLength]
  exact nameAt_name hText

/-- The records in front of a record end where its own words begin. -/
theorem exists_chunk_eq :
    ∃ front back, chunk tag reserved (first ++ record :: rest) =
        front ++ (Spirv.bytesOfWords (record.words tag (UInt32.ofNat
          (namesOffset tag (first ++ record :: rest).length + (nameBytes first).length))) ++ back) ∧
      front.length = tag.recordStart 0 first.length := by
  let count := (first ++ record :: rest).length
  refine ⟨Spirv.bytesOfWords (UInt32.ofNat count :: reserved ::
      recordWords tag (namesOffset tag count) first),
    Spirv.bytesOfWords (recordWords tag
      (namesOffset tag count + (nameBytes first).length + record.name.length) rest) ++
        nameBytes (first ++ record :: rest), ?_, ?_⟩
  · rw [chunk_eq, headBytes, recordWords_append, recordWords]
    simp only [← List.append_assoc, ← Spirv.bytesOfWords_append]
    rfl
  · rw [Spirv.length_bytesOfWords, List.length_cons, List.length_cons, length_recordWords,
      Tag.recordStart, Tag.stride, Nat.mul_left_comm]
    omega

end Split

/-- Every record of a chunk that is not too long decodes as its element. -/
theorem decodes_chunk {records : List Record} {index : Nat}
    (hRecord : records[index]? = some record) (hText : '\x00' ∉ record.semanticName.toList)
    (hShort : (chunk tag reserved records).length < 2 ^ 32) :
    Decodes tag (chunk tag reserved records) (tag.recordStart 0 index) (record.entry tag) := by
  obtain ⟨first, rest, rfl, rfl⟩ : ∃ first rest, records = first ++ record :: rest ∧
      first.length = index := by
    obtain ⟨hIndex, rfl⟩ := List.getElem?_eq_some_iff.1 hRecord
    exact ⟨records.take index, records.drop (index + 1), by simp,
      List.length_take_of_le (Nat.le_of_lt hIndex)⟩
  have hOffset : namesOffset tag (first ++ record :: rest).length + (nameBytes first).length < 2 ^ 32 := by
    have hNames : (nameBytes first).length ≤ (nameBytes (first ++ record :: rest)).length := by
      rw [nameBytes, nameBytes, List.flatMap_append, List.length_append]
      exact Nat.le_add_right ..
    rw [length_chunk] at hShort
    omega
  have hName := nameAt_chunk tag reserved record first rest hText
  obtain ⟨front, back, hChunk, hFront⟩ :=
    exists_chunk_eq tag reserved record first rest
  rw [hChunk] at hName ⊢
  rw [← hFront]
  refine decodes_words ?_
  rwa [UInt32.toNat_ofNat', Nat.mod_eq_of_lt hOffset]

/-- The count in the header is that of the records. -/
theorem elementCount_chunk {records : List Record}
    (hShort : (chunk tag reserved records).length < 2 ^ 32) :
    elementCount (chunk tag reserved records) 0 = records.length := by
  have hCount : records.length < 2 ^ 32 := by
    have hStride : records.length ≤ records.length * tag.recordLength :=
      Nat.le_mul_of_pos_right _ (by rw [Tag.recordLength]; omega)
    rw [length_chunk, namesOffset] at hShort
    omega
  have hBytes : chunk tag reserved records = [] ++ (Spirv.bytesOfWord (UInt32.ofNat records.length) ++
      (Spirv.bytesOfWords (reserved :: recordWords tag (namesOffset tag records.length) records) ++
        nameBytes records)) := List.append_assoc ..
  have hWord : wordAt (chunk tag reserved records) 0 = UInt32.ofNat records.length := by
    rw [hBytes]
    exact wordAt_bytesOfWord _
  rw [elementCount, hWord, UInt32.toNat_ofNat', Nat.mod_eq_of_lt hCount]

/-- A chunk reads as the table of its records. -/
theorem reads_chunk {records : List Record}
    (hText : ∀ record ∈ records, '\x00' ∉ record.semanticName.toList)
    (hShort : (chunk tag reserved records).length < 2 ^ 32) :
    Reads tag (chunk tag reserved records) 0 ⟨records.map (Record.entry tag)⟩ where
  header := by
    rw [length_chunk, namesOffset]
    omega
  count := by
    rw [List.length_map]
    exact (elementCount_chunk hShort).symm
  decodes := fun index entry hEntry => by
    rw [List.getElem?_map] at hEntry
    obtain ⟨record, hRecord, rfl⟩ := Option.map_eq_some_iff.1 hEntry
    exact decodes_chunk hRecord (hText record (List.mem_of_getElem? hRecord)) hShort

/-- Of a written mask the low four bits come back. -/
theorem toNat_mask_entry : (record.entry tag).mask.toNat = record.mask.toNat % 16 :=
  BitVec.toNat_ofNat ..

/-- A stream comes back if the tag has one, and is zero otherwise. -/
theorem stream_entry :
    (record.entry tag).stream = if tag ∈ [.isg1, .osg1, .psg1, .osg5] then record.stream else 0 := by
  simp [Record.entry, Tag.hasStream, or_assoc]

/-- A chunk that was laid out is read back as its records, one element for each and in their order. Of
the masks their four components are kept, and the stream words where the tag has them. -/
theorem parse_chunk (tag : Tag) (reserved : UInt32) (records : List Record)
    (hText : ∀ record ∈ records, '\x00' ∉ record.semanticName.toList)
    (hShort : (chunk tag reserved records).length < 2 ^ 32) :
    Table.parse { data := chunk tag reserved records } tag = .ok ⟨records.map (Record.entry tag)⟩ ∧
      ∀ record ∈ records, (record.entry tag).mask.toNat = record.mask.toNat % 16 ∧
        (record.entry tag).stream =
          if tag ∈ [.isg1, .osg1, .psg1, .osg5] then record.stream else 0 :=
  ⟨parse_eq_ok_iff.2 (reads_chunk hText hShort), fun _ _ => ⟨toNat_mask_entry, stream_entry⟩⟩

/-- Two records with names of different lengths, the first of them not of ASCII letters. -/
def twoRecords : List Record :=
  [{ semanticName := "Größe", semanticIndex := 1, systemValue := 0, componentType := .float32
     register := 2, mask := 0x1f, stream := 3, precision := 5 },
    { semanticName := "", semanticIndex := 0, systemValue := 1, componentType := .sint32
      register := 0, mask := 0x4, stream := 0xffffffff, precision := 0 }]

/-- Two records with names of different lengths. -/
theorem parse_chunk_twoRecords :
    (∀ record ∈ twoRecords, '\x00' ∉ record.semanticName.toList) ∧
      (chunk .isg1 7 twoRecords).length < 2 ^ 32 ∧
      Table.parse { data := chunk .isg1 7 twoRecords } .isg1 =
        .ok ⟨twoRecords.map (Record.entry .isg1)⟩ := by
  have hText : ∀ record ∈ twoRecords, '\x00' ∉ record.semanticName.toList := by decide
  have hShort : (chunk .isg1 7 twoRecords).length < 2 ^ 32 := by decide
  exact ⟨hText, hShort, (parse_chunk .isg1 7 twoRecords hText hShort).1⟩

end ShaderBackend.Signature
