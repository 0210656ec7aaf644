import ShaderBackend.Proofs.Encoding
import ShaderBackend.Proofs.Spirv.Assembly

/-! Texts among the operands of an instruction. The writer packs the bytes of a text into words, the
helper works the number of words out of the number of bytes, and the reader looks for the first word
with a zero byte. The three agree on every text without the null character, of whatever length. -/
namespace ShaderBackend.Spirv

/-- The zero bytes behind a text: one that ends it, and those up to the end of its word. -/
def closingZeros (s : String) : List UInt8 := 0 :: List.replicate (3 - s.utf8ByteSize % 4) 0

theorem literal_eq (s : String) : literal s = wordsOfBytes (Text.utf8 s ++ closingZeros s) := by
  have hCount : (4 - (s.utf8ByteSize + 1) % 4) % 4 = 3 - s.utf8ByteSize % 4 := by omega
  rw [literal, List.length_append, Text.length_utf8, List.append_assoc, closingZeros, ← hCount]
  rfl

/-- With the zeros behind it, a text fills whole words and has at least one zero. -/
theorem length_bytes_literal (s : String) :
    (Text.utf8 s ++ closingZeros s).length = 4 * (s.utf8ByteSize / 4 + 1) := by
  rw [List.length_append, Text.length_utf8, closingZeros, List.length_cons, List.length_replicate]
  omega

/-- The words of a text are its bytes and the zeros that close it. -/
theorem bytesOfWords_literal (s : String) :
    bytesOfWords (literal s) = Text.utf8 s ++ closingZeros s := by
  rw [literal_eq, bytesOfWords_wordsOfBytes]
  rw [length_bytes_literal, Nat.mul_mod_right]

theorem length_literal (s : String) : (literal s).length = s.utf8ByteSize / 4 + 1 := by
  rw [literal_eq, length_wordsOfBytes, length_bytes_literal]
  omega

/-- The helper counts right unless its sum is cut off. -/
theorem toNat_literalLength {s : String} (hShort : s.utf8ByteSize < 2 ^ 32 - 4) :
    (literalLength s).toNat = (literal s).length := by
  have hFour : (4 : UInt32).toNat = 4 := rfl
  rw [literalLength, length_literal, UInt32.toNat_div, UInt32.toNat_add, UInt32.toNat_ofNat', hFour]
  omega

/-- The first zero byte is one of the first bytes, or they are all in front of it. -/
theorem zero_inside_or_behind {first rest front back : List UInt8}
    (h : first ++ rest = front ++ 0 :: back) :
    (∃ own, first = front ++ 0 :: own) ∨
      ∃ later, front = first ++ later ∧ rest = later ++ 0 :: back := by
  rcases List.append_eq_append_iff.1 h with hBehind | ⟨own, hFirst, hBack⟩
  · exact .inr hBehind
  · cases own with
    | nil => exact .inr ⟨[], by rw [hFirst, List.append_nil, List.append_nil], hBack.symm⟩
    | cons byte own =>
        rw [List.cons_append, List.cons.injEq] at hBack
        exact .inl ⟨own, hBack.1 ▸ hFirst⟩

/-- The text ends in the word that its first zero byte falls into. -/
theorem terminatedLength_of_bytes {words : List UInt32} {front back : List UInt8}
    (hFront : 0 ∉ front) (h : bytesOfWords words = front ++ 0 :: back) :
    terminatedLength words = front.length / 4 + 1 := by
  induction words generalizing front with
  | nil => simp [bytesOfWords] at h
  | cons w rest ih =>
      have hFour : (bytesOfWord w).length = 4 := rfl
      have hBytes : bytesOfWord w ++ bytesOfWords rest = front ++ 0 :: back := h
      rw [terminatedLength]
      rcases zero_inside_or_behind hBytes with ⟨own, hOwn⟩ | ⟨later, rfl, hLater⟩
      · rw [hOwn, List.length_append, List.length_cons] at hFour
        rw [if_pos (by simp [hOwn]), Nat.div_eq_of_lt (by omega)]
      · rw [List.mem_append, not_or] at hFront
        rw [if_neg (by simpa using hFront.1), ih hFront.2 hLater, List.length_append, hFour]
        omega

section Reading

variable {s : String} {after : List UInt32}

/-- The first zero byte of a text lies in its last word, whatever stands behind. -/
theorem terminatedLength_literal_append (hText : '\x00' ∉ s.toList) (after : List UInt32) :
    terminatedLength (literal s ++ after) = (literal s).length := by
  have hBytes : bytesOfWords (literal s ++ after) = Text.utf8 s ++
      0 :: (List.replicate (3 - s.utf8ByteSize % 4) 0 ++ bytesOfWords after) := by
    rw [bytesOfWords_append, bytesOfWords_literal, closingZeros, List.append_assoc,
      List.cons_append]
  rw [terminatedLength_of_bytes ((Text.zero_mem_utf8_iff s).not.2 hText) hBytes, Text.length_utf8,
    length_literal]

/-- Without a zero of its own, a text reads up to the zeros that close it. -/
theorem takeWhile_bytes_literal (hText : '\x00' ∉ s.toList) :
    (bytesOfWords (literal s)).takeWhile (· ≠ 0) = Text.utf8 s := by
  have hNonzero : ∀ byte ∈ Text.utf8 s, decide (byte ≠ 0) = true := by
    intro byte hMem
    refine decide_eq_true fun hZero => hText ((Text.zero_mem_utf8_iff s).1 ?_)
    exact hZero ▸ hMem
  rw [bytesOfWords_literal, List.takeWhile_append_of_pos hNonzero, closingZeros,
    List.takeWhile_cons_of_neg (by decide), List.append_nil]

namespace Instruction

variable (ins : Instruction) (before : List UInt32)

theorem drop_words (h : ins.words = before ++ literal s ++ after) :
    ins.words.drop before.length = literal s ++ after := by
  rw [h, List.append_assoc, List.drop_left]

/-- An instruction that holds a text measures it by its words. -/
theorem literalLength_eq (hText : '\x00' ∉ s.toList) (h : ins.words = before ++ literal s ++ after) :
    ins.literalLength before.length = (literal s).length := by
  rw [literalLength, ins.drop_words before h, terminatedLength_literal_append hText]

/-- And it reads back the text that was written. -/
theorem literalText_eq (hText : '\x00' ∉ s.toList) (h : ins.words = before ++ literal s ++ after) :
    ins.literalText before.length = s := by
  rw [literalText, ins.literalLength_eq before hText h, ins.drop_words before h]
  simp only [List.take_left]
  rw [takeWhile_bytes_literal hText, Text.decodeLossy_utf8, String.ofList_toList]

/-- Behind the opening word and the operands in front of it a text is read, and the operands behind
it follow. -/
theorem text_and_rest (hText : '\x00' ∉ s.toList) {opening : UInt32}
    (h : ins.words = opening :: (before ++ literal s ++ after)) :
    ins.literalText (before.length + 1) = s ∧
      ins.words.drop (before.length + 1 + ins.literalLength (before.length + 1)) = after := by
  have hWords : ins.words = (opening :: before) ++ literal s ++ after := h
  have hStart : before.length + 1 = (opening :: before).length := rfl
  rw [hStart]
  refine ⟨ins.literalText_eq _ hText hWords, ?_⟩
  rw [ins.literalLength_eq _ hText hWords, hWords]
  exact List.drop_left' List.length_append

end Instruction

end Reading

section Writing

variable {s : String}

/-- Appends a text as operand words. -/
def Code.putText (code : Code) (s : String) : Code := code.append (literal s)

/-- Appends an instruction with a text between its other operands. Its length is worked out before
the text is written. -/
def Code.putWithText (code : Code) (opcode : UInt32) (before : List UInt32) (s : String)
    (after : List UInt32) : Code :=
  let length := UInt32.ofNat (before.length + after.length + 1) + literalLength s
  after.foldl Code.putWord
    ((before.foldl Code.putWord (code.putOpening opcode length)).putText s)

/-- The length that is worked out is the number of words that are written. -/
theorem Code.putWithText_eq (hShort : s.utf8ByteSize < 2 ^ 32 - 4) (code : Code) (opcode : UInt32)
    (before after : List UInt32) :
    code.putWithText opcode before s after = code.put ⟨opcode, before ++ literal s ++ after⟩ := by
  have hLength : UInt32.ofNat (before.length + after.length + 1) + literalLength s =
      UInt32.ofNat ((before ++ literal s ++ after).length + 1) := by
    rw [← UInt32.toNat_inj, UInt32.toNat_add, toNat_literalLength hShort, UInt32.toNat_ofNat',
      UInt32.toNat_ofNat', List.length_append, List.length_append]
    omega
  rw [put_eq, putWithText]
  simp only [hLength, foldl_putWord, putOpening, putText, append_append]
  simp [Draft.words, encode]

end Writing

section EntryPoints

variable {s : String} {ins : Instruction} {model entry : UInt32} {ids : List UInt32}

/-- The words of an entry point with this name and these interface ids. -/
def entryPoint (model entry : UInt32) (name : String) (ids : List UInt32) : List UInt32 :=
  encode Op.entryPoint (model :: entry :: (literal name ++ ids))

theorem literalLength_entryPoint (hText : '\x00' ∉ s.toList)
    (h : ins.words = entryPoint model entry s ids) : ins.literalLength 3 = (literal s).length :=
  ins.literalLength_eq [_, model, entry] hText h

theorem length_upToName (opening model entry : UInt32) (s : String) :
    (opening :: model :: entry :: literal s).length = 3 + (literal s).length := by
  simp only [List.length_cons]
  omega

/-- The name of an entry point ends where its interface begins. -/
theorem take_entryPoint :
    (entryPoint model entry s ids).take (3 + (literal s).length) =
      openingWord Op.entryPoint (UInt32.ofNat ((model :: entry :: (literal s ++ ids)).length + 1)) ::
        model :: entry :: literal s :=
  List.take_left' (length_upToName _ model entry s)

theorem drop_entryPoint : (entryPoint model entry s ids).drop (3 + (literal s).length) = ids :=
  List.drop_left' (length_upToName _ model entry s)

/-- Unlisting an id takes it out of the ids behind the name, and no word out of the name. -/
theorem withoutInterface_entryPoint (hText : '\x00' ∉ s.toList) (id : UInt32) :
    withoutInterface id (entryPoint model entry s ids) = entryPoint model entry s (ids.erase id) := by
  have hName : (unplaced (entryPoint model entry s ids)).literalLength 3 = (literal s).length :=
    literalLength_entryPoint hText rfl
  have hEntry : (unplaced (entryPoint model entry s ids)).is Op.entryPoint = true := by
    have hOpcode : (unplaced (entryPoint model entry s ids)).opcode = Op.entryPoint :=
      openingWord_and Op.entryPoint _
    rw [Instruction.is, hOpcode]
    rfl
  simp only [withoutInterface, hName, hEntry, take_entryPoint, drop_entryPoint, Bool.true_and]
  by_cases hMem : id ∈ ids
  · rw [if_pos (List.contains_iff_mem.2 hMem), List.cons_append, relength, encode, openingWord,
      openingWord_and]
    rfl
  · rw [if_neg (by simpa using hMem), List.erase_of_not_mem hMem]

/-- The interface is searched behind the name, not inside it. -/
theorem interfacePosition?_entryPoint (hText : '\x00' ∉ s.toList)
    (h : ins.words = entryPoint model entry s ids) (id : UInt32) :
    interfacePosition? id ins = (ids.findIdx? (· == id)).map (3 + (literal s).length + ·) := by
  rw [interfacePosition?, literalLength_entryPoint hText h, h, drop_entryPoint]

end EntryPoints

/-- What writing a text, counting its words and reading it agree on. -/
structure TextAgreement (s : String) : Prop where
  counted : ∀ code : Code, (code.putText s).length = code.length + (literalLength s).toNat
  /-- In any instruction, wherever the text stands and whatever follows it. -/
  read : ∀ (ins : Instruction) (before after : List UInt32),
    ins.words = before ++ literal s ++ after →
    ins.literalLength before.length = (literalLength s).toNat ∧ ins.literalText before.length = s
  /-- In a stream, between other instructions. -/
  streamed : ∀ start : Code, start.Fresh → ∀ front back : List Draft,
    (∀ d ∈ front ++ back, d.Fits) → ∀ (opcode : UInt32) (before after : List UInt32),
    opcode.toNat < 2 ^ 16 → before.length + (literalLength s).toNat + after.length ≤ 65534 →
    ∃ ins, (((start.assemble front).putWithText opcode before s after).assemble
        back).instructions[front.length]? = some ins ∧
      ins.opcode = opcode ∧ ins.literalText (before.length + 1) = s ∧
      ins.words.drop (before.length + 1 + ins.literalLength (before.length + 1)) = after
  /-- The interface ids of an entry point are the words behind its name. -/
  interface : ∀ (ins : Instruction) (model entry : UInt32) (ids : List UInt32),
    ins.words = entryPoint model entry s ids →
    ins.words.drop (3 + ins.literalLength 3) = ids ∧
    ∀ id, interfacePosition? id ins =
        (ids.findIdx? (· == id)).map (3 + (literalLength s).toNat + ·) ∧
      withoutInterface id ins.words = entryPoint model entry s (ids.erase id)

/-- A text without the null character is written in the number of words that is counted beforehand,
and is read back from them. -/
theorem textAgreement (s : String) (hText : '\x00' ∉ s.toList)
    (hShort : s.utf8ByteSize < 2 ^ 32 - 4) : TextAgreement s where
  counted code := by
    rw [toNat_literalLength hShort, Code.putText, Code.append, Code.length, List.length_append]
    rfl
  read ins before after h := by
    rw [toNat_literalLength hShort]
    exact ⟨ins.literalLength_eq before hText h, ins.literalText_eq before hText h⟩
  streamed start hFresh front back hFits opcode before after hOpcode hLength := by
    rw [toNat_literalLength hShort] at hLength
    have hDraft : (⟨opcode, before ++ literal s ++ after⟩ : Draft).Fits :=
      ⟨hOpcode, by rwa [List.length_append, List.length_append]⟩
    rw [Code.putWithText_eq hShort, Code.assemble_put]
    obtain ⟨offset, hIns⟩ := Code.exists_instruction_assemble hFresh
      (List.forall_mem_append.2 ⟨fun d hMem => hFits d (List.mem_append_left back hMem),
        List.forall_mem_cons.2 ⟨hDraft, fun d hMem => hFits d (List.mem_append_right front hMem)⟩⟩)
    exact ⟨_, hIns, congrArg Draft.opcode (Code.draft_words hDraft offset),
      Instruction.text_and_rest _ before hText rfl⟩
  interface ins model entry ids h := by
    have hName := literalLength_entryPoint hText h
    rw [toNat_literalLength hShort, h, hName, drop_entryPoint]
    exact ⟨rfl, fun id => ⟨interfacePosition?_entryPoint hText h id,
      withoutInterface_entryPoint hText id⟩⟩

/-- The eight bytes of the name fill two words, and its end takes a third one. -/
def namedEntry : Instruction := ⟨5, entryPoint 4 1 "Größen" [7, 9]⟩

/-- A name with letters of two bytes, behind which the interface lists two ids. -/
theorem textAgreement_namedEntry :
    '\x00' ∉ "Größen".toList ∧ "Größen".utf8ByteSize < 2 ^ 32 - 4 ∧
      (literal "Größen").length = 3 ∧ namedEntry.literalText 3 = "Größen" ∧
      namedEntry.words.drop (3 + namedEntry.literalLength 3) = [7, 9] ∧
      withoutInterface 7 namedEntry.words = entryPoint 4 1 "Größen" [9] := by
  have hText : '\x00' ∉ "Größen".toList := by decide
  have hShort : "Größen".utf8ByteSize < 2 ^ 32 - 4 := by decide
  have hAgreement := textAgreement "Größen" hText hShort
  obtain ⟨hIds, hUnlisted⟩ := hAgreement.interface namedEntry 4 1 [7, 9] rfl
  exact ⟨hText, hShort, by decide, (hAgreement.read namedEntry [_, 4, 1] [7, 9] rfl).2, hIds,
    (hUnlisted 7).2⟩

end ShaderBackend.Spirv
