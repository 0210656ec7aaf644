import Mathlib.Algebra.Ring.Nat
import ShaderBackend.Proofs.Spirv.Dissection

/-! Writing instructions and reading them again. A stream is read one instruction at a time from a
place that moves on. What was written is read back as it was, and any words at all are read without
a gap, up to their end or to the first word that announces a length it does not have. -/
namespace ShaderBackend.Spirv

/-- An instruction before it has a place. -/
structure Draft where
  opcode : UInt32
  operands : List UInt32
  deriving DecidableEq, Repr

namespace Draft

/-- Number of words, opening word included. -/
def length (d : Draft) : Nat := d.operands.length + 1

def words (d : Draft) : List UInt32 := encode d.opcode d.operands

/-- Whether opcode and length fit into the two halves of an opening word. -/
def Fits (d : Draft) : Prop := d.opcode.toNat < 2 ^ 16 ∧ d.operands.length ≤ 65534

instance (d : Draft) : Decidable d.Fits := inferInstanceAs (Decidable (_ ∧ _))

end Draft

def Instruction.draft (ins : Instruction) : Draft := ⟨ins.opcode, ins.operands⟩

namespace Code

/-- Appends an opening word. -/
def putOpening (code : Code) (opcode length : UInt32) : Code :=
  code.append [openingWord opcode length]

def putWord (code : Code) (word : UInt32) : Code := code.append [word]

/-- Appends an instruction word by word. -/
def put (code : Code) (d : Draft) : Code :=
  d.operands.foldl putWord (code.putOpening d.opcode (UInt32.ofNat d.length))

def assemble (code : Code) (drafts : List Draft) : Code := drafts.foldl put code

/-- A stream to which nothing has been appended yet. -/
def Fresh (code : Code) : Prop := code = fragment ∨ ∃ bound, code = emptyModule bound

/-- The instruction at an offset and the offset behind it. There is none behind the last word, and
none where the announced length is zero or runs past the last word. -/
def next? (code : Code) (offset : Nat) : Option (Instruction × Nat) :=
  match code.word? offset with
  | none => none
  | some opening =>
    let count := announcedLength opening
    if count = 0 ∨ code.length < offset + count then none
    else some (⟨offset, (code.words.drop offset).take count⟩, offset + count)

/-- Taking one instruction after the other from an offset on gives these until there is none, and
this is the offset where there is none. -/
inductive Iterates (code : Code) : Nat → List Instruction → Nat → Prop
  | stop {offset : Nat} (h : code.next? offset = none) : Iterates code offset [] offset
  | more {offset after last : Nat} {ins : Instruction} {read : List Instruction}
      (h : code.next? offset = some (ins, after)) (later : Iterates code after read last) :
      Iterates code offset (ins :: read) last

/-- An instruction inside a stream, as long as its opening word there tells. -/
structure Contains (code : Code) (ins : Instruction) : Prop where
  nonempty : 0 < ins.length
  stop_le : ins.stop ≤ code.length
  words : ins.words = (code.words.drop ins.offset).take ins.length
  announced : (code.word? ins.offset).map announcedLength = some ins.length

/-- A stream read from its first instruction on. -/
structure ReadThrough (code : Code) (read : List Instruction) (last : Nat) : Prop where
  iterates : code.Iterates code.layout.start read last
  /-- Each instruction starts where the ones in front of it end. -/
  offset : ∀ index ins, read[index]? = some ins →
    ins.offset = code.layout.start + ((read.take index).map (·.length)).sum
  last_eq : last = code.layout.start + (read.map (·.length)).sum
  inside : ∀ ins ∈ read, code.Contains ins
  /-- The end of the stream, or of a header that has been cut short. -/
  stopped : last = max code.layout.start code.length ∨
    ∃ opening, code.word? last = some opening ∧
      (announcedLength opening = 0 ∨ code.length < last + announcedLength opening)

end Code

/-- An instruction starts where those in front of it end. -/
theorem getElem?_place (offset : Nat) (listing : Listing) (index : Nat) :
    (place offset listing)[index]? =
      (listing[index]?).map fun words => ⟨offset + ((listing.take index).map (·.length)).sum, words⟩ := by
  induction listing generalizing offset index with
  | nil => rfl
  | cons words rest ih =>
      cases index with
      | zero => rfl
      | succ index => simp [ih, Nat.add_assoc]

theorem map_length_place (offset : Nat) (listing : Listing) :
    (place offset listing).map (·.length) = listing.map List.length := by
  conv_rhs => rw [← map_words_place offset listing, List.map_map]
  rfl

namespace Code

section Writing

variable {start : Code}

theorem append_append (code : Code) (first second : List UInt32) :
    (code.append first).append second = code.append (first ++ second) := by
  simp [append]

/-- Writing words one by one appends all of them. -/
theorem foldl_putWord (code : Code) (words : List UInt32) :
    words.foldl putWord code = code.append words := by
  induction words generalizing code with
  | nil => simp [append]
  | cons word rest ih => rw [List.foldl_cons, ih, putWord, append_append]; rfl

/-- An instruction that is built operand by operand is appended as a whole. -/
theorem put_eq (code : Code) (d : Draft) : code.put d = code.append d.words := by
  rw [put, foldl_putWord, putOpening, append_append]
  rfl

/-- A stream that is assembled is what it was, with the words of all instructions behind it. -/
theorem assemble_eq (code : Code) (drafts : List Draft) :
    code.assemble drafts = code.append (drafts.map Draft.words).flatten := by
  rw [assemble]
  induction drafts generalizing code with
  | nil => simp [append]
  | cons d rest ih => rw [List.foldl_cons, ih, put_eq, append_append]; rfl

theorem Fresh.length_eq (h : start.Fresh) : start.length = start.layout.start := by
  rcases h with rfl | ⟨bound, rfl⟩ <;> rfl

theorem sized_words {d : Draft} (h : d.Fits) : Sized d.words :=
  (sized_encode_iff d.opcode d.operands).2 (Nat.lt_succ_of_le h.2)

/-- Whoever reads an assembled stream finds the instructions that were put in, each where the last
one ended. -/
theorem instructions_assemble (hFresh : start.Fresh) {drafts : List Draft}
    (hFits : ∀ d ∈ drafts, d.Fits) :
    (start.assemble drafts).instructions = place start.length (drafts.map Draft.words) := by
  have hSized : ∀ words ∈ drafts.map Draft.words, Sized words := by
    intro words hMem
    obtain ⟨d, hDraft, rfl⟩ := List.mem_map.1 hMem
    exact sized_words (hFits d hDraft)
  have hRead := instructionsFrom_dissected start.words.length hSized (show Stuck [] from trivial)
  rw [List.append_nil] at hRead
  rw [assemble_eq, instructions, append, ← hFresh.length_eq, length, List.drop_left]
  exact hRead

/-- Putting in one instruction between others is the same as assembling all of them in this
order. -/
theorem assemble_put (code : Code) (front : List Draft) (d : Draft) (back : List Draft) :
    ((code.assemble front).put d).assemble back = code.assemble (front ++ d :: back) := by
  rw [assemble, assemble, assemble, List.foldl_append, List.foldl_cons]

/-- An instruction is read at the number of those in front of it. -/
theorem exists_instruction_assemble (hFresh : start.Fresh) {front back : List Draft} {d : Draft}
    (hFits : ∀ other ∈ front ++ d :: back, other.Fits) :
    ∃ offset, (start.assemble (front ++ d :: back)).instructions[front.length]? =
      some ⟨offset, d.words⟩ := by
  have hDraft : (front ++ d :: back)[front.length]? = some d := by
    rw [List.getElem?_append_right (Nat.le_refl _), Nat.sub_self, List.getElem?_cons_zero]
  rw [instructions_assemble hFresh hFits, getElem?_place, List.getElem?_map, hDraft]
  exact ⟨_, rfl⟩

/-- Opcode and operands are read from the words of an instruction. -/
theorem draft_words {d : Draft} (h : d.Fits) (offset : Nat) :
    (⟨offset, d.words⟩ : Instruction).draft = d := by
  have hOpcode : d.opcode &&& 0xffff = d.opcode := by
    rw [← UInt32.toNat_inj, UInt32.toNat_and]
    exact (Nat.and_two_pow_sub_one_eq_mod _ 16).trans (Nat.mod_eq_of_lt h.1)
  change Draft.mk (openingWord d.opcode _ &&& 0xffff) d.operands = d
  rw [openingWord_and, hOpcode]

/-- What is read back says of each instruction what was written. -/
theorem map_draft_place {drafts : List Draft} (hFits : ∀ d ∈ drafts, d.Fits) (offset : Nat) :
    (place offset (drafts.map Draft.words)).map Instruction.draft = drafts := by
  induction drafts generalizing offset with
  | nil => rfl
  | cons d rest ih =>
      rw [List.forall_mem_cons] at hFits
      rw [List.map_cons, place_cons, List.map_cons, draft_words hFits.1, ih hFits.2]

end Writing

section Reading

variable {code : Code} {offset last : Nat} {words rest tail : List UInt32} {read : List Instruction}

theorem word?_of_drop (h : code.words.drop offset = words) : code.word? offset = words.head? := by
  rw [word?, ← h, List.head?_drop]

theorem length_of_drop_eq_cons {opening : UInt32} (h : code.words.drop offset = opening :: rest) :
    code.length = offset + rest.length + 1 := by
  have hLength := congrArg List.length h
  rw [List.length_drop, List.length_cons] at hLength
  rw [length]
  omega

/-- At the end, and at words that announce no instruction, there is no next one. -/
theorem next?_of_stuck (h : Stuck (code.words.drop offset)) : code.next? offset = none := by
  cases hDrop : code.words.drop offset with
  | nil => rw [next?, word?_of_drop hDrop]; rfl
  | cons opening rest =>
      rw [hDrop] at h
      have hLength := length_of_drop_eq_cons hDrop
      have hStop : announcedLength opening = 0 ∨ code.length < offset + announcedLength opening := by
        rcases h with hZero | hLong <;> omega
      rw [next?, word?_of_drop hDrop]
      exact if_pos hStop

/-- Words that tell their own length are read as one instruction, and reading goes on behind
them. -/
theorem next?_of_sized (hSized : Sized words) (h : code.words.drop offset = words ++ rest) :
    code.next? offset = some (⟨offset, words⟩, offset + words.length) := by
  cases words with
  | nil => exact hSized.elim
  | cons opening operands =>
      have hAnnounced : announcedLength opening = operands.length + 1 := hSized
      have hLength := length_of_drop_eq_cons (h.trans List.cons_append)
      rw [List.length_append] at hLength
      have hGo : ¬ (announcedLength opening = 0 ∨
          code.length < offset + announcedLength opening) := by omega
      rw [next?, word?_of_drop h]
      refine (if_neg hGo).trans ?_
      rw [h, hAnnounced, ← List.length_cons (a := opening), List.take_left]

/-- A run of such words is read one after the other, up to the words at which reading is stuck. -/
theorem iterates_place {listing : Listing} (hSized : ∀ words ∈ listing, Sized words)
    (hStuck : Stuck tail) (h : code.words.drop offset = listing.flatten ++ tail) :
    code.Iterates offset (place offset listing) (offset + listing.flatten.length) := by
  induction listing generalizing offset with
  | nil =>
      rw [List.flatten_nil, List.nil_append] at h
      exact .stop (next?_of_stuck (h ▸ hStuck))
  | cons words rest ih =>
      rw [List.forall_mem_cons] at hSized
      rw [List.flatten_cons, List.append_assoc] at h
      have hRest : code.words.drop (offset + words.length) = rest.flatten ++ tail := by
        rw [← List.drop_drop, h, List.drop_left]
      rw [List.flatten_cons, List.length_append, ← Nat.add_assoc]
      exact .more (next?_of_sized hSized.1 h) (ih hSized.2 hRest)

/-- A stream can be iterated in one way only. -/
theorem Iterates.unique {other : List Instruction} {otherLast : Nat}
    (hFirst : code.Iterates offset read last) (hSecond : code.Iterates offset other otherLast) :
    other = read ∧ otherLast = last := by
  induction hFirst generalizing other with
  | stop hNone =>
      cases hSecond with
      | stop => exact ⟨rfl, rfl⟩
      | more hSome => cases hNone.symm.trans hSome
  | more hNext _ ih =>
      cases hSecond with
      | stop hNone => cases hNone.symm.trans hNext
      | more hOther later =>
          cases hNext.symm.trans hOther
          obtain ⟨rfl, rfl⟩ := ih later
          exact ⟨rfl, rfl⟩

/-- Whatever is read lies inside the stream. -/
theorem contains_of_next? {ins : Instruction} {after : Nat}
    (h : code.next? offset = some (ins, after)) : code.Contains ins := by
  rw [next?] at h
  split at h
  · cases h
  · rename_i opening hOpening
    dsimp only at h
    split at h
    · cases h
    · rename_i hGo
      cases h
      have hLength : ((code.words.drop offset).take (announcedLength opening)).length =
          announcedLength opening := by
        rw [length] at hGo
        rw [List.length_take, List.length_drop]
        omega
      refine ⟨?_, ?_, ?_, ?_⟩
      · rw [Instruction.length, hLength]
        omega
      · rw [Instruction.stop, hLength]
        exact Nat.le_of_not_lt (not_or.1 hGo).2
      · rw [Instruction.length, hLength]
      · rw [Instruction.length, hLength, hOpening, Option.map_some]

theorem Iterates.inside (h : code.Iterates offset read last) :
    ∀ ins ∈ read, code.Contains ins := by
  induction h with
  | stop => exact List.forall_mem_nil _
  | more hNext _ ih => exact List.forall_mem_cons.2 ⟨contains_of_next? hNext, ih⟩

/-- Every stream is read through, and `instructions` is what is read. -/
theorem exists_readThrough (code : Code) : ∃ last, code.ReadThrough code.instructions last := by
  obtain ⟨listing, tail, hSized, hStuck, hWords, hRead⟩ := code.exists_place
  have hIterates := iterates_place hSized hStuck hWords
  have hLength := congrArg List.length hWords
  rw [List.length_append, List.length_drop, ← length] at hLength
  have hTail : code.words.drop (code.layout.start + listing.flatten.length) = tail := by
    rw [← List.drop_drop, hWords, List.drop_left]
  refine ⟨code.layout.start + listing.flatten.length, hRead ▸ hIterates, ?_, ?_,
    hRead ▸ hIterates.inside, ?_⟩
  · intro index ins hIns
    rw [hRead, getElem?_place] at hIns
    obtain ⟨words, -, rfl⟩ := Option.map_eq_some_iff.1 hIns
    rw [hRead, List.map_take, List.map_take, map_length_place]
  · rw [hRead, map_length_place, List.length_flatten]
  · cases tail with
    | nil =>
        rw [List.length_nil] at hLength
        exact .inl (by omega)
    | cons opening rest =>
        have hEnd := length_of_drop_eq_cons hTail
        refine .inr ⟨opening, word?_of_drop hTail, ?_⟩
        rcases hStuck with hZero | hLong <;> omega

end Reading

/-- Instructions that are appended to a fresh stream are read back as they were, each where those in
front of it end. Any stream at all is read without a gap from its first instruction on, and reading
always comes to an end: that of the stream, or the first opening word whose length is zero or more
than what is left. -/
theorem instructions_exact :
    (∀ start : Code, start.Fresh → ∀ drafts : List Draft, (∀ d ∈ drafts, d.Fits) →
      (start.assemble drafts).instructions.map Instruction.draft = drafts ∧
      ∀ index, ((start.assemble drafts).instructions[index]?).map (·.offset) =
        (drafts[index]?).map fun _ => start.length + ((drafts.take index).map Draft.length).sum) ∧
    ∀ code : Code, ∃ last, code.ReadThrough code.instructions last ∧
      ∀ read other, code.Iterates code.layout.start read other →
        read = code.instructions ∧ other = last := by
  constructor
  · intro start hFresh drafts hFits
    rw [instructions_assemble hFresh hFits]
    refine ⟨map_draft_place hFits _, fun index => ?_⟩
    rw [getElem?_place, Option.map_map, List.getElem?_map, Option.map_map, List.map_take,
      List.map_map, ← List.map_take]
    rfl
  · intro code
    obtain ⟨last, hRead⟩ := exists_readThrough code
    exact ⟨last, hRead, fun read other h => hRead.iterates.unique h⟩

/-- Three instructions, one without operands. -/
def threeDrafts : List Draft := [⟨Op.capability, [1]⟩, ⟨0, []⟩, ⟨Op.entryPoint, [4, 1, 0, 7]⟩]

/-- The second instruction announces nine words, and only its opening word is there. -/
def truncatedCode : Code := ((emptyModule 4).put ⟨Op.capability, [1]⟩).putOpening 19 9

/-- Three instructions come back as they were written, and a stream cut in its second instruction
gives the first. -/
theorem instructions_exact_truncatedCode :
    (emptyModule 4).Fresh ∧ (∀ d ∈ threeDrafts, d.Fits) ∧
      ((emptyModule 4).assemble threeDrafts).instructions.map Instruction.draft = threeDrafts ∧
      truncatedCode.ReadThrough [⟨5, [0x20011, 1]⟩] 7 := by
  have hFresh : (emptyModule 4).Fresh := .inr ⟨4, rfl⟩
  have hFits : ∀ d ∈ threeDrafts, d.Fits := by decide
  obtain ⟨hWritten, hAny⟩ := instructions_exact
  obtain ⟨last, hRead, -⟩ := hAny truncatedCode
  have hInstructions : truncatedCode.instructions = [⟨5, [0x20011, 1]⟩] := by cbv
  have hLast := hRead.last_eq
  rw [hInstructions] at hLast hRead
  subst hLast
  exact ⟨hFresh, hFits, (hWritten _ hFresh _ hFits).1, hRead⟩

end Code
end ShaderBackend.Spirv
