import Mathlib.Data.List.Nodup
import ShaderBackend.Spirv.Listing

/-! A headed stream cut into its header, its instructions and the words behind
them at which reading stops. Reading the instructions of a cut stream gives back
the cut, so an edit of the words can be described by what it does to the list of
instructions. A module is tiled exactly when nothing is left behind them. -/
namespace ShaderBackend.Spirv

/-- The opening word holds the length in its upper half and the opcode in its lower half, each cut
to sixteen bits. -/
theorem openingWord_toNat (opcode length : UInt32) :
    (openingWord opcode length).toNat = length.toNat % 65536 * 65536 + opcode.toNat % 65536 := by
  have hLow : opcode.toNat &&& 65535 = opcode.toNat % 65536 :=
    Nat.and_two_pow_sub_one_eq_mod opcode.toNat 16
  have hHigh : length.toNat <<< 16 % 2 ^ 32 = (length.toNat % 65536) <<< 16 := by
    rw [Nat.shiftLeft_eq, Nat.shiftLeft_eq]
    omega
  have hJoin := Nat.shiftLeft_add_eq_or_of_lt (Nat.mod_lt opcode.toNat (by decide : 0 < 2 ^ 16))
    (length.toNat % 65536)
  simp only [openingWord, UInt32.toNat_or, UInt32.toNat_shiftLeft, UInt32.toNat_and]
  change length.toNat <<< 16 % 2 ^ 32 ||| (opcode.toNat &&& 65535) = _
  rw [hLow, hHigh, ← hJoin, Nat.shiftLeft_eq]

theorem announcedLength_eq (opening : UInt32) :
    announcedLength opening = opening.toNat / 65536 := by
  rw [announcedLength, UInt32.toNat_shiftRight]
  exact Nat.shiftRight_eq_div_pow opening.toNat 16

/-- An instruction announces less than 65536 words. -/
theorem announcedLength_lt (opening : UInt32) : announcedLength opening < 65536 := by
  have h := UInt32.toNat_lt opening
  rw [announcedLength_eq]
  omega

/-- An opening word keeps only the low sixteen bits of a length. -/
theorem announcedLength_openingWord (opcode length : UInt32) :
    announcedLength (openingWord opcode length) = length.toNat % 65536 := by
  have h := Nat.mod_lt opcode.toNat (by decide : 0 < 65536)
  rw [announcedLength_eq, openingWord_toNat]
  omega

theorem openingWord_and (opcode length : UInt32) :
    openingWord opcode length &&& 0xffff = opcode &&& 0xffff := by
  have hLow (w : UInt32) : (w &&& 0xffff).toNat = w.toNat % 65536 := by
    rw [UInt32.toNat_and]
    exact Nat.and_two_pow_sub_one_eq_mod w.toNat 16
  apply UInt32.toNat_inj.1
  rw [hLow, hLow, openingWord_toNat]
  omega

/-- The length in the opening word is the number of words. Only such words are
read back from a stream as one instruction. -/
def Sized : List UInt32 → Prop
  | [] => False
  | opening :: operands => announcedLength opening = operands.length + 1

instance : DecidablePred Sized
  | [] => isFalse id
  | opening :: operands =>
    inferInstanceAs (Decidable (announcedLength opening = operands.length + 1))

theorem Sized.length_pos {words : List UInt32} (h : Sized words) : 0 < words.length := by
  cases words with
  | nil => exact h.elim
  | cons opening operands => simp

/-- A length field has sixteen bits, which bounds what it can count. -/
theorem Sized.length_lt {words : List UInt32} (h : Sized words) : words.length < 65536 := by
  cases words with
  | nil => exact h.elim
  | cons opening operands =>
      have hAnnounced : announcedLength opening = operands.length + 1 := h
      rw [List.length_cons, ← hAnnounced]
      exact announcedLength_lt opening

theorem sized_encode_iff (opcode : UInt32) (operands : List UInt32) :
    Sized (encode opcode operands) ↔ operands.length < 65535 := by
  have hMod : (operands.length + 1) % 2 ^ 32 % 65536 = (operands.length + 1) % 65536 :=
    Nat.mod_mod_of_dvd _ (by decide)
  simp only [Sized, encode, announcedLength_openingWord, UInt32.toNat_ofNat']
  rw [hMod]
  omega

/-- Words at which reading stops: none, a length of zero, or a length that runs
past the end. -/
def Stuck : List UInt32 → Prop
  | [] => True
  | opening :: rest => announcedLength opening = 0 ∨ rest.length + 1 < announcedLength opening

/-- Instructions where they stand if the first starts at `offset` and nothing
lies between them. -/
def place (offset : Nat) : Listing → List Instruction
  | [] => []
  | words :: rest => ⟨offset, words⟩ :: place (offset + words.length) rest

@[simp] theorem place_nil (offset : Nat) : place offset [] = [] := rfl

@[simp] theorem place_cons (offset : Nat) (words : List UInt32) (rest : Listing) :
    place offset (words :: rest) = ⟨offset, words⟩ :: place (offset + words.length) rest := rfl

@[simp] theorem map_words_place (offset : Nat) (listing : Listing) :
    (place offset listing).map (·.words) = listing := by
  induction listing generalizing offset with
  | nil => rfl
  | cons words rest ih => simp [ih]

/-- Listings placed one behind the other: the second starts where the words of the first end. -/
theorem place_append (offset : Nat) (first second : Listing) :
    place offset (first ++ second) =
      place offset first ++ place (offset + first.flatten.length) second := by
  induction first generalizing offset with
  | nil => simp
  | cons words rest ih =>
      simp only [List.cons_append, place_cons, ih, List.flatten_cons, List.length_append,
        Nat.add_assoc]

theorem instructionsFrom_of_stuck (offset : Nat) {stream : List UInt32} (h : Stuck stream) :
    instructionsFrom offset stream = [] := by
  cases stream with
  | nil => rw [instructionsFrom]
  | cons opening rest =>
      rcases h with hZero | hLong
      · simp [instructionsFrom, hZero]
      · have hNonzero : announcedLength opening ≠ 0 := by omega
        have hShort :
            min (announcedLength opening) (rest.length + 1) < announcedLength opening := by
          omega
        simp [instructionsFrom, hNonzero, List.length_take, hShort]

/-- Words whose length is right are read as one instruction, whatever follows. -/
theorem instructionsFrom_sized_append (offset : Nat) {words : List UInt32} (h : Sized words)
    (rest : List UInt32) :
    instructionsFrom offset (words ++ rest) =
      ⟨offset, words⟩ :: instructionsFrom (offset + words.length) rest := by
  cases words with
  | nil => exact h.elim
  | cons opening operands =>
      have hAnnounced : announcedLength opening = operands.length + 1 := h
      rw [List.cons_append, instructionsFrom]
      simp [hAnnounced]

/-- Instructions at the front of a stream are read as they are, and then what follows them. -/
theorem instructionsFrom_flatten_append (offset : Nat) {listing : Listing}
    (hSized : ∀ words ∈ listing, Sized words) (rest : List UInt32) :
    instructionsFrom offset (listing.flatten ++ rest) =
      place offset listing ++ instructionsFrom (offset + listing.flatten.length) rest := by
  induction listing generalizing offset with
  | nil => simp
  | cons words listing ih =>
      rw [List.forall_mem_cons] at hSized
      rw [List.flatten_cons, List.append_assoc, instructionsFrom_sized_append offset hSized.1,
        ih _ hSized.2, place_cons, List.cons_append, List.length_append, Nat.add_assoc]

/-- The iteration gives back the listing and stops at the tail, which no instruction can be read
from. -/
theorem instructionsFrom_dissected (offset : Nat) {listing : Listing} {tail : List UInt32}
    (hSized : ∀ words ∈ listing, Sized words) (hStuck : Stuck tail) :
    instructionsFrom offset (listing.flatten ++ tail) = place offset listing := by
  rw [instructionsFrom_flatten_append offset hSized, instructionsFrom_of_stuck _ hStuck,
    List.append_nil]

/-- Every stream can be cut. The cases are those of reading: at the three that
stop, the rest of the stream is the tail. -/
theorem exists_dissection (stream : List UInt32) :
    ∃ (listing : Listing) (tail : List UInt32), (∀ words ∈ listing, Sized words) ∧ Stuck tail ∧
      listing.flatten ++ tail = stream := by
  induction 0, stream using instructionsFrom.induct with
  | case1 => exact ⟨[], [], by simp, trivial, rfl⟩
  | case2 offset opening rest hZero =>
      exact ⟨[], opening :: rest, by simp, Or.inl hZero, rfl⟩
  | case3 offset opening rest hNonzero words hShort =>
      refine ⟨[], opening :: rest, by simp, Or.inr ?_, rfl⟩
      simp only [words, List.length_take, List.length_cons] at hShort
      omega
  | case4 offset opening rest hNonzero words hFits ih =>
      obtain ⟨listing, tail, hSized, hTail, hJoin⟩ := ih
      refine ⟨words :: listing, tail, ?_, hTail, ?_⟩
      · rw [List.forall_mem_cons]
        refine ⟨?_, hSized⟩
        obtain ⟨count, hCount⟩ := Nat.exists_eq_succ_of_ne_zero hNonzero
        simp only [words, hCount, List.length_take, List.length_cons] at hFits
        simp only [words, hCount, List.take_succ_cons, Sized, List.length_take]
        omega
      · rw [List.flatten_cons, List.append_assoc, hJoin, List.take_append_drop]

/-- The instructions of any stream lie one behind the other from its start on. -/
theorem Code.exists_place (code : Code) : ∃ (listing : Listing) (tail : List UInt32),
    (∀ words ∈ listing, Sized words) ∧ Stuck tail ∧
    code.words.drop code.layout.start = listing.flatten ++ tail ∧
    code.instructions = place code.layout.start listing := by
  obtain ⟨listing, tail, hSized, hStuck, hJoin⟩ :=
    exists_dissection (code.words.drop code.layout.start)
  refine ⟨listing, tail, hSized, hStuck, hJoin.symm, ?_⟩
  rw [Code.instructions, ← hJoin, instructionsFrom_dissected _ hSized hStuck]

/-- A headed stream cut into header, instructions and the rest. -/
structure Dissection where
  header : List UInt32
  listing : Listing
  /-- The words behind the last instruction. -/
  tail : List UInt32
  header_length : header.length = Header.length
  sized : ∀ words ∈ listing, Sized words
  stuck : Stuck tail

namespace Dissection

/-- The stream that was cut. -/
def code (d : Dissection) : Code := ⟨.headed, d.header ++ d.listing.flatten ++ d.tail⟩

@[simp] theorem instructions_code (d : Dissection) :
    d.code.instructions = place Header.length d.listing := by
  have hDrop : (d.header ++ d.listing.flatten ++ d.tail).drop Header.length =
      d.listing.flatten ++ d.tail := by
    rw [List.append_assoc, List.drop_left' d.header_length]
  change instructionsFrom Header.length
    ((d.header ++ d.listing.flatten ++ d.tail).drop Header.length) = _
  rw [hDrop, instructionsFrom_dissected _ d.sized d.stuck]

@[simp] theorem listing_code (d : Dissection) : d.code.listing = d.listing := by
  simp [Code.listing]

theorem take_words_code (d : Dissection) : d.code.words.take Header.length = d.header := by
  rw [code, List.append_assoc, List.take_left' d.header_length]

theorem drop_words_code (d : Dissection) :
    d.code.words.drop (Header.length + d.listing.flatten.length) = d.tail :=
  List.drop_left' (by rw [List.length_append, d.header_length])

/-- Every headed stream that is long enough for a header can be cut. -/
theorem exists_of_layout {code : Code} (hLayout : code.layout = .headed)
    (hLength : Header.length ≤ code.length) : ∃ d : Dissection, d.code = code := by
  obtain ⟨listing, tail, hSized, hStuck, hJoin⟩ := exists_dissection (code.words.drop Header.length)
  refine ⟨⟨code.words.take Header.length, listing, tail, ?_, hSized, hStuck⟩, ?_⟩
  · rw [List.length_take]
    exact Nat.min_eq_left hLength
  · simp only [Dissection.code, List.append_assoc, hJoin, List.take_append_drop, ← hLayout]

/-- A loaded module has its header, which is all that loading checks besides the magic number. -/
theorem headed_of_ofWords {words : List UInt32} {code : Code} (h : Code.ofWords words = .ok code) :
    code.layout = .headed ∧ Header.length ≤ code.length := by
  simp only [Code.ofWords] at h
  split at h
  · cases h
  · rename_i hLength
    split at h
    · cases h
    · cases h
      exact ⟨rfl, Nat.le_of_not_lt hLength⟩

/-- Every accepted module is a cut stream. -/
theorem exists_of_ofWords {words : List UInt32} {code : Code} (h : Code.ofWords words = .ok code) :
    ∃ d : Dissection, d.code = code :=
  exists_of_layout (headed_of_ofWords h).1 (headed_of_ofWords h).2

end Dissection

/-- Every word behind the header lies in exactly one instruction. -/
def Code.Tiled (code : Code) : Prop :=
  ∀ position, Header.length ≤ position → position < code.length →
    ∃! ins, ins ∈ code.instructions ∧ ins.offset ≤ position ∧ position < ins.stop

theorem bounds_of_mem_place {offset : Nat} {listing : Listing} {ins : Instruction}
    (h : ins ∈ place offset listing) :
    offset ≤ ins.offset ∧ ins.stop ≤ offset + listing.flatten.length := by
  induction listing generalizing offset with
  | nil => simp at h
  | cons words rest ih =>
      rw [place_cons, List.mem_cons] at h
      rw [List.flatten_cons, List.length_append]
      rcases h with rfl | h
      · simp only [Instruction.stop]
        omega
      · have hRest := ih h
        omega

/-- Two placed instructions do not start at one offset. -/
theorem eq_of_mem_place {offset : Nat} {listing : Listing} {first second : Instruction}
    (hSized : ∀ words ∈ listing, Sized words) (hFirst : first ∈ place offset listing)
    (hSecond : second ∈ place offset listing) (hOffset : first.offset = second.offset) :
    first = second := by
  induction listing generalizing offset with
  | nil => simp at hFirst
  | cons words rest ih =>
      rw [List.forall_mem_cons] at hSized
      have hPositive := hSized.1.length_pos
      rw [place_cons, List.mem_cons] at hFirst hSecond
      rcases hFirst with rfl | hFirst <;> rcases hSecond with rfl | hSecond
      · rfl
      · have hBounds := bounds_of_mem_place hSecond
        simp only at hOffset
        omega
      · have hBounds := bounds_of_mem_place hFirst
        simp only at hOffset
        omega
      · exact ih hSized.2 hFirst hSecond

/-- Placed instructions cover their stretch without overlap. -/
theorem existsUnique_mem_place {offset position : Nat} {listing : Listing}
    (hStart : offset ≤ position) (hStop : position < offset + listing.flatten.length) :
    ∃! ins, ins ∈ place offset listing ∧ ins.offset ≤ position ∧ position < ins.stop := by
  induction listing generalizing offset with
  | nil => simp at hStop; omega
  | cons words rest ih =>
      rw [List.flatten_cons, List.length_append] at hStop
      by_cases hFirst : position < offset + words.length
      · refine ⟨⟨offset, words⟩, ⟨by simp, hStart, hFirst⟩, ?_⟩
        rintro ins ⟨hMem, hBelow, -⟩
        rw [place_cons, List.mem_cons] at hMem
        rcases hMem with rfl | hMem
        · rfl
        · have hBounds := bounds_of_mem_place hMem
          omega
      · have hLater : offset + words.length ≤ position := by omega
        obtain ⟨ins, ⟨hMem, hBelow, hAbove⟩, hUnique⟩ := ih hLater (by omega)
        refine ⟨ins, ⟨by simp [hMem], hBelow, hAbove⟩, ?_⟩
        rintro other ⟨hOther, hOtherBelow, hOtherAbove⟩
        rw [place_cons, List.mem_cons] at hOther
        rcases hOther with rfl | hOther
        · exact (hFirst hOtherAbove).elim
        · exact hUnique other ⟨hOther, hOtherBelow, hOtherAbove⟩

/-- A module is tiled exactly when reading stops at its end. -/
theorem Dissection.tiled_code_iff (d : Dissection) : d.code.Tiled ↔ d.tail = [] := by
  have hLength : d.code.length = Header.length + d.listing.flatten.length + d.tail.length := by
    simp only [Code.length, code, List.length_append, d.header_length]
  constructor
  · intro hTiled
    by_contra hTail
    have hPositive := List.length_pos_of_ne_nil hTail
    obtain ⟨ins, ⟨hMem, -, hAbove⟩, -⟩ :=
      hTiled (Header.length + d.listing.flatten.length) (by omega) (by omega)
    rw [instructions_code] at hMem
    have hBounds := bounds_of_mem_place hMem
    omega
  · intro hTail position hStart hStop
    rw [hLength, hTail, List.length_nil] at hStop
    rw [instructions_code]
    exact existsUnique_mem_place hStart (by omega)

/-- To tell whether a module is tiled it is enough to count the words that are
read. -/
theorem tiled_iff_length {words : List UInt32} {code : Code} (h : Code.ofWords words = .ok code) :
    code.Tiled ↔ Header.length + code.listing.flatten.length = code.length := by
  obtain ⟨d, rfl⟩ := Dissection.exists_of_ofWords h
  have hLength : d.code.length = Header.length + d.listing.flatten.length + d.tail.length := by
    simp only [Code.length, Dissection.code, List.length_append, d.header_length]
  rw [d.tiled_code_iff, Dissection.listing_code, hLength, ← List.length_eq_zero_iff]
  omega

end ShaderBackend.Spirv
